/-
CppLint.Context — `runtime_context` and `fill_git_info`
(`src/context.h`, `src/context.cpp`).
-/
import CppLint.Git.Repo

namespace CppLint

open CppLint.Lib CppLint.Git

/-- `runtime_context`, with the defaults of its members. -/
structure RuntimeContext where
  enableStepSummary : Bool := false
  enableCommentOnIssue : Bool := false
  enablePullRequestReview : Bool := false
  enableActionOutput : Bool := false
  repoPath : String := ""
  repoPair : String := ""
  token : String := ""
  eventName : String := ""
  target : String := ""
  source : String := ""
  prNumber : Int := -1
  repo : Option Repo := none
  targetCommit : Option Commit := none
  sourceCommit : Option Commit := none
  patches : UMap String Patch := ∅
  deltas : UMap String DiffDelta := ∅
  changedFiles : List String := []

/-- `fill_git_info`. The file list is read off the patch map, in the order
`ord` walks it. -/
def fillGitInfo (git : Libgit2) (ord : Enumeration String) (context : RuntimeContext) :
    Except Fault RuntimeContext := do
  assertThat .fillGitInfo context.repo.isNone "context.repo == nullptr"
  assertThat .fillGitInfo context.targetCommit.isNone "context.target_commit == nullptr"
  assertThat .fillGitInfo context.sourceCommit.isNone "context.source_commit == nullptr"
  assertThat .fillGitInfo context.patches.isEmpty "context.patches.empty()"
  assertThat .fillGitInfo context.deltas.isEmpty "context.deltas.empty()"
  assertThat .fillGitInfo context.changedFiles.isEmpty "context.changed_files.empty()"
  assertThat .fillGitInfo (context.repoPath ≠ "") "!context.repo_path.empty()"
  assertThat .fillGitInfo (context.target ≠ "") "!context.target.empty()"
  assertThat .fillGitInfo (context.source ≠ "") "!context.source.empty()"
  let repo ← external (git.repositoryOpen context.repoPath)
  let targetCommit ← external (git.revparseCommit repo context.target)
  let sourceCommit ← external (git.revparseCommit repo context.source)
  let diff ← external (git.diffGet repo targetCommit sourceCommit)
  let patches ← createFromDiff diff
  let deltas ← Git.deltas diff
  return { context with
    repo := some repo
    targetCommit := some targetCommit
    sourceCommit := some sourceCommit
    patches := patches
    deltas := deltas
    changedFiles := Git.changedFiles ord patches }

end CppLint
