/-
CppLint.Git.Repo — repositories and commits as the program holds them.

A `commit_ptr` is a pointer with an object behind it: `handle` is the
pointer's value, `id` the object id. What libgit2 does with a repository is
not part of the source, so it is a parameter: `Libgit2` gives, for each call
the program makes, what the call returns or the error it ends with.

`Libgit2` is what `fill_git_info` asks. `Libgit2Refs` adds the two calls
behind the commit HEAD is on, whose errors the program tells apart.
-/
import CppLint.Git.Diff

namespace CppLint.Git

/-- `repo_ptr`. -/
structure Repo where
  handle : Nat
deriving DecidableEq, Repr

/-- `commit_ptr`. -/
structure Commit where
  handle : Nat
  id : String
deriving DecidableEq, Repr

/-- The library calls `fill_git_info` makes: `repo::open`,
`revparse::commit` and `diff::get`. -/
structure Libgit2 where
  repositoryOpen : String → Except String Repo
  revparseCommit : Repo → String → Except String Commit
  diffGet : Repo → Commit → Commit → Except String Diff

/-! ## HEAD -/

/-- The errors of libgit2, as far as the program tells them apart:
`GIT_EUNBORNBRANCH`, `GIT_ENOTFOUND` and the others. -/
inductive GitError where
  | unbornBranch
  | notFound
  | other (what : String)
deriving DecidableEq, Repr

/-- `ref_ptr`. -/
structure Ref where
  handle : Nat
deriving DecidableEq, Repr

/-- The library calls behind `repo::head_commit`: `git_repository_head`, and
`git_reference_peel` for a commit. -/
structure Libgit2Refs extends Libgit2 where
  repositoryHead : Repo → Except GitError Ref
  referencePeel : Ref → Except GitError Commit

/-- `throw_if` on the return value of a library call. -/
def GitError.fault : GitError → Fault
  | .unbornBranch => .thirdParty "unborn branch"
  | .notFound => .thirdParty "not found"
  | .other what => .thirdParty what

/-- `repo::head`: null when HEAD is missing or its branch has no commit. -/
def head (git : Libgit2Refs) (repo : Repo) : Except Fault (Option Ref) :=
  match git.repositoryHead repo with
  | .ok ref => .ok (some ref)
  | .error .unbornBranch => .ok none
  | .error .notFound => .ok none
  | .error e => .error e.fault

/-- `ref::peel<commit_ptr>`: null when the reference leads to no commit. -/
def peel (git : Libgit2Refs) (ref : Ref) : Except Fault (Option Commit) :=
  match git.referencePeel ref with
  | .ok commit => .ok (some commit)
  | .error .notFound => .ok none
  | .error e => .error e.fault

/-- `repo::head_commit`. -/
def headCommit (git : Libgit2Refs) (repo : Repo) : Except Fault (Option Commit) := do
  match ← head git repo with
  | none => return none
  | some ref => peel git ref

/-- `operator*` on a `unique_ptr`. -/
def deref {α : Type} : Option α → Except Fault α
  | some a => .ok a
  | none => .error .nullPointer

/-- `commit::id_str`: the buffer `oid::to_str` returns ends with the NUL. -/
def idStr (commit : Commit) : String := commit.id ++ "\x00"

end CppLint.Git
