/-
CppLint.SourceCheckTheorems — what the comparison of HEAD with the source
commit decides.

The purpose of the check is `GuardsSource`: the run goes on exactly when
HEAD leads to a commit with the object id of the source commit, and ends in
the error of the check otherwise. The code compares pointers and reads both
commits for its message first. `checkRepoIsOnSource_of_head` and its two
siblings say what it does for each outcome of `head_commit`, and
`guardsSource_iff` when this is the purpose. The contexts are those
`fill_git_info` leaves (`onCommit_of_fillGitInfo`).
-/
import CppLint.ContextTheorems
import CppLint.Main

namespace CppLint

open CppLint.Lib CppLint.Git

/-- HEAD leads to the commit. -/
def HeadResolves (git : Libgit2Refs) (repo : Repo) (commit : Commit) : Prop :=
  ∃ ref, git.repositoryHead repo = .ok ref ∧ git.referencePeel ref = .ok commit

/-- The context `fill_git_info` leaves, with its repository and its source
commit. -/
def RuntimeContext.onCommit (ctx : RuntimeContext) (repo : Repo) (source : Commit) :
    RuntimeContext := { ctx with repo := some repo, sourceCommit := some source }

/-- The run goes on if and only if HEAD leads to a commit with the id of the
source commit; in every other case the check raises its error. -/
def GuardsSource (git : Libgit2Refs) (ctx : RuntimeContext) (repo : Repo) (source : Commit) :
    Prop :=
  (checkRepoIsOnSource git (ctx.onCommit repo source) = .ok () ↔
    ∃ commit, HeadResolves git repo commit ∧ commit.id = source.id) ∧
  (checkRepoIsOnSource git (ctx.onCommit repo source) ≠ .ok () →
    ∃ details, checkRepoIsOnSource git (ctx.onCommit repo source) =
      .error (.runtimeError ("Head of repository isn't equal to source commit: " ++ details)))

variable {git : Libgit2Refs} {ctx : RuntimeContext} {repo : Repo} {source commit : Commit}

/-! ## The commit HEAD leads to -/

theorem headCommit_eq_some_iff :
    headCommit git repo = .ok (some commit) ↔ HeadResolves git repo commit := by
  unfold headCommit head HeadResolves
  cases hhead : git.repositoryHead repo with
  | error e => cases e <;> simp [bind, Except.bind, pure, Except.pure]
  | ok ref =>
      cases hpeel : git.referencePeel ref with
      | error e => cases e <;> simp [peel, hpeel, bind, Except.bind]
      | ok c => simp [peel, hpeel, bind, Except.bind]

theorem HeadResolves.unique {commit' : Commit} (h : HeadResolves git repo commit)
    (h' : HeadResolves git repo commit') : commit = commit' := by
  have heq := (headCommit_eq_some_iff.mpr h).symm.trans (headCommit_eq_some_iff.mpr h')
  simpa using heq

/-- The fault is an error of libgit2. -/
def OfLibgit2 (f : Fault) : Prop := ∃ what, f = .thirdParty what

theorem Git.GitError.fault_ofLibgit2 (e : GitError) : OfLibgit2 e.fault := by
  cases e <;> exact ⟨_, rfl⟩

theorem head_guarantees : Guarantees (head git repo) (fun _ => True) OfLibgit2 := by
  unfold head
  cases git.repositoryHead repo with
  | ok ref => trivial
  | error e => cases e <;> first | trivial | exact GitError.fault_ofLibgit2 _

theorem peel_guarantees (ref : Ref) : Guarantees (peel git ref) (fun _ => True) OfLibgit2 := by
  unfold peel
  cases git.referencePeel ref with
  | ok commit => trivial
  | error e => cases e <;> first | trivial | exact GitError.fault_ofLibgit2 _

/-- An error of `head_commit` is one of libgit2. -/
theorem headCommit_guarantees : Guarantees (headCommit git repo) (fun _ => True) OfLibgit2 := by
  refine head_guarantees.bind (fun found _ => ?_)
  cases found with
  | none => trivial
  | some ref => exact peel_guarantees ref

/-! ## The check -/

/-- `fill_git_info` leaves such a context, with the commit the source
revision resolves to. -/
theorem onCommit_of_fillGitInfo {ord : Enumeration String} {context : RuntimeContext}
    (h : fillGitInfo git.toLibgit2 ord context = .ok ctx) :
    ∃ repo source, git.repositoryOpen context.repoPath = .ok repo ∧
      git.revparseCommit repo context.source = .ok source ∧ ctx = ctx.onCommit repo source := by
  obtain ⟨repo, _, source, _, -, hrepo, -, hsource, -, rfl⟩ := fillGitInfo_reads h
  exact ⟨repo, source, hrepo, hsource, rfl⟩

theorem checkRepoIsOnSource_of_head (h : headCommit git repo = .ok (some commit)) :
    checkRepoIsOnSource git (ctx.onCommit repo source) =
      throwUnless (commit.handle = source.handle)
        ("Head of repository isn't equal to source commit: "
          ++ (idStr commit ++ " != " ++ idStr source)) := by
  simp [checkRepoIsOnSource, RuntimeContext.onCommit, deref, h, bind, Except.bind,
    String.append_assoc]

/-- Without a commit the message is made all the same. -/
theorem checkRepoIsOnSource_of_no_head (h : headCommit git repo = .ok none) :
    checkRepoIsOnSource git (ctx.onCommit repo source) = .error .nullPointer := by
  simp [checkRepoIsOnSource, RuntimeContext.onCommit, deref, h, bind, Except.bind]

theorem checkRepoIsOnSource_of_error {f : Fault} (h : headCommit git repo = .error f) :
    checkRepoIsOnSource git (ctx.onCommit repo source) = .error f := by
  simp [checkRepoIsOnSource, RuntimeContext.onCommit, deref, h, bind, Except.bind]

/-- The check guards the source commit if and only if HEAD leads to a commit
whose pointer is that of the source commit exactly when its id is. -/
theorem guardsSource_iff (git : Libgit2Refs) (ctx : RuntimeContext) (repo : Repo)
    (source : Commit) :
    GuardsSource git ctx repo source ↔
      ∃ commit, HeadResolves git repo commit ∧
        (commit.handle = source.handle ↔ commit.id = source.id) := by
  cases hhead : headCommit git repo with
  | error f =>
      -- the error is one of libgit2, and there is no commit
      obtain ⟨what, rfl⟩ := headCommit_guarantees.of_error hhead
      have hnone : ∀ commit, ¬ HeadResolves git repo commit := by
        simp [← headCommit_eq_some_iff, hhead]
      simp [GuardsSource, checkRepoIsOnSource_of_error hhead, hnone]
  | ok found =>
      cases found with
      | none =>
          -- the null commit is read for the message
          have hnone : ∀ commit, ¬ HeadResolves git repo commit := by
            simp [← headCommit_eq_some_iff, hhead]
          simp [GuardsSource, checkRepoIsOnSource_of_no_head hhead, hnone]
      | some commit =>
          have hresolves := headCommit_eq_some_iff.mp hhead
          have hany : ∀ P : Commit → Prop,
              (∃ c, HeadResolves git repo c ∧ P c) ↔ P commit := by
            intro P
            constructor
            · rintro ⟨c, hc, hP⟩
              exact hresolves.unique hc ▸ hP
            · exact fun hP => ⟨commit, hresolves, hP⟩
          rw [hany, GuardsSource, hany, checkRepoIsOnSource_of_head hhead]
          by_cases hhandle : commit.handle = source.handle
          · simp [throwUnless, hhandle]
          · simp [throwUnless, hhandle]

/-- A repository whose branch has no commit yet. -/
def unbornHead : Libgit2Refs where
  repositoryOpen := fun _ => .error "not asked"
  revparseCommit := fun _ _ => .error "not asked"
  diffGet := fun _ _ _ => .error "not asked"
  repositoryHead := fun _ => .error .unbornBranch
  referencePeel := fun _ => .error .notFound

theorem not_guardsSource_unbornHead :
    ¬ GuardsSource unbornHead {} ⟨1⟩ ⟨2, "ffac537e6cbbf934b08745a378932722df287a53"⟩ := by
  rintro ⟨-, herror⟩
  have hcheck : checkRepoIsOnSource unbornHead
      (({} : RuntimeContext).onCommit ⟨1⟩ ⟨2, "ffac537e6cbbf934b08745a378932722df287a53"⟩)
        = .error .nullPointer := rfl
  rw [hcheck] at herror
  obtain ⟨details, hdetails⟩ := herror (by simp)
  cases hdetails

end CppLint
