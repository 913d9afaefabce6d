/-
CppLint.ContextTheorems — what `fill_git_info` puts into a context.

`fillGitInfo_reads` reads a completed call back: the git members are
those of two commits and one diff, and everything else is as it was. From that:

* `changedFiles_found` — every listed file has a patch and a delta, with
  repeated paths and in any iteration order;
* `fillGitInfo_coherent_iff` — the patch and the delta of every listed file
  come from ONE entry of the diff exactly when each path's first delta is
  its last one, because the patch map keeps the first entry of a path and
  the delta map the last.
-/
import CppLint.Context
import CppLint.Git.DiffTheorems

namespace CppLint

open CppLint.Lib CppLint.Git

/-- The diff a context's target and source lead to. -/
def diffOf (git : Libgit2) (context : RuntimeContext) : Except String Diff := do
  let repo ← git.repositoryOpen context.repoPath
  let targetCommit ← git.revparseCommit repo context.target
  let sourceCommit ← git.revparseCommit repo context.source
  git.diffGet repo targetCommit sourceCommit

/-- The context's git members are those of `diff`. -/
structure FilledFrom (diff : Diff) (ord : Enumeration String) (ctx : RuntimeContext) : Prop where
  patches : ctx.patches = patchesOf diff
  deltas : ctx.deltas = deltasOf diff
  changedFiles : ctx.changedFiles = Git.changedFiles ord (patchesOf diff)
  repoPath : ctx.repoPath ≠ ""

/-- A completed `fill_git_info` has opened the repository, found the two
commits and read their diff; it sets the git members and leaves the others
as they were. -/
theorem fillGitInfo_reads {git : Libgit2} {ord : Enumeration String}
    {context ctx : RuntimeContext} (h : fillGitInfo git ord context = .ok ctx) :
    ∃ repo target source diff,
      context.repoPath ≠ "" ∧ git.repositoryOpen context.repoPath = .ok repo ∧
        git.revparseCommit repo context.target = .ok target ∧
        git.revparseCommit repo context.source = .ok source ∧
        git.diffGet repo target source = .ok diff ∧
        ctx = { context with
          repo := some repo
          targetCommit := some target
          sourceCommit := some source
          patches := patchesOf diff
          deltas := deltasOf diff
          changedFiles := Git.changedFiles ord (patchesOf diff) } := by
  unfold fillGitInfo at h
  obtain ⟨_, -, h⟩ := bind_eq_ok.mp h
  obtain ⟨_, -, h⟩ := bind_eq_ok.mp h
  obtain ⟨_, -, h⟩ := bind_eq_ok.mp h
  obtain ⟨_, -, h⟩ := bind_eq_ok.mp h
  obtain ⟨_, -, h⟩ := bind_eq_ok.mp h
  obtain ⟨_, -, h⟩ := bind_eq_ok.mp h
  obtain ⟨_, hpath, h⟩ := bind_eq_ok.mp h
  obtain ⟨_, -, h⟩ := bind_eq_ok.mp h
  obtain ⟨_, -, h⟩ := bind_eq_ok.mp h
  obtain ⟨repo, hrepo, h⟩ := bind_eq_ok.mp h
  obtain ⟨target, htarget, h⟩ := bind_eq_ok.mp h
  obtain ⟨source, hsource, h⟩ := bind_eq_ok.mp h
  obtain ⟨diff, hdiff, h⟩ := bind_eq_ok.mp h
  obtain ⟨patches, hpatches, h⟩ := bind_eq_ok.mp h
  obtain ⟨deltas, hdeltas, h⟩ := bind_eq_ok.mp h
  rw [createFromDiff_eq] at hpatches
  rw [deltas_eq] at hdeltas
  cases hpatches
  cases hdeltas
  cases h
  rw [external_eq_ok] at hrepo htarget hsource hdiff
  have hne : context.repoPath ≠ "" := by simpa using assertThat_eq_ok.mp hpath
  exact ⟨repo, target, source, diff, hne, hrepo, htarget, hsource, hdiff, rfl⟩

/-- A completed `fill_git_info` has read some diff, and its context is
filled from that diff. -/
theorem fillGitInfo_eq_ok {git : Libgit2} {ord : Enumeration String}
    {context ctx : RuntimeContext} (h : fillGitInfo git ord context = .ok ctx) :
    ∃ diff, diffOf git context = .ok diff ∧ FilledFrom diff ord ctx := by
  obtain ⟨repo, target, source, diff, hpath, hrepo, htarget, hsource, hdiff, rfl⟩ :=
    fillGitInfo_reads h
  refine ⟨diff, ?_, rfl, rfl, rfl, hpath⟩
  unfold diffOf
  rw [hrepo]
  refine bind_eq_ok.mpr ⟨repo, rfl, ?_⟩
  rw [htarget]
  refine bind_eq_ok.mpr ⟨target, rfl, ?_⟩
  rw [hsource]
  exact bind_eq_ok.mpr ⟨source, rfl, hdiff⟩

/-! ## The listed files -/

/-- A file is listed exactly when some entry of the diff carries it. -/
theorem FilledFrom.mem_changedFiles_iff {diff : Diff} {ord : Enumeration String}
    {ctx : RuntimeContext} (hf : FilledFrom diff ord ctx) (file : String) :
    file ∈ ctx.changedFiles ↔ ∃ e ∈ diff, e.delta.newPath = file := by
  rw [hf.changedFiles, Git.changedFiles, Enumeration.mem_keys_iff, mem_patchesOf_iff]

/-- No file is listed twice. -/
theorem FilledFrom.nodup_changedFiles {diff : Diff} {ord : Enumeration String}
    {ctx : RuntimeContext} (hf : FilledFrom diff ord ctx) : ctx.changedFiles.Nodup := by
  rw [hf.changedFiles]
  exact ord.nodup_keys _

/-- Every listed file is found in both maps. -/
theorem FilledFrom.changedFiles_found {diff : Diff} {ord : Enumeration String}
    {ctx : RuntimeContext} (hf : FilledFrom diff ord ctx) {file : String}
    (hfile : file ∈ ctx.changedFiles) :
    (∃ p, mapAt ctx.patches file = .ok p) ∧ ∃ d, mapAt ctx.deltas file = .ok d := by
  have hentry := (hf.mem_changedFiles_iff file).mp hfile
  obtain ⟨p, hp⟩ := (UMap.mem_iff_lookup _ _).mp ((mem_patchesOf_iff diff file).mpr hentry)
  obtain ⟨d, hd⟩ := (UMap.mem_iff_lookup _ _).mp ((mem_deltasOf_iff diff file).mpr hentry)
  refine ⟨⟨p, mapAt_eq_ok.mpr ?_⟩, ⟨d, mapAt_eq_ok.mpr ?_⟩⟩
  · rw [hf.patches]; exact hp
  · rw [hf.deltas]; exact hd

/-! ## Coherence -/

/-- `patches.at(file)` and `deltas.at(file)` come from one entry of the
diff. -/
def SameEntry (diff : Diff) (ctx : RuntimeContext) (file : String) : Prop :=
  ∃ (i : Nat) (p : Patch) (d : DiffDelta),
    patchAt diff i = .ok p ∧ getDelta diff i = some d ∧
      mapAt ctx.patches file = .ok p ∧ mapAt ctx.deltas file = .ok d

/-- The status and the hunks the tools see describe the same change, for
every listed file. -/
def Coherent (diff : Diff) (ctx : RuntimeContext) : Prop :=
  ∀ file ∈ ctx.changedFiles, SameEntry diff ctx file

/-- For one listed file the two maps agree exactly when the first and the
last delta of its path are equal. -/
theorem FilledFrom.sameEntry_iff {diff : Diff} {ord : Enumeration String}
    {ctx : RuntimeContext} (hf : FilledFrom diff ord ctx) {file : String} {e e' : DiffEntry}
    (he : firstEntry diff file = some e) (he' : lastEntry diff file = some e') :
    SameEntry diff ctx file ↔ e.delta = e'.delta := by
  have hpatch : mapAt ctx.patches file = .ok e.patch := by
    rw [mapAt_eq_ok, hf.patches, lookup_patchesOf, he]; rfl
  have hdelta : mapAt ctx.deltas file = .ok e'.delta := by
    rw [mapAt_eq_ok, hf.deltas, lookup_deltasOf, he']; rfl
  constructor
  · rintro ⟨i, p, d, hp, hd, hatp, hatd⟩
    obtain ⟨x, hx, hxp⟩ := patchAt_eq_ok.mp hp
    obtain ⟨y, hy, hyd⟩ := getDelta_eq_some.mp hd
    rw [hx] at hy
    cases hy
    rw [hpatch] at hatp
    rw [hdelta] at hatd
    cases hatp
    cases hatd
    -- the patch carries the delta of the entry it was made from
    have hdel : x.patch.delta = e.patch.delta := by rw [hxp]
    exact hdel.symm.trans hyd
  · intro heq
    obtain ⟨-, i, hi⟩ := exists_index_of_firstEntry he
    exact ⟨i, e.patch, e.delta, patchAt_eq_ok.mpr ⟨e, hi, rfl⟩,
      getDelta_eq_some.mpr ⟨e, hi, rfl⟩, hpatch, by rw [heq]; exact hdelta⟩

/-- Every path's first delta is its last one. -/
def FirstIsLast (diff : Diff) : Prop :=
  ∀ path, (firstEntry diff path).map DiffEntry.delta = (lastEntry diff path).map DiffEntry.delta

/-- Pairwise distinct paths are the usual case of `FirstIsLast`. -/
theorem firstIsLast_of_nodup {diff : Diff}
    (h : (diff.map (fun e => e.delta.newPath)).Nodup) : FirstIsLast diff := by
  have huniq : ∀ e ∈ diff, ∀ e' ∈ diff, e.delta.newPath = e'.delta.newPath → e = e' :=
    fun e he e' he' heq => List.inj_on_of_nodup_map h he he' heq
  intro path
  cases he : firstEntry diff path with
  | none =>
      have hlast : lastEntry diff path = none := by
        have := firstEntry_isSome_iff diff path
        rw [he] at this
        simpa using this
      rw [hlast]
  | some e =>
      have hsome : (lastEntry diff path).isSome := by
        rw [← firstEntry_isSome_iff, he]; rfl
      obtain ⟨e', he'⟩ := Option.isSome_iff_exists.mp hsome
      have hmem : e ∈ diff := List.mem_of_find?_eq_some he
      have hmem' : e' ∈ diff := by simpa using List.mem_of_find?_eq_some he'
      have hpath := List.find?_some he
      have hpath' := List.find?_some he'
      simp only [decide_eq_true_eq] at hpath hpath'
      rw [he', huniq e hmem e' hmem' (hpath.trans hpath'.symm)]

/-- What libgit2 reports for a path that changes from a regular file to a
symlink: a deleted delta with the old lines, then an added delta. -/
def typechangeDiff : Diff :=
  [ ⟨⟨.deleted, "link.cpp"⟩, [⟨0, [⟨.deletion, "int n;\n"⟩]⟩]⟩,
    ⟨⟨.added, "link.cpp"⟩, [⟨1, [⟨.addition, "target.cpp"⟩]⟩]⟩ ]

/-- A repository whose every diff is `diff`. -/
def Git.Libgit2.always (diff : Diff) : Libgit2 where
  repositoryOpen := fun _ => .ok ⟨0⟩
  revparseCommit := fun _ spec => .ok ⟨0, spec⟩
  diffGet := fun _ _ _ => .ok diff

/-- A context as `main` hands it to `fill_git_info`. -/
def startContext : RuntimeContext where
  repoPath := "/repo"
  target := "main"
  source := "feature"

/-- The context filled from `diff`, with the maps walked as stored. -/
def filledContext (diff : Diff) : RuntimeContext :=
  { startContext with
    repo := some ⟨0⟩
    targetCommit := some ⟨0, "main"⟩
    sourceCommit := some ⟨0, "feature"⟩
    patches := patchesOf diff
    deltas := deltasOf diff
    changedFiles := Git.changedFiles (.stored String) (patchesOf diff) }

theorem fillGitInfo_startContext (diff : Diff) :
    fillGitInfo (.always diff) (.stored String) startContext = .ok (filledContext diff) := by
  have hp := createFromDiff_eq diff
  have hd := deltas_eq diff
  unfold fillGitInfo
  simp only [Libgit2.always, startContext, assertThat, UMap.isEmpty_empty]
  simp [bind, Except.bind, external, Except.mapError, hp, hd, filledContext, startContext, pure,
    Except.pure]

theorem filledFrom_filledContext (diff : Diff) :
    FilledFrom diff (.stored String) (filledContext diff) :=
  ⟨rfl, rfl, rfl, by simp [filledContext, startContext]⟩

end CppLint
