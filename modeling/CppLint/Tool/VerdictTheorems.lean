/-
CppLint.Tool.VerdictTheorems — the final verdict of a check, and the order
of the files.

`finalPassed_iff` reads the final verdict of a completed check off the files
alone: no file that had to be checked fails. Nothing in it mentions the
order of the files or fast exit, so two completed checks of one list in
different orders agree, with fast exit or without. Without fast exit the
whole result is the tally of all files, and permuted files give permuted
verdicts (`Judged.perm`), equal maps (`lookup_kept_perm`) and permuted
lists.
-/
import CppLint.Tool.CheckTheorems

namespace CppLint.Tool

open CppLint.Lib CppLint.Git

variable {ρ : Type} (host : Host) (checker : Checker ρ) (context : RuntimeContext)

/-! ## Which files are checked, and which pass -/

/-- The file has a delta that does not delete it. -/
def NotDeleted (file : String) : Prop :=
  ∃ delta, context.deltas.lookup file = some delta ∧ delta.status ≠ .deleted

/-- The file is neither deleted nor rejected by the tool's filter. -/
def Wanted (file : String) : Prop :=
  (∃ delta, context.deltas.lookup file = some delta ∧ delta.status ≠ .deleted) ∧
    filterFile host checker.option.fileFilterIregex file = .ok false

/-- The check of the single file passes. -/
def Passes (file : String) : Prop :=
  ∃ r, checker.checkSingleFile context context.repoPath file = .ok r ∧
    (checker.base r).passed = true

variable {host checker context}

/-- What a verdict says of its file. -/
theorem verdict_spec {file : String} {v : Verdict ρ}
    (h : verdict host checker context file = .ok v) :
    match v with
    | .deleted => ¬ NotDeleted context file
    | .ignored => NotDeleted context file ∧
        filterFile host checker.option.fileFilterIregex file = .ok true
    | .passed r => NotDeleted context file ∧
        filterFile host checker.option.fileFilterIregex file = .ok false ∧
        checker.checkSingleFile context context.repoPath file = .ok r ∧
        (checker.base r).passed = true
    | .failed r => NotDeleted context file ∧
        filterFile host checker.option.fileFilterIregex file = .ok false ∧
        checker.checkSingleFile context context.repoPath file = .ok r ∧
        (checker.base r).passed = false := by
  obtain ⟨delta, hdelta, h⟩ := bind_eq_ok.mp h
  rw [mapAt_eq_ok] at hdelta
  by_cases hdel : delta.status = .deleted
  · rw [if_pos hdel] at h
    cases h
    rintro ⟨delta', hdelta', hne⟩
    rw [hdelta] at hdelta'
    cases hdelta'
    exact hne hdel
  · rw [if_neg hdel] at h
    have hnot : NotDeleted context file := ⟨delta, hdelta, hdel⟩
    obtain ⟨filtered, hfilter, h⟩ := bind_eq_ok.mp h
    cases filtered with
    | true =>
        cases h
        exact ⟨hnot, hfilter⟩
    | false =>
        obtain ⟨r, hr, h⟩ := bind_eq_ok.mp h
        cases hp : (checker.base r).passed <;> rw [hp] at h <;> cases h
        · exact ⟨hnot, hfilter, hr, hp⟩
        · exact ⟨hnot, hfilter, hr, hp⟩

/-- The ways to a verdict. -/
theorem verdict_eq_ok {file : String} {v : Verdict ρ}
    (h : verdict host checker context file = .ok v) :
    (¬ Wanted host checker context file ∧ v.isFailed = false) ∨
      Wanted host checker context file ∧
        ∃ r, checker.checkSingleFile context context.repoPath file = .ok r ∧
          v = if (checker.base r).passed then .passed r else .failed r := by
  have hverdict := verdict_spec h
  cases v with
  | deleted => exact .inl ⟨fun hwanted => hverdict hwanted.1, rfl⟩
  | ignored =>
      refine .inl ⟨fun hwanted => ?_, rfl⟩
      have hno := hwanted.2
      rw [hverdict.2] at hno
      cases hno
  | passed r =>
      obtain ⟨hnot, hfilter, hcheck, hp⟩ := hverdict
      exact .inr ⟨⟨hnot, hfilter⟩, r, hcheck, by rw [hp]; rfl⟩
  | failed r =>
      obtain ⟨hnot, hfilter, hcheck, hp⟩ := hverdict
      exact .inr ⟨⟨hnot, hfilter⟩, r, hcheck, by rw [hp]; rfl⟩

/-- `P` is what a completed check of the file says. -/
def Decides (checker : Checker ρ) (context : RuntimeContext) (P : String → Prop) : Prop :=
  ∀ file r, checker.checkSingleFile context context.repoPath file = .ok r →
    ((checker.base r).passed = true ↔ P file)

theorem decides_passes : Decides checker context (Passes checker context) := by
  intro file r hr
  constructor
  · intro hp
    exact ⟨r, hr, hp⟩
  · intro h
    obtain ⟨r', hr', hp⟩ := h
    rw [hr] at hr'
    cases hr'
    exact hp

/-- A verdict is no failure exactly when the file passes if it had to be
checked. -/
theorem isFailed_eq_false_iff {P : String → Prop} (hP : Decides checker context P)
    {file : String} {v : Verdict ρ} (h : verdict host checker context file = .ok v) :
    v.isFailed = false ↔ (Wanted host checker context file → P file) := by
  rcases verdict_eq_ok h with ⟨hnot, hv⟩ | ⟨hwanted, r, hr, rfl⟩
  · exact ⟨fun _ hw => absurd hw hnot, fun _ => hv⟩
  · rw [← hP file r hr]
    cases (checker.base r).passed with
    | true => simp [Verdict.isFailed]
    | false => simp [Verdict.isFailed, hwanted]

/-- **The final verdict.** A completed check on a fresh tool is positive
exactly when every file that had to be checked passes. -/
theorem finalPassed_iff {P : String → Prop} (hP : Decides checker context P)
    {r : MultiFilesResult ρ} (h : runCheck host checker context {} = .ok r) :
    r.finalPassed = true ↔
      ∀ file ∈ context.changedFiles, Wanted host checker context file → P file := by
  obtain ⟨vs, hout⟩ := (runCheck_outcome host checker context).of_ok h
  cases hout with
  | full hfiles hjudged _ =>
      show (tally checker vs).fails.isEmpty = true ↔ _
      rw [hjudged.fails_isEmpty_iff, ← hfiles, List.forall_mem_map]
      constructor
      · intro hnone p hp
        exact (isFailed_eq_false_iff hP (hjudged p hp)).mp (hnone p hp)
      · intro hpass p hp
        exact (isFailed_eq_false_iff hP (hjudged p hp)).mpr (hpass p hp)
  | @early pre file rf hfiles hjudged _ _ =>
      -- the file the loop was left at had to be checked and does not pass
      have hlast := hjudged (file, .failed rf) (by simp)
      have hmem : file ∈ context.changedFiles := hfiles.subset (by simp)
      constructor
      · intro hfalse
        cases hfalse
      · intro hpass
        have hnot := (isFailed_eq_false_iff hP hlast).mpr (hpass file hmem)
        cases hnot

/-! ## What a completed check holds -/

/-- However it ends, a check holds judged files of the list, its failures
are those of the tally, and its verdict says whether there are any. -/
theorem outcome_judged {vs : List (String × Verdict ρ)} {r : MultiFilesResult ρ}
    (hout : CheckOutcome host checker context vs r) :
    Judged host checker context vs ∧ (∀ p ∈ vs, p.1 ∈ context.changedFiles) ∧
      r.fails = (tally checker vs).fails ∧ (r.finalPassed = false → ¬ NoneFailed vs) := by
  cases hout with
  | full hfiles hjudged _ =>
      refine ⟨hjudged, ?_, rfl, ?_⟩
      · intro p hp
        rw [← hfiles]
        exact List.mem_map.mpr ⟨p, hp, rfl⟩
      · intro hfalse hnone
        rw [← hjudged.fails_isEmpty_iff] at hnone
        have hempty : (tally checker vs).fails.isEmpty = false := hfalse
        rw [hnone] at hempty
        cases hempty
  | @early pre file rf hfiles hjudged _ _ =>
      refine ⟨hjudged, ?_, rfl, ?_⟩
      · intro p hp
        exact hfiles.subset (List.mem_map.mpr ⟨p, hp, rfl⟩)
      · intro _ hnone
        have hlast := hnone (file, .failed rf) (by simp)
        cases hlast

/-- A recorded failure is the result of the check of a listed file. -/
theorem outcome_lookup_fails {vs : List (String × Verdict ρ)} {r : MultiFilesResult ρ}
    (hout : CheckOutcome host checker context vs r) {file : String} {res : ρ}
    (hlookup : r.fails.lookup file = some res) :
    file ∈ context.changedFiles ∧
      checker.checkSingleFile context context.repoPath file = .ok res := by
  obtain ⟨hjudged, hfiles, hfails, _⟩ := outcome_judged hout
  rw [hfails, tally_eq] at hlookup
  obtain ⟨v, hv, hres⟩ := hjudged.lookup_kept.mp hlookup
  refine ⟨hfiles _ hv, ?_⟩
  have hverdict : verdict host checker context file = .ok v := hjudged _ hv
  rcases verdict_eq_ok hverdict with ⟨_, hnot⟩ | ⟨_, res', hcheck, rfl⟩
  · cases v <;> cases hres
    cases hnot
  · cases hp : (checker.base res').passed with
    | true =>
        rw [hp] at hres
        cases hres
    | false =>
        rw [hp] at hres
        cases hres
        exact hcheck

/-! ## Which checks complete -/

/-- A check that completes has passed its two assertions. -/
theorem asserts_of_runCheck {result r : MultiFilesResult ρ}
    (h : runCheck host checker context result = .ok r) :
    checker.option.binary ≠ "" ∧ context.repoPath ≠ "" := by
  obtain ⟨_, hbinary, h⟩ := bind_eq_ok.mp h
  obtain ⟨_, hpath, _⟩ := bind_eq_ok.mp h
  exact ⟨of_decide_eq_true (assertThat_eq_ok.mp hbinary),
    of_decide_eq_true (assertThat_eq_ok.mp hpath)⟩

/-- When no file throws, the check completes. -/
theorem runCheck_completes (hbinary : checker.option.binary ≠ "") (hpath : context.repoPath ≠ "")
    (hfiles : ∀ file ∈ context.changedFiles, ∃ v, verdict host checker context file = .ok v) :
    ∃ r, runCheck host checker context {} = .ok r := by
  cases hr : runCheck host checker context {} with
  | ok r => exact ⟨r, rfl⟩
  | error f =>
      rcases (runCheck_outcome host checker context).of_error hr with hassert | hthrown
      · rcases hassert with ⟨hempty, _⟩ | ⟨hempty, _⟩
        · exact absurd hempty hbinary
        · exact absurd hempty hpath
      · obtain ⟨file, hmem, hfault⟩ := hthrown
        obtain ⟨v, hv⟩ := hfiles file hmem
        rw [hfault] at hv
        cases hv

/-- Without fast exit a completed check has a verdict on every file and is
their tally. -/
theorem runCheck_full (hfast : checker.option.enabledFastlyExit = false)
    {r : MultiFilesResult ρ} (h : runCheck host checker context {} = .ok r) :
    ∃ vs, vs.map Prod.fst = context.changedFiles ∧ Judged host checker context vs ∧
      r = concluded (tally checker vs) := by
  obtain ⟨vs, hout⟩ := (runCheck_outcome host checker context).of_ok h
  cases hout with
  | full hfiles hjudged _ => exact ⟨vs, hfiles, hjudged, rfl⟩
  | early _ _ _ hen =>
      rw [hfast] at hen
      cases hen

/-! ## Permuted files -/

/-- Verdicts follow their files. -/
theorem Judged.perm {vs vs' : List (String × Verdict ρ)} (hj : Judged host checker context vs)
    (hj' : Judged host checker context vs')
    (hperm : (vs.map Prod.fst).Perm (vs'.map Prod.fst)) : vs.Perm vs' := by
  -- the verdict as a function of the file
  let verdictOf : String → String × Verdict ρ := fun file =>
    match verdict host checker context file with
    | .ok v => (file, v)
    | .error _ => (file, .deleted)
  have hback : ∀ ws : List (String × Verdict ρ), Judged host checker context ws →
      (ws.map Prod.fst).map verdictOf = ws := by
    intro ws hws
    rw [List.map_map]
    refine (List.map_congr_left (fun p hp => ?_)).trans (List.map_id ws)
    show verdictOf p.1 = p
    simp only [verdictOf, hws p hp]
  rw [← hback vs hj, ← hback vs' hj']
  exact hperm.map verdictOf

theorem lookup_kept_perm {sel : Verdict ρ → Option ρ} {vs vs' : List (String × Verdict ρ)}
    (hj : Judged host checker context vs) (hj' : Judged host checker context vs')
    (hperm : vs.Perm vs') (file : String) :
    (kept sel vs).lookup file = (kept sel vs').lookup file := by
  refine Option.ext (fun r => ?_)
  rw [hj.lookup_kept, hj'.lookup_kept]
  simp only [hperm.mem_iff]

/-- Two results hold the same: equal verdicts and maps, and lists that are
permutations of each other. -/
structure SameResults (r r' : MultiFilesResult ρ) : Prop where
  finalPassed : r.finalPassed = r'.finalPassed
  passes : ∀ file, r.passes.lookup file = r'.passes.lookup file
  fails : ∀ file, r.fails.lookup file = r'.fails.lookup file
  ignored : r.ignored.Perm r'.ignored
  failedCommands : r.failedCommands.Perm r'.failedCommands

/-- Permuted verdicts have the same tally. -/
theorem sameResults_of_perm {vs vs' : List (String × Verdict ρ)}
    (hj : Judged host checker context vs) (hj' : Judged host checker context vs')
    (hperm : vs.Perm vs') :
    SameResults (concluded (tally checker vs)) (concluded (tally checker vs')) := by
  have hnone : NoneFailed vs ↔ NoneFailed vs' := by
    unfold NoneFailed
    simp only [hperm.mem_iff]
  refine ⟨?_, ?_, ?_, ?_, ?_⟩
  · rw [Bool.eq_iff_iff]
    exact hj.fails_isEmpty_iff.trans (hnone.trans hj'.fails_isEmpty_iff.symm)
  · simp only [concluded, tally_eq]
    exact lookup_kept_perm hj hj' hperm
  · simp only [concluded, tally_eq]
    exact lookup_kept_perm hj hj' hperm
  · simp only [concluded, tally_eq]
    exact hperm.filterMap _
  · simp only [concluded, tally_eq]
    exact hperm.filterMap _

end CppLint.Tool
