/-
CppLint.Tool.CheckTheorems — what a run of `check` leaves behind.

The loop of `check` does two things at once: it decides about each file and
it keeps five accumulators. Here they are taken apart. `verdict` is the
decision alone, `record` the bookkeeping for one decision, and `tally` the
bookkeeping for a list of decisions; `checkFile_eq` says that the loop body
of the source is these two in sequence.

`runCheck_outcome` is the one place where the loop is opened. A completed
run on a fresh tool has judged either every file, and its result is the
tally with the final verdict set from `fails`, or, with fast exit, the files
up to and including the first one that fails. Everything else in this module
is read off that: what the accumulators hold (`tally_eq`,
`Judged.lookup_kept`), and, in the next one, when the final verdict is
positive and what the order of the files changes.
-/
import Mathlib.Data.List.Induction
import CppLint.Tool.Base

namespace CppLint.Tool

open CppLint.Lib CppLint.Git

variable {ρ : Type} (host : Host) (checker : Checker ρ) (context : RuntimeContext)

/-! ## Decisions and bookkeeping -/

/-- What a check decides about one file. -/
inductive Verdict (ρ : Type) where
  | deleted
  | ignored
  | passed (r : ρ)
  | failed (r : ρ)

/-- The verdict on one file. -/
def verdict (file : String) : Except Fault (Verdict ρ) := do
  let delta ← mapAt context.deltas file
  if delta.status = .deleted then
    return .deleted
  else
    let filtered ← filterFile host checker.option.fileFilterIregex file
    if filtered then
      return .ignored
    else
      let r ← checker.checkSingleFile context context.repoPath file
      if (checker.base r).passed then return .passed r else return .failed r

/-- The bookkeeping for one verdict. -/
def record (result : MultiFilesResult ρ) (file : String) : Verdict ρ → MultiFilesResult ρ
  | .deleted => result
  | .ignored => { result with ignored := result.ignored ++ [file] }
  | .passed r => { result with passes := AList.insert file r result.passes }
  | .failed r => { result with
      failedCommands := result.failedCommands
        ++ [checker.commandName ++ " " ++ (checker.base r).fileOption]
      fails := AList.insert file r result.fails }

/-- The verdict is a failure. -/
def Verdict.isFailed : Verdict ρ → Bool
  | .failed _ => true
  | _ => false

/-- The result a fast exit returns. -/
def fastExit (result : MultiFilesResult ρ) : MultiFilesResult ρ :=
  { result with finalPassed := false, fastlyExited := true }

/-- The result after the loop. -/
def concluded (result : MultiFilesResult ρ) : MultiFilesResult ρ :=
  { result with finalPassed := result.fails.isEmpty }

/-- The loop body is the verdict followed by its bookkeeping; with fast exit
a failure also leaves the loop. -/
theorem checkFile_eq (file : String) (result : MultiFilesResult ρ) :
    checkFile host checker context file result =
      (verdict host checker context file).map (fun v =>
        if v.isFailed && checker.option.enabledFastlyExit then
          .ret (fastExit (record checker result file v))
        else .next (record checker result file v)) := by
  unfold checkFile verdict
  cases hd : mapAt context.deltas file with
  | error e => rfl
  | ok delta =>
      by_cases hdel : delta.status = .deleted
      · simp [bind, Except.bind, hdel, Except.map, pure, Except.pure, Verdict.isFailed, record]
      · cases hf : filterFile host checker.option.fileFilterIregex file with
        | error e => simp [bind, Except.bind, hdel, Except.map]
        | ok filtered =>
            cases filtered with
            | true =>
                simp [bind, Except.bind, hdel, Except.map, pure, Except.pure, Verdict.isFailed,
                  record]
            | false =>
                cases hs : checker.checkSingleFile context context.repoPath file with
                | error e => simp [bind, Except.bind, hdel, Except.map]
                | ok r =>
                    cases hp : (checker.base r).passed <;>
                      cases hfast : checker.option.enabledFastlyExit <;>
                        simp [bind, Except.bind, hdel, Except.map, pure, Except.pure, hp,
                          Verdict.isFailed, record, fastExit]

/-- The bookkeeping for a list of verdicts, starting from a fresh tool. -/
def tally (vs : List (String × Verdict ρ)) : MultiFilesResult ρ :=
  vs.foldl (fun result p => record checker result p.1 p.2) {}

theorem tally_concat (vs : List (String × Verdict ρ)) (file : String) (v : Verdict ρ) :
    tally checker (vs ++ [(file, v)]) = record checker (tally checker vs) file v := by
  simp [tally]

/-! ## A run of the loop -/

/-- Each of these files really has this verdict. -/
def Judged (vs : List (String × Verdict ρ)) : Prop :=
  ∀ p ∈ vs, verdict host checker context p.1 = .ok p.2

/-- None of the verdicts is a failure. -/
def NoneFailed (vs : List (String × Verdict ρ)) : Prop := ∀ p ∈ vs, p.2.isFailed = false

/-- How a completed check ends: over all files, or at the first failing one
when fast exit is enabled. -/
inductive CheckOutcome : List (String × Verdict ρ) → MultiFilesResult ρ → Prop
  | full {vs : List (String × Verdict ρ)}
      (hfiles : vs.map Prod.fst = context.changedFiles)
      (hjudged : Judged host checker context vs)
      (hfast : checker.option.enabledFastlyExit = true → NoneFailed vs) :
      CheckOutcome vs (concluded (tally checker vs))
  | early {pre : List (String × Verdict ρ)} {file : String} {r : ρ}
      (hfiles : (pre ++ [(file, Verdict.failed r)]).map Prod.fst <+: context.changedFiles)
      (hjudged : Judged host checker context (pre ++ [(file, .failed r)]))
      (hpre : NoneFailed pre)
      (hfast : checker.option.enabledFastlyExit = true) :
      CheckOutcome (pre ++ [(file, .failed r)])
        (fastExit (tally checker (pre ++ [(file, .failed r)])))

/-- A file of the list whose verdict throws `f`. -/
def ThrownByFile (f : Fault) : Prop :=
  ∃ file ∈ context.changedFiles, verdict host checker context file = .error f

/-- One of the two assertions of `check` fails with `f`. -/
def AssertFails (f : Fault) : Prop :=
  (checker.option.binary = "" ∧ f = .assertion .check "!option.binary.empty()") ∨
    (context.repoPath = "" ∧ f = .assertion .check "!context.repo_path.empty()")

/-- The loop's invariant: the state is the tally of the verdicts on the
files passed, and with fast exit none of them is a failure. -/
def LoopInv (done : List String) (s : MultiFilesResult ρ) : Prop :=
  ∃ vs : List (String × Verdict ρ), vs.map Prod.fst = done ∧ Judged host checker context vs ∧
    (checker.option.enabledFastlyExit = true → NoneFailed vs) ∧ s = tally checker vs

/-- What holds when the loop is left early: the last file passed failed and
none before it did. -/
def LoopExit (passed : List String) (r : MultiFilesResult ρ) : Prop :=
  ∃ (pre : List (String × Verdict ρ)) (file : String) (rf : ρ),
    (pre ++ [(file, Verdict.failed rf)]).map Prod.fst = passed ∧
      Judged host checker context (pre ++ [(file, .failed rf)]) ∧ NoneFailed pre ∧
      checker.option.enabledFastlyExit = true ∧
      r = fastExit (tally checker (pre ++ [(file, .failed rf)]))

theorem judged_concat {vs : List (String × Verdict ρ)} {file : String} {v : Verdict ρ}
    (hjudged : Judged host checker context vs) (hv : verdict host checker context file = .ok v) :
    Judged host checker context (vs ++ [(file, v)]) := by
  intro p hp
  rcases List.mem_append.mp hp with hp | hp
  · exact hjudged p hp
  · rw [List.mem_singleton] at hp
    subst hp; exact hv

theorem noneFailed_concat {vs : List (String × Verdict ρ)} {file : String} {v : Verdict ρ}
    (hnone : NoneFailed vs) (hv : v.isFailed = false) : NoneFailed (vs ++ [(file, v)]) := by
  intro p hp
  rcases List.mem_append.mp hp with hp | hp
  · exact hnone p hp
  · rw [List.mem_singleton] at hp
    subst hp; exact hv

/-- One pass through the loop keeps the invariant, leaves with the exit
condition, or throws what the verdict throws. -/
theorem checkFile_guarantees {done : List String} {file : String} {s : MultiFilesResult ρ}
    (hfile : file ∈ context.changedFiles) (hs : LoopInv host checker context done s) :
    Guarantees (checkFile host checker context file s)
      (Flow.Meets (LoopInv host checker context) (LoopExit host checker context) done file)
      (ThrownByFile host checker context) := by
  obtain ⟨vs, rfl, hjudged, hfast, rfl⟩ := hs
  rw [checkFile_eq]
  cases hv : verdict host checker context file with
  | error f => exact ⟨file, hfile, hv⟩
  | ok v =>
      have hjudged' := judged_concat host checker context hjudged hv
      cases hfail : v.isFailed with
      | false =>
          have hinv : LoopInv host checker context (vs.map Prod.fst ++ [file])
              (record checker (tally checker vs) file v) :=
            ⟨vs ++ [(file, v)], by simp, hjudged',
              fun hen => noneFailed_concat (hfast hen) hfail, (tally_concat _ _ _ _).symm⟩
          simpa [Except.map, hfail] using hinv
      | true =>
          cases hen : checker.option.enabledFastlyExit with
          | false =>
              have hinv : LoopInv host checker context (vs.map Prod.fst ++ [file])
                  (record checker (tally checker vs) file v) :=
                ⟨vs ++ [(file, v)], by simp, hjudged', fun h => by simp [hen] at h,
                  (tally_concat _ _ _ _).symm⟩
              simpa [Except.map, hfail, hen] using hinv
          | true =>
              have hexit : LoopExit host checker context (vs.map Prod.fst ++ [file])
                  (fastExit (record checker (tally checker vs) file v)) := by
                rw [← tally_concat]
                cases v with
                | failed rf => exact ⟨vs, file, rf, by simp, hjudged', hfast hen, hen, rfl⟩
                | deleted => cases hfail
                | ignored => cases hfail
                | passed rf => cases hfail
              simpa [Except.map, hfail, hen] using hexit

/-- **A run of `check` on a fresh tool.** It completes with one of the two
outcomes, or it ends with a failed assertion or with what the verdict of
some listed file throws. -/
theorem runCheck_outcome :
    Guarantees (runCheck host checker context {})
      (fun r => ∃ vs, CheckOutcome host checker context vs r)
      (fun f => AssertFails checker context f ∨ ThrownByFile host checker context f) := by
  unfold runCheck
  refine Guarantees.bind (assertThat_guarantees (fun h => ?_)) (fun _ _ => ?_)
  · exact .inl (.inl ⟨by simpa using h, rfl⟩)
  refine Guarantees.bind (assertThat_guarantees (fun h => ?_)) (fun _ _ => ?_)
  · exact .inl (.inr ⟨by simpa using h, rfl⟩)
  refine (forEach_guarantees (I := LoopInv host checker context)
    (Q := LoopExit host checker context) context.changedFiles
    (fun _ _ _ hfile hs => checkFile_guarantees host checker context hfile hs) {}
    ⟨[], rfl, by simp [Judged], by simp [NoneFailed], rfl⟩).mono ?_ (fun f hf => .inr hf)
  rintro r (⟨s, ⟨vs, hfiles, hjudged, hfast, rfl⟩, rfl⟩ |
    ⟨passed, hprefix, pre, file, rf, rfl, hjudged, hpre, hfast, rfl⟩)
  · exact ⟨vs, .full hfiles hjudged hfast⟩
  · exact ⟨_, .early hprefix hjudged hpre hfast⟩

/-! ## The tally, field by field -/

/-- The result of a file that passed. -/
def Verdict.pass? : Verdict ρ → Option ρ
  | .passed r => some r
  | _ => none

/-- The result of a file that failed. -/
def Verdict.failure? : Verdict ρ → Option ρ
  | .failed r => some r
  | _ => none

/-- The map from files to the results `sel` picks, filled in order. -/
def kept (sel : Verdict ρ → Option ρ) (vs : List (String × Verdict ρ)) : UMap String ρ :=
  vs.foldl (fun m p => match sel p.2 with
    | some r => AList.insert p.1 r m
    | none => m) ∅

/-- The file of an ignored verdict. -/
def ignoredFile (p : String × Verdict ρ) : Option String :=
  match p.2 with
  | .ignored => some p.1
  | _ => none

/-- The command recorded for a failed file. -/
def failedCommand (p : String × Verdict ρ) : Option String :=
  p.2.failure?.map (fun r => checker.commandName ++ " " ++ (checker.base r).fileOption)

theorem kept_concat (sel : Verdict ρ → Option ρ) (vs : List (String × Verdict ρ))
    (file : String) (v : Verdict ρ) :
    kept sel (vs ++ [(file, v)]) =
      match sel v with
      | some r => AList.insert file r (kept sel vs)
      | none => kept sel vs := by
  simp [kept]

/-- Each accumulator of the loop is a function of the verdicts alone. -/
theorem tally_eq (vs : List (String × Verdict ρ)) :
    tally checker vs = {
      ignored := vs.filterMap ignoredFile
      passes := kept Verdict.pass? vs
      fails := kept Verdict.failure? vs
      failedCommands := vs.filterMap (failedCommand checker) } := by
  induction vs using List.reverseRecOn with
  | nil => rfl
  | append_singleton vs p ih =>
      obtain ⟨file, v⟩ := p
      rw [tally_concat, ih, kept_concat, kept_concat]
      cases v <;>
        simp [record, ignoredFile, failedCommand, Verdict.pass?, Verdict.failure?]

variable {host checker context}

/-- One file has one verdict. -/
theorem Judged.unique {vs : List (String × Verdict ρ)} (hj : Judged host checker context vs)
    {file : String} {v v' : Verdict ρ} (h : (file, v) ∈ vs) (h' : (file, v') ∈ vs) : v = v' := by
  have hv := hj _ h
  rw [hj _ h'] at hv
  exact (Except.ok.inj hv).symm

/-- What a map of the tally holds are exactly the results of its kind. -/
theorem Judged.lookup_kept {sel : Verdict ρ → Option ρ} {file : String} {r : ρ} :
    ∀ {vs : List (String × Verdict ρ)}, Judged host checker context vs →
      ((kept sel vs).lookup file = some r ↔ ∃ v, (file, v) ∈ vs ∧ sel v = some r) := by
  intro vs
  induction vs using List.reverseRecOn with
  | nil => intro _; simp [kept]
  | append_singleton vs p ih =>
      intro hj
      obtain ⟨file', v'⟩ := p
      have hlast : (file', v') ∈ vs ++ [(file', v')] := by simp
      have ih := ih (fun q hq => hj q (List.mem_append_left _ hq))
      rw [kept_concat]
      by_cases hfile : file = file'
      · subst hfile
        -- the last verdict on the file is the only one it has
        have honly : ∀ v, (file, v) ∈ vs ++ [(file, v')] → v = v' :=
          fun v hv => hj.unique hv hlast
        cases hs : sel v' with
        | some r' =>
            simp only [AList.lookup_insert]
            constructor
            · intro h
              exact ⟨v', hlast, by rw [hs]; exact h⟩
            · rintro ⟨v, hv, hr⟩
              rw [honly v hv, hs] at hr
              exact hr
        | none =>
            simp only [ih]
            constructor
            · rintro ⟨v, hv, hr⟩
              exact ⟨v, List.mem_append_left _ hv, hr⟩
            · rintro ⟨v, hv, hr⟩
              rw [honly v hv, hs] at hr
              cases hr
      · have hmem : ∀ v, (file, v) ∈ vs ++ [(file', v')] ↔ (file, v) ∈ vs := by
          intro v
          simp [hfile]
        simp only [hmem]
        cases hs : sel v' with
        | some r' =>
            simp only [AList.lookup_insert_ne hfile]
            exact ih
        | none => exact ih

/-- The map of failures is empty exactly when nothing failed. -/
theorem Judged.fails_isEmpty_iff {vs : List (String × Verdict ρ)}
    (hj : Judged host checker context vs) :
    (tally checker vs).fails.isEmpty = true ↔ NoneFailed vs := by
  rw [tally_eq, UMap.isEmpty_iff_lookup]
  constructor
  · intro h p hp
    obtain ⟨file, v⟩ := p
    cases v with
    | failed r =>
        have hl := hj.lookup_kept.mpr ⟨_, hp, (rfl : Verdict.failure? _ = some r)⟩
        rw [h file] at hl
        cases hl
    | deleted => rfl
    | ignored => rfl
    | passed r => rfl
  · intro h file
    cases hl : (kept Verdict.failure? vs).lookup file with
    | none => rfl
    | some r =>
        obtain ⟨v, hv, hr⟩ := hj.lookup_kept.mp hl
        have hnone := h _ hv
        cases v with
        | failed r => cases hnone
        | deleted => cases hr
        | ignored => cases hr
        | passed r => cases hr

end CppLint.Tool
