/-
CppLint.ConsistencyTheorems — the reports of one run agree with each other.

The result of a check is reported in several places: the exit status, the
number of failed files in the action's output, the row of the table in the
comment, the list of failed files, the commands that reproduce them, and the
line of the step summary. Each is computed from another member of the
result. `main_reports_agree` says that they never contradict each other, and
that the three numbers of a row add up to the files that were not deleted.

The numbers are counted along the verdicts of the check (`counts_tally`):
on distinct files the maps have as many entries as there are verdicts of
their kind (`size_kept`).
-/
import CppLint.DeterminismTheorems
import CppLint.Tool.PartitionTheorems

namespace CppLint

open CppLint.Lib CppLint.Git CppLint.Tool CppLint.Github CppLint.ProgramOptions

/-! ## Counting verdicts -/

section Counts

variable {ρ : Type} {host : Host} {checker : Checker ρ} {context : RuntimeContext}

/-- What is kept was kept for one of the files. -/
theorem mem_of_mem_kept {sel : Verdict ρ → Option ρ} {vs : List (String × Verdict ρ)}
    {file : String} (h : file ∈ kept sel vs) : file ∈ vs.map Prod.fst := by
  induction vs using List.reverseRecOn with
  | nil => exact absurd h (AList.notMem_empty file)
  | append_singleton vs p ih =>
      obtain ⟨file', v⟩ := p
      rw [kept_concat] at h
      rw [List.map_append, List.mem_append]
      cases hsel : sel v with
      | none =>
          rw [hsel] at h
          exact .inl (ih h)
      | some r =>
          rw [hsel] at h
          rcases (AList.mem_insert _).mp h with rfl | h
          · exact .inr (by simp)
          · exact .inl (ih h)

/-- The entries kept are as many as the verdicts they are kept for. -/
theorem size_kept (sel : Verdict ρ → Option ρ) {vs : List (String × Verdict ρ)}
    (hnodup : (vs.map Prod.fst).Nodup) :
    (kept sel vs).size = vs.countP (fun p => (sel p.2).isSome) := by
  induction vs using List.reverseRecOn with
  | nil => rfl
  | append_singleton vs p ih =>
      obtain ⟨file, v⟩ := p
      rw [List.map_append, List.nodup_append] at hnodup
      obtain ⟨hvs, -, hfile⟩ := hnodup
      rw [kept_concat, List.countP_append, ← ih hvs]
      cases hsel : sel v with
      | none => simp [hsel]
      | some r =>
          have hnew : file ∉ kept sel vs := fun hmem =>
            hfile file (mem_of_mem_kept hmem) file (by simp) rfl
          rw [UMap.size_insert_of_not_mem hnew]
          simp [hsel]

/-- The file has a delta, and is not deleted. -/
def keepsFile (context : RuntimeContext) (file : String) : Bool :=
  match context.deltas.lookup file with
  | some delta => delta.status ≠ .deleted
  | none => false

theorem keepsFile_iff {file : String} :
    keepsFile context file = true ↔ NotDeleted context file := by
  unfold keepsFile NotDeleted
  cases context.deltas.lookup file <;> simp

/-- A file that is not deleted is on one of the three sides. -/
theorem sides_verdict {file : String} {v : Verdict ρ}
    (h : verdict host checker context file = .ok v) :
    (if v.pass?.isSome then 1 else 0) + (if v.failure?.isSome then 1 else 0)
        + (if (ignoredFile (file, v)).isSome then 1 else 0)
      = if keepsFile context file then 1 else 0 := by
  have hverdict := verdict_spec h
  cases v with
  | deleted =>
      have hkeeps : ¬ keepsFile context file = true := fun hk => hverdict (keepsFile_iff.mp hk)
      rw [if_neg hkeeps]
      rfl
  | ignored =>
      rw [if_pos (keepsFile_iff.mpr hverdict.1)]
      rfl
  | passed r =>
      rw [if_pos (keepsFile_iff.mpr hverdict.1)]
      rfl
  | failed r =>
      rw [if_pos (keepsFile_iff.mpr hverdict.1)]
      rfl

/-- The three sides hold all files that are not deleted. -/
theorem counts_tally {vs : List (String × Verdict ρ)} (hj : Judged host checker context vs)
    (hnodup : (vs.map Prod.fst).Nodup) :
    (kept Verdict.pass? vs).size + (kept Verdict.failure? vs).size
        + (vs.filterMap ignoredFile).length = (vs.map Prod.fst).countP (keepsFile context) := by
  rw [size_kept _ hnodup, size_kept _ hnodup, List.length_filterMap_eq_countP, List.countP_map]
  clear hnodup
  induction vs with
  | nil => rfl
  | cons p vs ih =>
      obtain ⟨file, v⟩ := p
      have hv : verdict host checker context file = .ok v := hj _ List.mem_cons_self
      have hside := sides_verdict hv
      have hrest := ih (fun q hq => hj q (List.mem_cons_of_mem _ hq))
      simp only [List.countP_cons, Function.comp_apply] at hrest ⊢
      omega

/-- The numbers of a result, for the files of a context. -/
structure AddsUp (context : RuntimeContext) (r : MultiFilesResult ρ) : Prop where
  finalPassed : r.finalPassed = true ↔ r.fails.size = 0
  commands : r.failedCommands.length = r.fails.size
  atMost : r.passes.size + r.fails.size + r.ignored.length ≤
    context.changedFiles.countP (keepsFile context)
  full : r.fastlyExited = false → r.passes.size + r.fails.size + r.ignored.length =
    context.changedFiles.countP (keepsFile context)

/-- **The numbers of a completed check** on distinct files. -/
theorem runCheck_addsUp (hnodup : context.changedFiles.Nodup) {r : MultiFilesResult ρ}
    (h : runCheck host checker context {} = .ok r) : AddsUp context r := by
  obtain ⟨vs, hout⟩ := (runCheck_outcome host checker context).of_ok h
  obtain ⟨hj, hsub, hall, hignored, hpasses, hfails, hcommands⟩ := outcome_fields hout
  have hcounts := counts_tally hj (hsub.nodup hnodup)
  constructor
  · rw [UMap.size_eq_zero_iff]
    cases hout with
    | full _ _ _ => exact Iff.rfl
    | early _ hjudged _ _ =>
        have hnone := hjudged.fails_isEmpty_iff
        constructor
        · intro hfalse
          cases hfalse
        · intro hempty
          have hlast := hnone.mp hempty (_, .failed _) (List.mem_append_right _ List.mem_cons_self)
          cases hlast
  · rw [hcommands, hfails, size_kept _ (hsub.nodup hnodup), List.length_filterMap_eq_countP]
    refine List.countP_congr (fun p _ => ?_)
    simp [failedCommand]
  · rw [hignored, hpasses, hfails, hcounts]
    exact hsub.countP_le
  · intro hfull
    rw [hignored, hpasses, hfails, hcounts, hall hfull]

end Counts

/-! ## The reports about one tool -/

namespace ReporterBase

/-- The check has stopped at its first failing file. -/
def fastlyExited : ReporterBase → Bool
  | .clangTidy r => r.result.fastlyExited
  | .clangFormat r => r.result.fastlyExited

/-- The name the number of failed files has in the action's output. -/
def outputName : ReporterBase → String
  | .clangTidy _ => "clang_tidy_failed_number"
  | .clangFormat _ => "clang_format_failed_number"

/-- What is reported about one tool fits together: the verdict, the output of
the action, the row of the table, the failed files and the commands. -/
structure Consistent (context : RuntimeContext) (ord : Enumeration String)
    (reporter : ReporterBase) : Prop where
  isPassed : reporter.getBriefResult.isPassed = true ↔ reporter.getBriefResult.failed = 0
  actionOutput : reporter.actionOutput =
    reporter.outputName ++ "=" ++ toString reporter.getBriefResult.failed ++ "\n"
  commands : reporter.getFailedCommands.length = reporter.getBriefResult.failed
  issueParts : (reporter.issueParts ord).length = reporter.getBriefResult.failed
  atMost : reporter.getBriefResult.successed + reporter.getBriefResult.failed
      + reporter.getBriefResult.ignored ≤ context.changedFiles.countP (keepsFile context)
  full : reporter.fastlyExited = false →
    reporter.getBriefResult.successed + reporter.getBriefResult.failed
      + reporter.getBriefResult.ignored = context.changedFiles.countP (keepsFile context)

end ReporterBase

section Tools

variable {context : RuntimeContext}

/-- A completed check of a fresh tool is reported consistently. -/
theorem ToolBase.check_consistent {host : Host} {tool tool' : ToolBase} (ord : Enumeration String)
    (hnodup : context.changedFiles.Nodup) (hfresh : tool.Fresh)
    (h : tool.check host context = .ok tool') : tool'.getReporter.Consistent context ord := by
  cases tool with
  | clangTidy tool =>
      obtain ⟨result, hrun, rfl⟩ := (ClangTidy.check_eq_ok_iff hfresh).mp h
      have hcounts := runCheck_addsUp hnodup hrun
      exact ⟨hcounts.finalPassed, rfl, hcounts.commands,
        (List.length_map _).trans (ord.length_toList _), hcounts.atMost, hcounts.full⟩
  | clangFormat tool =>
      obtain ⟨result, hrun, rfl⟩ := (ClangFormat.check_eq_ok_iff hfresh).mp h
      have hcounts := runCheck_addsUp hnodup hrun
      exact ⟨hcounts.finalPassed, rfl, hcounts.commands,
        (List.length_map _).trans (ord.length_toList _), hcounts.atMost, hcounts.full⟩

theorem runTools_consistent {tools : List (Host × ToolBase)} {reporters : List ReporterBase}
    (ord : Enumeration String) (hnodup : context.changedFiles.Nodup)
    (hfresh : ∀ entry ∈ tools, entry.2.Fresh) (h : runTools tools context = .ok reporters) :
    ∀ r ∈ reporters, r.Consistent context ord := by
  rw [runTools_eq_ok_iff] at h
  induction h with
  | nil => simp
  | @cons entry reporter tools reporters hentry _ ih =>
      obtain ⟨tool', hcheck, rfl⟩ := hentry
      refine List.forall_mem_cons.mpr ⟨?_, ih (fun e he => hfresh e (List.mem_cons_of_mem _ he))⟩
      exact ToolBase.check_consistent ord hnodup (hfresh entry List.mem_cons_self) hcheck

end Tools

/-! ## The reports of a run -/

/-- The step summary of a run in which everything passed. -/
def passedSummary : String :=
  "# The cpp-lint-action Result:rocket: All checks on all file passed."

theorem stepSummary_eq_iff (ord : Enumeration String) (reporters : List ReporterBase) :
    stepSummary ord reporters = passedSummary ↔ allPassed reporters = true := by
  unfold stepSummary
  cases hpassed : allPassed reporters with
  | true => simp [passedSummary]
  | false =>
      -- the two texts part after the colon that follows the title
      constructor
      · intro h
        rw [if_neg Bool.false_ne_true] at h
        have hlist := congrArg (fun text => text.toList[29]?) h
        simp only [String.toList_append] at hlist
        rw [List.getElem?_append_left (by decide)] at hlist
        revert hlist
        decide
      · intro h
        cases h

/-- **The reports agree.** In every run that gets to its reports, whatever
is reported about a tool fits together, and the exit status is 0 exactly
when the action's outputs are all zero, when the summary says that
everything passed, and when there is no command to reproduce. -/
theorem main_reports_agree {σ : Type} {runner : Runner σ} {args : List String}
    {context : RuntimeContext} {reporters : List ReporterBase}
    (h : prepare runner args = .ok (.reporting context reporters)) :
    (∀ r ∈ reporters, r.Consistent context runner.ord) ∧
      (exitStatus reporters = 0 ↔ ∀ r ∈ reporters, r.getBriefResult.failed = 0) ∧
      (exitStatus reporters = 0 ↔ stepSummary runner.ord reporters = passedSummary) ∧
      (exitStatus reporters = 0 ↔ ∀ r ∈ reporters, r.getFailedCommands = []) := by
  obtain ⟨tools, start, hstarted, hcontext, -, hreporters⟩ := prepare_reporting_iff.mp h
  obtain ⟨diff, -, hfilled⟩ := fillGitInfo_eq_ok hcontext
  have hall := runTools_consistent runner.ord hfilled.nodup_changedFiles hstarted.fresh hreporters
  refine ⟨hall, ?_, ?_, ?_⟩
  · rw [exitStatus_eq_zero, allPassed_iff]
    exact forall₂_congr (fun r hr => (hall r hr).isPassed)
  · rw [exitStatus_eq_zero, stepSummary_eq_iff]
  · rw [exitStatus_eq_zero, allPassed_iff]
    refine forall₂_congr (fun r hr => (hall r hr).isPassed.trans ?_)
    rw [← (hall r hr).commands, List.length_eq_zero_iff]

theorem main_reports_agree_stored :
    ∃ context reporters,
      prepare storedRunner formatOnly = .ok (.reporting context reporters) ∧
        (∀ r ∈ reporters, r.Consistent context storedRunner.ord) ∧
        (exitStatus reporters = 0 ↔ ∀ r ∈ reporters, r.getBriefResult.failed = 0) ∧
        (exitStatus reporters = 0 ↔ stepSummary storedRunner.ord reporters = passedSummary) ∧
        (exitStatus reporters = 0 ↔ ∀ r ∈ reporters, r.getFailedCommands = []) := by
  obtain ⟨context, reporters, hprepare⟩ := exists_prepare_storedRunner
  exact ⟨context, reporters, hprepare, main_reports_agree hprepare⟩

end CppLint
