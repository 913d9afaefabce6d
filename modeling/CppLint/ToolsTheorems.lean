/-
CppLint.ToolsTheorems — the exit status, and the order of the changed files.

`exitStatus_eq_zero_iff` is the quality gate: whatever the tools, their
filters and their fast-exit flags, the exit status of a completed run is 0
exactly when every file that had to be checked passes for every tool. It is
assembled from what a completed check says about one tool
(`ToolBase.isPassed_iff`) and from what `run_tools` does with the list
(`runTools_eq_ok_iff`).

`check_orderIndependent` compares two checks of permuted files. The order of
`changed_files` comes from an unordered map, so a verdict that depended on
it would not be reproducible.
-/
import CppLint.ClangFormat.ImplTheorems
import CppLint.ContextTheorems
import CppLint.Tool.TruncationTheorems
import CppLint.Tools

namespace CppLint

open CppLint.Lib CppLint.Git CppLint.Tool

/-! ## One tool -/

namespace ToolBase

/-- The options shared by both kinds of tools. -/
def optionBase : ToolBase → OptionBase
  | .clangTidy tool => tool.option.toOptionBase
  | .clangFormat tool => tool.option

/-- The tool has not been used yet. -/
def Fresh : ToolBase → Prop
  | .clangTidy tool => tool.result = {}
  | .clangFormat tool => tool.result = {}

/-- The tool has to check the file: it is neither deleted nor rejected by
the tool's filter. -/
def Wants (host : Host) (context : RuntimeContext) (file : String) (tool : ToolBase) : Prop :=
  (∃ delta, context.deltas.lookup file = some delta ∧ delta.status ≠ .deleted) ∧
    filterFile host tool.optionBase.fileFilterIregex file = .ok false

/-- The file passes: the tool exits with 0, and clang-format prints no
`<replacement>` element. -/
def SingleFilePasses (host : Host) (context : RuntimeContext) (file : String) : ToolBase → Prop
  | .clangTidy tool => ∃ res, host.execute tool.option.binary
      (ClangTidy.executeOpts tool.option file) context.repoPath = .ok res ∧ res.exitCode = 0
  | .clangFormat tool => ∃ res, host.execute tool.option.binary
      (ClangFormat.makeReplacementsOptions file) context.repoPath = .ok res ∧
        res.exitCode = 0 ∧ ClangFormat.NoReplacement host res.stdOut

end ToolBase

/-- A completed check of a file passes exactly when clang-tidy exits with
0. -/
theorem ClangTidy.passed_iff {host : Host} {option : ClangTidy.Options} {context : RuntimeContext}
    {rootDir file : String} {r : ClangTidy.PerFileResult}
    (h : ClangTidy.checkSingleFile host option context rootDir file = .ok r) :
    r.passed = true ↔ ∃ res, host.execute option.binary (ClangTidy.executeOpts option file) rootDir
      = .ok res ∧ res.exitCode = 0 := by
  obtain ⟨⟨res, failedCommand⟩, hexec, h⟩ := bind_eq_ok.mp h
  obtain ⟨res', hres, hpure⟩ := bind_eq_ok.mp hexec
  cases hpure
  cases h
  simp [external_eq_ok.mp hres]

theorem ClangTidy.decides (host : Host) (context : RuntimeContext)
    (tool : ClangTidy.ClangTidyGeneral) :
    Decides (ClangTidy.checker host tool.option) context
      (fun file => (ToolBase.clangTidy tool).SingleFilePasses host context file) := by
  intro file r hr
  exact ClangTidy.passed_iff (show ClangTidy.checkSingleFile host tool.option context
    context.repoPath file = .ok r from hr)

theorem ClangFormat.decides (host : Host) (context : RuntimeContext)
    (tool : ClangFormat.ClangFormatGeneral) :
    Decides (ClangFormat.checker host tool.option) context
      (fun file => (ToolBase.clangFormat tool).SingleFilePasses host context file) := by
  intro file r hr
  exact ClangFormat.passed_iff (show ClangFormat.checkSingleFile host tool.option context
    context.repoPath file = .ok r from hr)

/-- The verdict a completed check of a fresh tool reports. -/
theorem ToolBase.isPassed_iff {host : Host} {context : RuntimeContext} {tool tool' : ToolBase}
    (hfresh : tool.Fresh) (h : tool.check host context = .ok tool') :
    tool'.getReporter.getBriefResult.isPassed = true ↔
      ∀ file ∈ context.changedFiles, tool.Wants host context file →
        tool.SingleFilePasses host context file := by
  cases tool with
  | clangTidy tool =>
      obtain ⟨_, hcheck, rfl⟩ := map_eq_ok.mp h
      obtain ⟨result, hrun, hpure⟩ := bind_eq_ok.mp hcheck
      cases hpure
      rw [show tool.result = {} from hfresh] at hrun
      exact finalPassed_iff (ClangTidy.decides host context tool) hrun
  | clangFormat tool =>
      obtain ⟨_, hcheck, rfl⟩ := map_eq_ok.mp h
      obtain ⟨result, hrun, hpure⟩ := bind_eq_ok.mp hcheck
      cases hpure
      rw [show tool.result = {} from hfresh] at hrun
      exact finalPassed_iff (ClangFormat.decides host context tool) hrun

/-! ## All tools -/

/-- `run_tools` returns the reporters of the tools' checks, in order. -/
theorem runTools_eq_ok_iff {tools : List (Host × ToolBase)} {context : RuntimeContext}
    {reporters : List ReporterBase} :
    runTools tools context = .ok reporters ↔
      List.Forall₂ (fun entry reporter => ∃ tool, entry.2.check entry.1 context = .ok tool ∧
        tool.getReporter = reporter) tools reporters := by
  have hstep : ∀ (acc : List ReporterBase) (entry : Host × ToolBase),
      (do let tool ← entry.2.check entry.1 context
          return acc ++ [tool.getReporter]) =
        ((entry.2.check entry.1 context).map ToolBase.getReporter).map (fun r => acc ++ [r]) := by
    intro acc entry
    cases entry.2.check entry.1 context <;> rfl
  rw [runTools, foldlM_concat hstep, map_eq_ok]
  simp only [mapM_eq_ok_iff, map_eq_ok, List.nil_append, exists_eq_right]

theorem allPassed_iff (reporters : List ReporterBase) :
    allPassed reporters = true ↔ ∀ r ∈ reporters, r.getBriefResult.isPassed = true := by
  simp [allPassed]

theorem exitStatus_eq_zero (reporters : List ReporterBase) :
    exitStatus reporters = 0 ↔ allPassed reporters = true := by
  unfold exitStatus
  cases allPassed reporters <;> simp

/-- **The quality gate.** After a completed run of fresh tools the exit
status is 0 exactly when, for every tool, every changed file that is neither
deleted nor rejected by the tool's filter passes. -/
theorem exitStatus_eq_zero_iff {tools : List (Host × ToolBase)} {context : RuntimeContext}
    {reporters : List ReporterBase} (hfresh : ∀ entry ∈ tools, entry.2.Fresh)
    (hrun : runTools tools context = .ok reporters) :
    exitStatus reporters = 0 ↔
      ∀ entry ∈ tools, ∀ file ∈ context.changedFiles, entry.2.Wants entry.1 context file →
        entry.2.SingleFilePasses entry.1 context file := by
  rw [exitStatus_eq_zero, allPassed_iff]
  have hall := runTools_eq_ok_iff.mp hrun
  clear hrun
  induction hall with
  | nil => simp
  | @cons entry reporter tools reporters hentry _ ih =>
      obtain ⟨tool', hcheck, rfl⟩ := hentry
      rw [List.forall_mem_cons, List.forall_mem_cons]
      exact and_congr (ToolBase.isPassed_iff (hfresh entry List.mem_cons_self) hcheck)
        (ih (fun e he => hfresh e (List.mem_cons_of_mem _ he)))

/-- A machine on which every tool prints an empty replacements document and
exits with `exitCode`. -/
def quietHost (exitCode : Int) : Host where
  execute := fun _ _ _ => .ok { exitCode := exitCode, stdOut := "", stdErr := "" }
  regexMatch := fun _ _ => .ok true
  readFile := fun _ => some ""
  parseXml := fun _ => .ok [.element "replacements" [] none []]

/-- Both tools, the first failing and exiting at once. -/
def bothTools : List (Host × ToolBase) :=
  [(quietHost 1, .clangTidy ⟨{ binary := "clang-tidy", enabledFastlyExit := true }, {}⟩),
   (quietHost 0, .clangFormat ⟨{ binary := "clang-format" }, {}⟩)]

/-- The context of a diff that modifies one file. -/
def oneFileContext : RuntimeContext := filledContext [⟨⟨.modified, "a.cpp"⟩, []⟩]

theorem exitStatus_eq_zero_iff_bothTools :
    ∃ reporters, runTools bothTools oneFileContext = .ok reporters ∧
      (exitStatus reporters = 0 ↔
        ∀ entry ∈ bothTools, ∀ file ∈ oneFileContext.changedFiles,
          entry.2.Wants entry.1 oneFileContext file →
            entry.2.SingleFilePasses entry.1 oneFileContext file) := by
  refine ⟨_, rfl, exitStatus_eq_zero_iff ?_ rfl⟩
  intro entry hentry
  rcases List.mem_cons.mp hentry with rfl | hentry
  · rfl
  · rw [List.mem_singleton.mp hentry]
    rfl

/-! ## The order of the files -/

/-- What a check returns does not depend on the order of the files. `run`
takes the fast-exit flag and the files. -/
structure OrderIndependent {ρ : Type}
    (run : Bool → List String → Except Fault (MultiFilesResult ρ)) : Prop where
  /-- Completed runs agree on the verdict, with fast exit or without. -/
  finalPassed : ∀ {files files' fast fast' r r'}, files.Perm files' →
    run fast files = .ok r → run fast' files' = .ok r' → r.finalPassed = r'.finalPassed
  /-- Without fast exit the runs complete together, with the same results. -/
  results : ∀ {files files' r}, files.Perm files' → run false files = .ok r →
    ∃ r', run false files' = .ok r' ∧ SameResults r r'
  /-- With fast exit a run completes in every order if it does without. -/
  completes : ∀ {files files' r}, files.Perm files' → run false files = .ok r →
    ∃ r', run true files' = .ok r'

/-- The context with another list of changed files. -/
def RuntimeContext.withFiles (context : RuntimeContext) (files : List String) : RuntimeContext :=
  { context with changedFiles := files }

/-- The check of a single file looks at the file, not at the list. -/
def FileAlone {ρ : Type} (checker : Checker ρ) (context : RuntimeContext) : Prop :=
  ∀ files rootDir file, checker.checkSingleFile (context.withFiles files) rootDir file =
    checker.checkSingleFile context rootDir file

section OrderOfFiles

variable {ρ : Type} {host : Host} {checker : Checker ρ} {context : RuntimeContext}

/-- The verdict on a file depends on neither the list nor the fast exit. -/
theorem FileAlone.verdict_eq (halone : FileAlone checker context) (fast : Bool)
    (files : List String) (file : String) :
    verdict host (checker.withFastExit fast) (context.withFiles files) file =
      verdict host checker context file := by
  unfold verdict
  rw [show (checker.withFastExit fast).checkSingleFile (context.withFiles files)
    (context.withFiles files).repoPath file = checker.checkSingleFile context context.repoPath file
      from halone files context.repoPath file]
  rfl

/-- If no file throws in one order, none does in another. -/
theorem FileAlone.completes (halone : FileAlone checker context) (fast : Bool)
    {files files' : List String} {r : MultiFilesResult ρ} (hperm : files.Perm files')
    (hrun : runCheck host (checker.withFastExit false) (context.withFiles files) {} = .ok r) :
    ∃ r', runCheck host (checker.withFastExit fast) (context.withFiles files') {} = .ok r' := by
  obtain ⟨hbinary, hpath⟩ := asserts_of_runCheck hrun
  obtain ⟨vs, hfiles, hjudged, _⟩ := runCheck_full rfl hrun
  refine runCheck_completes hbinary hpath (fun file hfile => ?_)
  have hmem : file ∈ vs.map Prod.fst := by
    rw [hfiles]
    exact hperm.mem_iff.mpr hfile
  obtain ⟨p, hp, rfl⟩ := List.mem_map.mp hmem
  have hv := hjudged p hp
  rw [halone.verdict_eq] at hv
  exact ⟨p.2, (halone.verdict_eq fast files' p.1).trans hv⟩

end OrderOfFiles

/-- The loop shared by the tools does not depend on the order of the files. -/
theorem runCheck_orderIndependent {ρ : Type} (host : Host) (checker : Checker ρ)
    {context : RuntimeContext} (halone : FileAlone checker context) :
    OrderIndependent (fun fast files =>
      runCheck host (checker.withFastExit fast) (context.withFiles files) {}) := by
  have hdecides : ∀ fast files, Decides (checker.withFastExit fast) (context.withFiles files)
      (Passes checker context) := by
    intro fast files file r hr
    exact decides_passes file r ((halone files context.repoPath file).symm.trans hr)
  refine ⟨?_, ?_, ?_⟩
  · intro files files' fast fast' r r' hperm hrun hrun'
    rw [Bool.eq_iff_iff, finalPassed_iff (hdecides fast files) hrun,
      finalPassed_iff (hdecides fast' files') hrun']
    constructor
    · intro hall file hfile
      exact hall file (hperm.mem_iff.mpr hfile)
    · intro hall file hfile
      exact hall file (hperm.mem_iff.mp hfile)
  · intro files files' r hperm hrun
    obtain ⟨r', hrun'⟩ := halone.completes false hperm hrun
    obtain ⟨vs, hfiles, hjudged, rfl⟩ := runCheck_full rfl hrun
    obtain ⟨vs', hfiles', hjudged', rfl⟩ := runCheck_full rfl hrun'
    have hjudged'' : Judged host (checker.withFastExit false) (context.withFiles files) vs' := by
      intro p hp
      rw [halone.verdict_eq, ← halone.verdict_eq false files']
      exact hjudged' p hp
    have hvs : (vs.map Prod.fst).Perm (vs'.map Prod.fst) := by
      rw [hfiles, hfiles']
      exact hperm
    exact ⟨_, hrun', sameResults_of_perm hjudged hjudged'' (hjudged.perm hjudged'' hvs)⟩
  · intro files files' r hperm hrun
    exact halone.completes true hperm hrun

/-- Taking the result out of a tool that has run. -/
theorem ClangTidy.check_result (host : Host) (option : ClangTidy.Options)
    (context : RuntimeContext) :
    (ClangTidy.check host ⟨option, {}⟩ context).map ClangTidy.ClangTidyGeneral.result =
      runCheck host (ClangTidy.checker host option) context {} := by
  unfold ClangTidy.check
  cases runCheck host (ClangTidy.checker host option) context {} <;> rfl

theorem ClangFormat.check_result (host : Host) (option : ClangFormat.Options)
    (context : RuntimeContext) :
    (ClangFormat.check host ⟨option, {}⟩ context).map ClangFormat.ClangFormatGeneral.result =
      runCheck host (ClangFormat.checker host option) context {} := by
  unfold ClangFormat.check
  cases runCheck host (ClangFormat.checker host option) context {} <;> rfl

/-- **The order of the changed files does not matter**, to either tool. -/
theorem check_orderIndependent (host : Host) (context : RuntimeContext)
    (tidy : ClangTidy.Options) (format : ClangFormat.Options) :
    OrderIndependent (fun fast files =>
        (ClangTidy.check host
          ⟨{ tidy with enabledFastlyExit := fast }, {}⟩ (context.withFiles files)).map
            ClangTidy.ClangTidyGeneral.result) ∧
      OrderIndependent (fun fast files =>
        (ClangFormat.check host
          ⟨{ format with enabledFastlyExit := fast }, {}⟩ (context.withFiles files)).map
            ClangFormat.ClangFormatGeneral.result) := by
  constructor
  · simp only [ClangTidy.check_result]
    exact runCheck_orderIndependent host (ClangTidy.checker host tidy) (fun _ _ _ => rfl)
  · simp only [ClangFormat.check_result]
    exact runCheck_orderIndependent host (ClangFormat.checker host format) (fun _ _ _ => rfl)

end CppLint
