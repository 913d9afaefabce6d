/-
CppLint.TextTheorems — what the texts of a run say.

The step summary and the comment are made from the reporters, and a
reporter speaks for one tool (`SpeaksFor`): under its name, with the numbers
of the files that pass, fail and are left out, and with a part of text for
each failure, which is what the machine printed about that file. So both
texts can be described without the reporters and without the loops they come
from: `summary_describes` and `comment_describes` name the tools of the
command line, the changed files and the answers of the machine only.
-/
import CppLint.ConsistencyTheorems
import CppLint.PipelineTheorems

namespace CppLint

open CppLint.Lib CppLint.Git CppLint.Tool CppLint.Github CppLint.ProgramOptions

/-! ## What is said about a tool -/

namespace ToolBase

/-- A failure of the file is recorded for the tool. -/
def Reports (host : Host) (context : RuntimeContext) (file : String) : ToolBase → Prop
  | .clangTidy tool => Recorded host (ClangTidy.checker host tool.option) context file
  | .clangFormat tool => Recorded host (ClangFormat.checker host tool.option) context file

/-- The file passes. -/
def Clears (host : Host) (context : RuntimeContext) (file : String) : ToolBase → Prop
  | .clangTidy tool => Cleared host (ClangTidy.checker host tool.option) context file
  | .clangFormat tool => Cleared host (ClangFormat.checker host tool.option) context file

/-- The file is left out. -/
def Skips (host : Host) (context : RuntimeContext) (file : String) : ToolBase → Prop
  | .clangTidy tool => Skipped host (ClangTidy.checker host tool.option) context file
  | .clangFormat tool => Skipped host (ClangFormat.checker host tool.option) context file

/-- What is written about a file with a failure: for clang-tidy a bullet for
each line of its output that is a header, for clang-format the name. -/
def Describes (host : Host) (context : RuntimeContext) (file part : String) : ToolBase → Prop
  | .clangTidy tool => ∃ res,
      host.execute tool.option.binary (ClangTidy.executeOpts tool.option file) context.repoPath =
        .ok res ∧
      part = String.join
        (((ClangTidy.outputLines res.stdOut).filterMap ClangTidy.parseDiagnosticHeader).map
          (fun header => ClangTidy.briefBullet file ⟨header, ""⟩))
  | .clangFormat _ => part = "- " ++ file ++ "\n"

end ToolBase

/-- The numbers of a tool. -/
structure BriefOf (context : RuntimeContext) (entry : Host × ToolBase) (brief : BriefResult) :
    Prop where
  isPassed : brief.isPassed = true ↔ ∀ file, ¬ entry.2.Reports entry.1 context file
  successed : brief.successed = {file | entry.2.Clears entry.1 context file}.ncard
  failed : brief.failed = {file | entry.2.Reports entry.1 context file}.ncard
  ignored : brief.ignored = {file | entry.2.Skips entry.1 context file}.ncard

/-- The section of a tool: what is written about each of its failures. -/
def Section (context : RuntimeContext) (entry : Host × ToolBase) (text : String) : Prop :=
  ∃ files parts, text = String.join parts ++ "\n" ∧ files.Nodup ∧
    (∀ file, file ∈ files ↔ entry.2.Reports entry.1 context file) ∧
    List.Forall₂ (fun file part => entry.2.Describes entry.1 context file part) files parts

/-- A reporter speaks about the tool: under its name, with its numbers and
its section. -/
structure SpeaksFor (context : RuntimeContext) (ord : Enumeration String)
    (entry : Host × ToolBase) (reporter : ReporterBase) : Prop where
  toolName : reporter.toolName = ReporterBase.lastPart entry.2.optionBase.binary
  brief : BriefOf context entry reporter.getBriefResult
  text : Section context entry (reporter.makeIssueComment ord ++ "\n")

section Texts

variable {context : RuntimeContext}

/-- The final verdict of a completed check says whether there is a failure to
report. -/
theorem finalPassed_iff_none_recorded {ρ : Type} {host : Host} {checker : Checker ρ}
    (hnodup : context.changedFiles.Nodup)
    {result : MultiFilesResult ρ} (h : runCheck host checker context {} = .ok result) :
    result.finalPassed = true ↔ ∀ file, ¬ Recorded host checker context file := by
  rw [(runCheck_addsUp hnodup h).finalPassed, UMap.size_eq_zero_iff, UMap.isEmpty_iff_lookup]
  refine forall_congr' (fun file => ?_)
  rw [← exists_lookup_fails_iff h, Option.eq_none_iff_forall_ne_some, not_exists]

/-- A section is made from the failed files as they are walked. -/
theorem section_of_toList {ρ : Type} (ord : Enumeration String) {entry : Host × ToolBase}
    {fails : UMap String ρ} {part : String × ρ → String}
    (hfiles : ∀ file, (∃ res, fails.lookup file = some res) ↔
      entry.2.Reports entry.1 context file)
    (hparts : ∀ file res, fails.lookup file = some res →
      entry.2.Describes entry.1 context file (part (file, res))) :
    Section context entry (String.join ((ord.toList fails).map part) ++ "\n") := by
  refine ⟨(ord.toList fails).map Prod.fst, _, rfl, ord.nodup_keys _, fun file => ?_, ?_⟩
  · rw [ord.mem_keys_iff, UMap.mem_iff_lookup, hfiles]
  · rw [List.forall₂_map_left_iff, List.forall₂_map_right_iff, List.forall₂_same]
    rintro ⟨file, res⟩ hentry
    exact hparts file res ((ord.mem_toList_iff _ _ _).mp hentry)

/-- The part written about a file clang-tidy failed on. -/
theorem ClangTidy.describes_of_lookup {host : Host} {tool : ClangTidyGeneral}
    {result : MultiFilesResult PerFileResult}
    (h : runCheck host (checker host tool.option) context {} = .ok result) {file : String}
    {res : PerFileResult} (hlookup : result.fails.lookup file = some res) :
    (ToolBase.clangTidy tool).Describes host context file
      (String.join (res.diags.map (briefBullet file))) := by
  obtain ⟨-, -, hcheck, -⟩ := (lookup_fails_of_runCheck h).mp hlookup
  obtain ⟨res, hres, rfl⟩ := checkSingleFile_eq_ok_iff.mp hcheck
  refine ⟨res, hres, ?_⟩
  rw [← map_header_parseStdout, List.map_map]
  rfl

/-- After a completed check of a fresh tool its reporter speaks for it. -/
theorem ToolBase.speaksFor_of_check {host : Host} {tool tool' : ToolBase}
    (ord : Enumeration String) (hnodup : context.changedFiles.Nodup) (hfresh : tool.Fresh)
    (h : tool.check host context = .ok tool') :
    SpeaksFor context ord (host, tool) tool'.getReporter := by
  cases tool with
  | clangTidy tool =>
      obtain ⟨result, hrun, rfl⟩ := (ClangTidy.check_eq_ok_iff hfresh).mp h
      obtain ⟨hsuccessed, hfailed, hignored⟩ := runCheck_counts hnodup hrun
      refine ⟨rfl, ⟨finalPassed_iff_none_recorded hnodup hrun, hsuccessed, hfailed, hignored⟩, ?_⟩
      rw [ReporterBase.makeIssueComment_eq]
      exact section_of_toList ord (fun file => exists_lookup_fails_iff hrun)
        (fun file res hlookup => ClangTidy.describes_of_lookup hrun hlookup)
  | clangFormat tool =>
      obtain ⟨result, hrun, rfl⟩ := (ClangFormat.check_eq_ok_iff hfresh).mp h
      obtain ⟨hsuccessed, hfailed, hignored⟩ := runCheck_counts hnodup hrun
      refine ⟨rfl, ⟨finalPassed_iff_none_recorded hnodup hrun, hsuccessed, hfailed, hignored⟩, ?_⟩
      rw [ReporterBase.makeIssueComment_eq]
      exact section_of_toList ord (fun file => exists_lookup_fails_iff hrun) (fun _ _ _ => rfl)

variable {tools : List (Host × ToolBase)} {reporters : List ReporterBase}

/-- The reporters of a run speak for its tools, one for one. -/
theorem speakFor_of_runTools (ord : Enumeration String) (hnodup : context.changedFiles.Nodup)
    (hfresh : ∀ entry ∈ tools, entry.2.Fresh) (h : runTools tools context = .ok reporters) :
    List.Forall₂ (SpeaksFor context ord) tools reporters := by
  rw [runTools_eq_ok_iff] at h
  induction h with
  | nil => exact .nil
  | @cons entry reporter tools reporters hentry _ ih =>
      obtain ⟨tool', hcheck, rfl⟩ := hentry
      exact .cons (ToolBase.speaksFor_of_check ord hnodup (hfresh entry List.mem_cons_self) hcheck)
        (ih (fun e he => hfresh e (List.mem_cons_of_mem _ he)))

theorem speakFor_of_prepare {σ : Type} {runner : Runner σ} {args : List String}
    (h : prepare runner args = .ok (.reporting context reporters)) :
    ∃ vars tools, parse args allOptions = .ok vars ∧ createEnabledTools runner vars = .ok tools ∧
      List.Forall₂ (SpeaksFor context runner.ord) tools reporters := by
  obtain ⟨tools, start, hstarted, hcontext, -, hreporters⟩ := prepare_reporting_iff.mp h
  obtain ⟨diff, -, hfilled⟩ := fillGitInfo_eq_ok hcontext
  have hspeak :=
    speakFor_of_runTools runner.ord hfilled.nodup_changedFiles hstarted.fresh hreporters
  obtain ⟨vars, _, _, hvars, -, -, -, htools, -⟩ := hstarted
  exact ⟨vars, tools, hvars, htools, hspeak⟩

/-! ## The step summary -/

/-- All passed, if no failure is recorded for any tool. -/
theorem allPassed_iff_none_reported {ord : Enumeration String}
    (h : List.Forall₂ (SpeaksFor context ord) tools reporters) :
    allPassed reporters = true ↔
      ∀ entry ∈ tools, ∀ file, ¬ entry.2.Reports entry.1 context file := by
  induction h with
  | nil => simp [allPassed]
  | cons hentry _ ih =>
      rw [List.forall_mem_cons, ← hentry.brief.isPassed, ← ih]
      exact Bool.and_eq_true_iff

/-- The beginning of a step summary that names failures. -/
def failedTitle : String :=
  "# The cpp-lint-action Result:warning: Some files didn't pass the cpp-lint-action checks\n"

/-- **The step summary.** It says that everything passed exactly when no tool
has a failure to report; otherwise it has a section for each tool, and each
section a part for each of the tool's failures, taken from what the machine
printed. -/
theorem summary_describes {σ : Type} {runner : Runner σ} {args : List String}
    (h : prepare runner args = .ok (.reporting context reporters)) :
    ∃ vars tools, parse args allOptions = .ok vars ∧ createEnabledTools runner vars = .ok tools ∧
      ((∀ entry ∈ tools, ∀ file, ¬ entry.2.Reports entry.1 context file) →
        stepSummary runner.ord reporters = passedSummary) ∧
      ((∃ entry ∈ tools, ∃ file, entry.2.Reports entry.1 context file) →
        ∃ sections, List.Forall₂ (Section context) tools sections ∧
          stepSummary runner.ord reporters = failedTitle ++ String.join sections) := by
  obtain ⟨vars, tools, hvars, htools, hspeak⟩ := speakFor_of_prepare h
  have hpassed := allPassed_iff_none_reported hspeak
  refine ⟨vars, tools, hvars, htools, fun hnone => ?_, fun ⟨entry, hentry, file, hfile⟩ => ?_⟩
  · exact (stepSummary_eq_iff _ _).mpr (hpassed.mpr hnone)
  · have hnot : allPassed reporters = false :=
      Bool.eq_false_iff.mpr (fun hall => hpassed.mp hall entry hentry file hfile)
    refine ⟨reporters.map (fun reporter => reporter.makeIssueComment runner.ord ++ "\n"), ?_, ?_⟩
    · exact List.forall₂_map_right_iff.mpr (hspeak.imp (fun _ _ h => h.text))
    · rw [stepSummary, hnot, if_neg Bool.false_ne_true, foldl_append_eq_join,
        String.empty_append]
      rfl

theorem summary_describes_tidyRunner :
    ∃ context reporters, prepare tidyRunner tidyOnly = .ok (.reporting context reporters) ∧
      ∃ vars tools, parse tidyOnly allOptions = .ok vars ∧
        createEnabledTools tidyRunner vars = .ok tools ∧
        ((∀ entry ∈ tools, ∀ file, ¬ entry.2.Reports entry.1 context file) →
          stepSummary tidyRunner.ord reporters = passedSummary) ∧
        ((∃ entry ∈ tools, ∃ file, entry.2.Reports entry.1 context file) →
          ∃ sections, List.Forall₂ (Section context) tools sections ∧
            stepSummary tidyRunner.ord reporters = failedTitle ++ String.join sections) := by
  obtain ⟨context, reporters, hprepare, -⟩ := exists_prepare_tidyRunner
  exact ⟨context, reporters, hprepare, summary_describes hprepare⟩

/-! ## The comment -/

/-- The row of a tool in the table of the comment. -/
def RowOf (context : RuntimeContext) (entry : Host × ToolBase) (row : String) : Prop :=
  ∃ brief, BriefOf context entry brief ∧
    row = formatTableRow (ReporterBase.lastPart entry.2.optionBase.binary) brief

/-- The details of a tool: nothing without a failure, else its section under
the number of failures. -/
def DetailOf (context : RuntimeContext) (entry : Host × ToolBase) (detail : String) : Prop :=
  ((∀ file, ¬ entry.2.Reports entry.1 context file) ∧ detail = "") ∨
    (∃ file, entry.2.Reports entry.1 context file) ∧ ∃ text, Section context entry text ∧
      detail = formatDetails (formatSummary {file | entry.2.Reports entry.1 context file}.ncard
        (ReporterBase.lastPart entry.2.optionBase.binary) ++ text)

/-- What the loop of `comment_on_github_issue` adds to the details. -/
def detailOf (ord : Enumeration String) (reporter : ReporterBase) : String :=
  if reporter.getBriefResult.isPassed then ""
  else formatDetails (formatSummary reporter.getBriefResult.failed reporter.toolName
    ++ (reporter.makeIssueComment ord ++ "\n"))

/-- With a failure behind every negative verdict, the loop writes the rows
and the details. -/
theorem foldlM_describeReporter (ord : Enumeration String)
    (hfailed : ∀ r ∈ reporters, r.getBriefResult.isPassed = false → r.getBriefResult.failed ≠ 0)
    (state : String × String) :
    reporters.foldlM (describeReporter ord) state = .ok
      (state.1 ++ String.join (reporters.map (fun r => formatTableRow r.toolName r.getBriefResult)),
        state.2 ++ String.join (reporters.map (detailOf ord))) := by
  rw [← foldl_append_eq_join, ← foldl_append_eq_join]
  induction reporters generalizing state with
  | nil => rfl
  | cons r reporters ih =>
      have hstep : describeReporter ord state r = .ok
          (state.1 ++ formatTableRow r.toolName r.getBriefResult, state.2 ++ detailOf ord r) := by
        unfold describeReporter detailOf
        cases hpassed : r.getBriefResult.isPassed with
        | true => simp [hpassed, pure, Except.pure]
        | false =>
            have hne := hfailed r List.mem_cons_self hpassed
            simp [hpassed, assertThat, hne, bind, Except.bind, pure, Except.pure]
      rw [List.foldlM_cons, hstep, List.foldl_cons, List.foldl_cons]
      exact ih (fun r hr => hfailed r (List.mem_cons_of_mem _ hr)) _

/-- The details of a reporter that speaks for the tool. -/
theorem SpeaksFor.detail {ord : Enumeration String} {entry : Host × ToolBase}
    {reporter : ReporterBase} (h : SpeaksFor context ord entry reporter) :
    DetailOf context entry (detailOf ord reporter) := by
  cases hpassed : reporter.getBriefResult.isPassed with
  | true => exact .inl ⟨h.brief.isPassed.mp hpassed, by rw [detailOf, hpassed, if_pos rfl]⟩
  | false =>
      have hsome : ∃ file, entry.2.Reports entry.1 context file := by
        by_contra hnone
        rw [h.brief.isPassed.mpr (not_exists.mp hnone)] at hpassed
        cases hpassed
      refine .inr ⟨hsome, _, h.text, ?_⟩
      rw [detailOf, hpassed, if_neg Bool.false_ne_true, h.brief.failed, h.toolName]

/-- **The comment.** Its table has a row for each tool, with the numbers of
the files that pass, fail and are left out; its details name the failures,
taken from what the machine printed, for the tools that have any; and it
ends with how to reproduce them. -/
theorem comment_describes {σ : Type} {runner : Runner σ} {args : List String}
    (h : prepare runner args = .ok (.reporting context reporters)) :
    ∃ vars tools rows details, parse args allOptions = .ok vars ∧
      createEnabledTools runner vars = .ok tools ∧ List.Forall₂ (RowOf context) tools rows ∧
      List.Forall₂ (DetailOf context) tools details ∧
      issueContent runner.ord reporters = .ok (tableHead ++ String.join rows ++
        (String.join details ++ formatDetails (usageSummary ++ makeReproduceSpec reporters))) := by
  obtain ⟨vars, tools, hvars, htools, hspeak⟩ := speakFor_of_prepare h
  have hsound := (prepare_reporting hvars h).sound
  refine ⟨vars, tools, reporters.map (fun r => formatTableRow r.toolName r.getBriefResult),
    reporters.map (detailOf runner.ord), hvars, htools, ?_, ?_, ?_⟩
  · refine List.forall₂_map_right_iff.mpr (hspeak.imp (fun entry reporter h => ?_))
    exact ⟨reporter.getBriefResult, h.brief, by rw [h.toolName]⟩
  · exact List.forall₂_map_right_iff.mpr (hspeak.imp (fun _ _ h => h.detail))
  · rw [issueContent, foldlM_describeReporter runner.ord (fun r hr => (hsound r hr).failed)]
    simp only [String.empty_append]
    rfl

theorem comment_describes_tidyRunner :
    ∃ context reporters, prepare tidyRunner tidyOnly = .ok (.reporting context reporters) ∧
      ∃ vars tools rows details, parse tidyOnly allOptions = .ok vars ∧
        createEnabledTools tidyRunner vars = .ok tools ∧ List.Forall₂ (RowOf context) tools rows ∧
        List.Forall₂ (DetailOf context) tools details ∧
        issueContent tidyRunner.ord reporters = .ok (tableHead ++ String.join rows ++
          (String.join details ++ formatDetails (usageSummary ++ makeReproduceSpec reporters))) := by
  obtain ⟨context, reporters, hprepare, -⟩ := exists_prepare_tidyRunner
  exact ⟨context, reporters, hprepare, comment_describes hprepare⟩

end Texts

end CppLint
