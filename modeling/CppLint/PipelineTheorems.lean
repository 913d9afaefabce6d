/-
CppLint.PipelineTheorems — from the output of clang-tidy to the review.

What clang-tidy prints about a changed file passes through the parser, the
loop of `check`, the reporter and the loop over hunks before it becomes a
comment of the review. `review_sent_iff` puts the stages together: it says
of every run that returns which comments its review has, in terms of what
the machine answered and what the diff holds.

Each stage is an equivalence of its own: the lines printed and the
diagnostics recorded (`reported_iff_printed`), the tools and the reporters
(`mem_reporters_clangTidy`), the diagnostics and the comments
(`mem_reviewComments_iff`).
-/
import CppLint.ClangTidy.ParseTheorems
import CppLint.DeterminismTheorems
import CppLint.RequestTheorems
import CppLint.ReviewBoundsTheorems
import CppLint.Tool.ExaminedTheorems

namespace CppLint

open CppLint.Lib CppLint.Git CppLint.Tool CppLint.Github CppLint.ProgramOptions

/-! ## What clang-tidy printed -/

namespace ClangTidy

/-- Run on a file it had to check, clang-tidy failed and printed a line with
this header. -/
structure Printed (host : Host) (option : Options) (context : RuntimeContext) (file : String)
    (header : DiagnosticHeader) : Prop where
  examined : Examined host (checker host option) context file
  wanted : Wanted host (checker host option) context file
  wellFormed : header.WellFormed
  printed : ∃ res blanks,
    host.execute option.binary (executeOpts option file) context.repoPath = .ok res ∧
      res.exitCode ≠ 0 ∧ Blank blanks ∧ headerLine header blanks ∈ outputLines res.stdOut

/-- The check of a file is the run of the tool. -/
theorem checkSingleFile_eq_ok_iff {host : Host} {option : Options} {context : RuntimeContext}
    {file : String} {r : PerFileResult} :
    (checker host option).checkSingleFile context context.repoPath file = .ok r ↔
      ∃ res, host.execute option.binary (executeOpts option file) context.repoPath = .ok res ∧
        r = {
          passed := res.exitCode = 0
          diags := parseStdout res.stdOut
          toolStdout := res.stdOut
          toolStderr := res.stdErr
          filePath := file
          fileOption := concat (executeOpts option file) ' ' } := by
  constructor
  · intro h
    obtain ⟨⟨res, args⟩, hexecute, h⟩ := bind_eq_ok.mp h
    obtain ⟨res', hres, hargs⟩ := bind_eq_ok.mp hexecute
    cases hargs
    cases h
    exact ⟨res, external_eq_ok.mp hres, rfl⟩
  · rintro ⟨res, hres, rfl⟩
    refine bind_eq_ok.mpr ⟨(res, _), bind_eq_ok.mpr ⟨res, external_eq_ok.mpr hres, rfl⟩, rfl⟩

/-- The diagnostics a completed check has recorded. -/
theorem reported_iff_printed {host : Host} {option : Options} {context : RuntimeContext}
    {result : MultiFilesResult PerFileResult}
    (h : runCheck host (checker host option) context {} = .ok result) {file : String}
    {header : DiagnosticHeader} :
    (∃ diag, Reporter.Reported ⟨option, result⟩ file diag ∧ diag.header = header) ↔
      Printed host option context file header := by
  constructor
  · rintro ⟨diag, ⟨r, hlookup, hdiag⟩, rfl⟩
    obtain ⟨hexamined, hwanted, hcheck, hp⟩ := (lookup_fails_of_runCheck h).mp hlookup
    obtain ⟨res, hres, rfl⟩ := checkSingleFile_eq_ok_iff.mp hcheck
    obtain ⟨line, hline, hparse⟩ := mem_headers_iff.mp ⟨diag, hdiag, rfl⟩
    obtain ⟨hwf, blanks, hblanks, rfl⟩ := parseDiagnosticHeader_eq_some_iff.mp hparse
    exact ⟨hexamined, hwanted, hwf, res, blanks, hres, of_decide_eq_false hp, hblanks, hline⟩
  · rintro ⟨hexamined, hwanted, hwf, res, blanks, hres, hexit, hblanks, hline⟩
    have hparse := parseDiagnosticHeader_eq_some_iff.mpr ⟨hwf, blanks, hblanks, rfl⟩
    obtain ⟨diag, hdiag, hheader⟩ := mem_headers_iff.mpr ⟨_, hline, hparse⟩
    have hcheck := checkSingleFile_eq_ok_iff.mpr ⟨res, hres, rfl⟩
    exact ⟨diag, ⟨_, (lookup_fails_of_runCheck h).mpr ⟨hexamined, hwanted, hcheck,
      decide_eq_false hexit⟩, hdiag⟩, hheader⟩

end ClangTidy

/-! ## The reporters of a run -/

section Run

variable {σ : Type} {runner : Runner σ} {args : List String} {vars : VariablesMap}
  {context : RuntimeContext} {tools : List (Host × ToolBase)} {reporters : List ReporterBase}

theorem mem_enabledTools_clangTidy (h : createEnabledTools runner vars = .ok tools) {host : Host}
    {tool : ClangTidy.ClangTidyGeneral} :
    (host, ToolBase.clangTidy tool) ∈ tools ↔
      host = runner.clangTidyHost ∧
        ClangTidy.createTool runner.clangTidyHost vars = .ok (some tool) := by
  unfold createEnabledTools at h
  obtain ⟨format, -, h⟩ := bind_eq_ok.mp h
  obtain ⟨tidy, htidy, h⟩ := bind_eq_ok.mp h
  cases h
  rw [htidy]
  cases format <;> cases tidy <;> simp [eq_comm]

theorem mem_reporters_iff (h : runTools tools context = .ok reporters) {reporter : ReporterBase} :
    reporter ∈ reporters ↔ ∃ host tool, (host, tool) ∈ tools ∧
      ∃ tool', tool.check host context = .ok tool' ∧ tool'.getReporter = reporter := by
  rw [runTools_eq_ok_iff] at h
  constructor
  · intro hreporter
    obtain ⟨⟨host, tool⟩, htool, hcheck⟩ := exists_of_forall₂ h.flip hreporter
    exact ⟨host, tool, htool, hcheck⟩
  · rintro ⟨host, tool, htool, tool', hcheck, rfl⟩
    obtain ⟨reporter, hreporter, tool'', hcheck', rfl⟩ := exists_of_forall₂ h htool
    rw [hcheck] at hcheck'
    cases hcheck'
    exact hreporter

/-- The reporter of a fresh clang-tidy holds its options and what the check
has left. -/
theorem ClangTidy.reporter_iff {host : Host} {tool : ClangTidyGeneral}
    (hfresh : (ToolBase.clangTidy tool).Fresh) {reporter : ReporterBase} :
    (∃ tool', (ToolBase.clangTidy tool).check host context = .ok tool' ∧
        tool'.getReporter = reporter) ↔
      ∃ result, runCheck host (checker host tool.option) context {} = .ok result ∧
        reporter = .clangTidy ⟨tool.option, result⟩ := by
  simp only [check_eq_ok_iff hfresh]
  constructor
  · rintro ⟨_, ⟨result, hrun, rfl⟩, rfl⟩
    exact ⟨result, hrun, rfl⟩
  · rintro ⟨result, hrun, rfl⟩
    exact ⟨_, ⟨result, hrun, rfl⟩, rfl⟩

/-- The clang-tidy reporters of a run hold what its check has left. -/
theorem mem_reporters_clangTidy (htools : createEnabledTools runner vars = .ok tools)
    (hrun : runTools tools context = .ok reporters) {r : ClangTidy.Reporter} :
    ReporterBase.clangTidy r ∈ reporters ↔
      ∃ tool, ClangTidy.createTool runner.clangTidyHost vars = .ok (some tool) ∧
        ∃ result, runCheck runner.clangTidyHost
            (ClangTidy.checker runner.clangTidyHost tool.option) context {} = .ok result ∧
          r = ⟨tool.option, result⟩ := by
  rw [mem_reporters_iff hrun]
  constructor
  · rintro ⟨host, tool, htool, tool', hcheck, hreporter⟩
    cases tool with
    | clangTidy tool =>
        obtain ⟨rfl, hcreate⟩ := (mem_enabledTools_clangTidy htools).mp htool
        obtain ⟨result, hresult, heq⟩ := (ClangTidy.reporter_iff
          (ClangTidy.createTool_fresh hcreate)).mp ⟨tool', hcheck, hreporter⟩
        cases heq
        exact ⟨tool, hcreate, result, hresult, rfl⟩
    | clangFormat tool =>
        obtain ⟨_, -, rfl⟩ := map_eq_ok.mp hcheck
        cases hreporter
  · rintro ⟨tool, hcreate, result, hresult, rfl⟩
    exact ⟨_, _, (mem_enabledTools_clangTidy htools).mpr ⟨rfl, hcreate⟩,
      (ClangTidy.reporter_iff (ClangTidy.createTool_fresh hcreate)).mpr ⟨result, hresult, rfl⟩⟩

/-! ## The review -/

/-- The comment answers a line that clang-tidy, set up from the command line,
printed about the comment's file; its position is one that the loop over
hunks computes for the row of that line. -/
def Answers (runner : Runner σ) (args : List String) (context : RuntimeContext)
    (c : ReviewComment) : Prop :=
  ∃ vars tool, parse args allOptions = .ok vars ∧
    ClangTidy.createTool runner.clangTidyHost vars = .ok (some tool) ∧
    ∃ header patch row, ClangTidy.Printed runner.clangTidyHost tool.option context c.path header ∧
      context.patches.lookup c.path = some patch ∧ stoi header.rowIdx = .ok row ∧
      c.position ∈ ClangTidy.positionsFrom row 0 patch.hunks ∧
      c.body = header.brief ++ header.diagnosticType

/-- The comments on the diagnostics of a run. -/
theorem mem_reviewComments_iff_answers
    (h : prepare runner args = .ok (.reporting context reporters)) {comments : List ReviewComment}
    (hcomments : reviewComments runner.ord context reporters = .ok comments)
    {c : ReviewComment} : c ∈ comments ↔ Answers runner args context c := by
  obtain ⟨tools, start, ⟨vars, _, _, hvars, -, -, -, htools, -⟩, -, -, hrun⟩ :=
    prepare_reporting_iff.mp h
  constructor
  · intro hc
    obtain ⟨r, hr, ownTool, htool, hc⟩ := (mem_reviewComments_iff hcomments).mp hc
    obtain ⟨tool, hcreate, result, hresult, rfl⟩ := (mem_reporters_clangTidy htools hrun).mp hr
    obtain ⟨file, diag, hdiag, own, hown, hc⟩ := (ClangTidy.mem_makeReviewComment_iff htool).mp hc
    obtain ⟨patch, row, hpatch, hrow, rfl⟩ := ClangTidy.commentsOn_eq_ok hown
    obtain ⟨q, hq, rfl⟩ := List.mem_map.mp hc
    have hprinted := (ClangTidy.reported_iff_printed hresult).mp ⟨diag, hdiag, rfl⟩
    exact ⟨vars, tool, hvars, hcreate, diag.header, patch, row, hprinted, hpatch, hrow, hq, rfl⟩
  · rintro ⟨vars', tool, hvars', hcreate, header, patch, row, hprinted, hpatch, hrow, hq, hbody⟩
    rw [hvars] at hvars'
    cases hvars'
    obtain ⟨reporter, hreporter, hcheck⟩ := exists_of_forall₂ (runTools_eq_ok_iff.mp hrun)
      ((mem_enabledTools_clangTidy htools).mpr ⟨rfl, hcreate⟩)
    obtain ⟨result, hresult, rfl⟩ :=
      (ClangTidy.reporter_iff (ClangTidy.createTool_fresh hcreate)).mp hcheck
    obtain ⟨diag, hdiag, rfl⟩ := (ClangTidy.reported_iff_printed hresult).mpr hprinted
    obtain ⟨own, hown, hall⟩ := exists_commentsOn hcomments hreporter hdiag
    obtain ⟨patch', row', hpatch', hrow', rfl⟩ := ClangTidy.commentsOn_eq_ok hown
    cases hpatch.symm.trans hpatch'
    cases hrow.symm.trans hrow'
    refine hall c (List.mem_map.mpr ⟨c.position, hq, ?_⟩)
    rw [ClangTidy.commentAt, ← hbody]

/-- **The review of a run.** A run that returns, and was asked for a review,
has sent one last; its comments are those that answer a line clang-tidy
printed about a file it got to. Whatever GitHub and the file system
answer. -/
theorem review_sent_iff (api : Api σ) (world : σ)
    (hprepare : prepare runner args = .ok (.reporting context reporters))
    (hreview : context.enablePullRequestReview = true) {status : Nat} {s : Session σ}
    (h : Stateful.runOn (main runner api args) { server := world } = (.ok status, s)) :
    ∃ comments, s.sent.getLast? = some (reviewRequest context (makeReviewStr comments)) ∧
      ∀ c, c ∈ comments ↔ Answers runner args context c := by
  obtain ⟨vars, hvars, -⟩ := bind_eq_ok.mp hprepare
  have hmade := issueContent_guarantees runner.ord (prepare_reporting hvars hprepare).sound
    (fun _ => False)
  cases hcontent : issueContent runner.ord reporters with
  | error f =>
      rw [hcontent] at hmade
      exact hmade.elim
  | ok content =>
      have hphase : Stateful.Triple (fun s => s.sent = []) (report runner api context reporters)
          (fun status s => status = exitStatus reporters ∧
            SentAll api runner.ord context reporters content s.sent)
          (fun _ s => SentSome context content s.sent) := report_sent runner hcontent
      have hsent := hphase { server := world } rfl
      have hmain : Stateful.runOn (main runner api args) { server := world } =
          Stateful.runOn (report runner api context reporters) { server := world } := by
        unfold main
        rw [Stateful.runOn_bind, Stateful.runOn_lift, hprepare]
      rw [← hmain, h] at hsent
      obtain ⟨-, id, comments, hall, -, hcomments⟩ := hsent
      refine ⟨comments, ?_, fun c => mem_reviewComments_iff_answers hprepare (hcomments hreview)⟩
      rw [hall, requestsOf, if_pos hreview]
      exact List.getLast?_concat

end Run

/-! ## A run with one diagnostic -/

/-- A machine with a clang-tidy that finds one thing in every file. -/
def tidyHost : Host where
  execute := fun _ opts _ =>
    if opts = ["--version"] then
      .ok { exitCode := 0, stdOut := "LLVM version 18.1.3", stdErr := "" }
    else if opts = ["clang-tidy"] then
      .ok { exitCode := 0, stdOut := "/usr/bin/clang-tidy\n", stdErr := "" }
    else
      .ok { exitCode := 1, stdOut := "/r/a.cpp:1:5: warning: unused [misc-x]\n", stdErr := "" }
  regexMatch := fun _ _ => .ok true
  readFile := fun _ => none
  parseXml := fun _ => .ok []

/-- A repository with one changed file of one line, on the source commit. -/
def tidyRunner : Runner Unit where
  getenv := actionEnv "pull_request" "refs/pull/7/merge"
  git := { Libgit2.always [⟨⟨.modified, "a.cpp"⟩, ClangTidy.oneLine⟩] with
    repositoryHead := fun _ => .ok ⟨0⟩
    referencePeel := fun _ => .ok ⟨0, "ffac537e6cbbf934b08745a378932722df287a53"⟩ }
  ord := .stored String
  clangFormatHost := toolHost
  clangTidyHost := tidyHost
  append := fun world _ _ => some world

/-- A command line with clang-tidy that asks for a review. -/
def tidyOnly : List String :=
  ["--target-revision=main", "--clang-tidy-binary=clang-tidy", "--enable-clang-format=false",
   "--enable-comment-on-issue=false", "--enable-pull-request-review=true"]

/-- The start-up ends with a context that asks for a review. -/
def reachesReview : Except Fault StartUp → Bool
  | .ok (.reporting context _) => context.enablePullRequestReview
  | _ => false

theorem exists_of_reachesReview {x : Except Fault StartUp} (h : reachesReview x = true) :
    ∃ context reporters, x = .ok (.reporting context reporters) ∧
      context.enablePullRequestReview = true := by
  unfold reachesReview at h
  split at h
  · exact ⟨_, _, rfl, h⟩
  · cases h

theorem exists_prepare_tidyRunner : ∃ context reporters,
    prepare tidyRunner tidyOnly = .ok (.reporting context reporters) ∧
      context.enablePullRequestReview = true :=
  exists_of_reachesReview (by decide +kernel)

theorem review_sent_iff_tidyRunner :
    ∃ (context : RuntimeContext) (s : Session Unit) (comments : List ReviewComment),
      (Stateful.runOn (main tidyRunner (listing []) tidyOnly) { server := () }).2 = s ∧
        s.sent.getLast? = some (reviewRequest context (makeReviewStr comments)) ∧
        ∀ c, c ∈ comments ↔ Answers tidyRunner tidyOnly context c := by
  obtain ⟨context, reporters, hprepare, hreview⟩ := exists_prepare_tidyRunner
  obtain ⟨status, hstatus⟩ := exists_ok_of_isOk (x := (Stateful.runOn (main tidyRunner
    (listing []) tidyOnly) { server := () }).1) (by decide +kernel)
  obtain ⟨comments, hsent, hall⟩ := review_sent_iff (listing []) () hprepare hreview
    (Prod.ext hstatus rfl)
  exact ⟨context, _, comments, rfl, hsent, hall⟩

end CppLint
