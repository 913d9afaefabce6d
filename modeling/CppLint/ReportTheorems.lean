/-
CppLint.ReportTheorems — the reports find what they look up.

`check` looks every changed file up in the delta map, `make_review_comment`
looks every failed file up in the patch map, and the reports assert that a
failure is recorded under its own path and that a reporter whose verdict is
negative has a failure to show. None of this is checked where it is used: it
rests on how `fill_git_info` fills the maps and on what `check` leaves in a
fresh tool.

`ReporterBase.Sound` is what the reports rely on. `runTools_guarantees` shows
that it holds of every reporter of a run on a filled context, and
`lintAndReport_sound` that no run, whatever the tools and GitHub answer,
ends in a failed lookup or in one of these assertions. So the comment's text
can always be made, and what the thread sees of a report is a run of the
client with that text (`runOn_commentOnGithubIssue`).
-/
import CppLint.ClangTidy.ReviewTheorems
import CppLint.Github.ClientTheorems
import CppLint.Github.ExchangeTheorems
import CppLint.Report
import CppLint.ToolsTheorems

namespace CppLint

open CppLint.Lib CppLint.Git CppLint.Tool CppLint.Github

/-- A failed lookup in a map, or a failed assertion about the filled context
or about the results of the tools. The assertion on `option.binary` is about
the user's options, and those of `fill_git_info` are about the context it
is given. -/
def Fault.AboutContext : Fault → Prop
  | .at _ => True
  | .assertion .check expr => expr = "!context.repo_path.empty()"
  | .assertion .makeReviewComment _ => True
  | .assertion .commentOnGithubIssue _ => True
  | _ => False

/-! ## Filling the context -/

/-- `fill_git_info` fills the maps from one diff, or fails before it looks
into them. -/
theorem fillGitInfo_guarantees (git : Libgit2) (ord : Enumeration String)
    (context : RuntimeContext) :
    Guarantees (fillGitInfo git ord context) (fun ctx => ∃ diff, FilledFrom diff ord ctx)
      (fun f => ¬ f.AboutContext) := by
  have hfaults : Guarantees (fillGitInfo git ord context) (fun _ => True)
      (fun f => ¬ f.AboutContext) := by
    unfold fillGitInfo
    iterate 9 refine Guarantees.bind (assertThat_guarantees (fun _ => id)) (fun _ _ => ?_)
    iterate 4 refine Guarantees.bind (external_guarantees (fun _ => id)) (fun _ _ => ?_)
    rw [createFromDiff_eq, deltas_eq]
    trivial
  refine (hfaults.and_ok (fun ctx h => ?_)).mono (fun ctx h => h.2) (fun f h => h)
  obtain ⟨diff, _, hfilled⟩ := fillGitInfo_eq_ok h
  exact ⟨diff, hfilled⟩

/-! ## One check -/

/-- What the reports rely on in the result of a check. -/
structure SoundResult {ρ : Type} (base : ρ → PerFileResultBase) (context : RuntimeContext)
    (result : MultiFilesResult ρ) : Prop where
  failed : result.finalPassed = false → result.fails.size ≠ 0
  keyed : ∀ file res, result.fails.lookup file = some res →
    (base res).filePath = file ∧ file ∈ context.changedFiles

section Check

variable {ρ : Type} (host : Host) {checker : Checker ρ} {context : RuntimeContext}

/-- The check of a single file records the file, and looks nothing up. -/
def RecordsFile (checker : Checker ρ) (context : RuntimeContext) : Prop :=
  ∀ file, Guarantees (checker.checkSingleFile context context.repoPath file)
    (fun res => (checker.base res).filePath = file) (fun f => ¬ f.AboutContext)

/-- The verdict on a file with a delta fails with what the filter or the
single check throws. -/
theorem verdict_guarantees (hsingle : RecordsFile checker context) {file : String}
    {delta : DiffDelta} (hdelta : mapAt context.deltas file = .ok delta) :
    Guarantees (verdict host checker context file) (fun _ => True)
      (fun f => ¬ f.AboutContext) := by
  unfold verdict
  rw [hdelta]
  show Guarantees (if delta.status = .deleted then _ else _) _ _
  by_cases hdel : delta.status = .deleted
  · rw [if_pos hdel]
    trivial
  · rw [if_neg hdel]
    have hfilter : Guarantees (filterFile host checker.option.fileFilterIregex file)
        (fun _ => True) (fun f => ¬ f.AboutContext) :=
      (external_guarantees (fun _ => id)).bind (fun _ _ => trivial)
    refine hfilter.bind (fun filtered _ => ?_)
    cases filtered with
    | true => trivial
    | false =>
        refine (hsingle file).bind (fun res _ => ?_)
        cases (checker.base res).passed <;> trivial

/-- **One check.** On a fresh tool and a context whose changed files have
deltas, `check` leaves a sound result and fails no lookup. -/
theorem runCheck_sound (hsingle : RecordsFile checker context)
    (hpath : context.repoPath ≠ "")
    (hdeltas : ∀ file ∈ context.changedFiles, ∃ delta, mapAt context.deltas file = .ok delta) :
    Guarantees (runCheck host checker context {}) (SoundResult checker.base context)
      (fun f => ¬ f.AboutContext) := by
  refine (runCheck_outcome host checker context).mono ?_ ?_
  · intro result hresult
    obtain ⟨vs, hout⟩ := hresult
    refine ⟨fun hfalse => ?_, fun file res hlookup => ?_⟩
    · obtain ⟨hjudged, _, hfails, hnone⟩ := outcome_judged hout
      rw [UMap.size_ne_zero_iff, hfails]
      exact Bool.eq_false_iff.mpr (fun hempty => hnone hfalse (hjudged.fails_isEmpty_iff.mp hempty))
    · obtain ⟨hmem, hcheck⟩ := outcome_lookup_fails hout hlookup
      exact ⟨(hsingle file).of_ok hcheck, hmem⟩
  · intro f hf
    rcases hf with (⟨_, rfl⟩ | ⟨hempty, _⟩) | ⟨file, hmem, hthrown⟩
    · simp [Fault.AboutContext]
    · exact absurd hempty hpath
    · obtain ⟨delta, hdelta⟩ := hdeltas file hmem
      exact (verdict_guarantees host hsingle hdelta).of_error hthrown

end Check

theorem ClangTidy.recordsFile (host : Host) (option : ClangTidy.Options)
    (context : RuntimeContext) : RecordsFile (ClangTidy.checker host option) context := by
  intro file
  have hexec : Guarantees (ClangTidy.execute host option context.repoPath file) (fun _ => True)
      (fun f => ¬ f.AboutContext) :=
    (external_guarantees (fun _ => id)).bind (fun _ _ => trivial)
  exact hexec.bind (fun _ _ => rfl)

theorem ClangFormat.parseReplacementsXml_guarantees (host : Host) (context : RuntimeContext)
    (data file : String) :
    Guarantees (ClangFormat.parseReplacementsXml host context data file) (fun _ => True)
      (fun f => ¬ f.AboutContext) := by
  have hlens : Guarantees (ClangFormat.getLineLens host (context.repoPath ++ "/" ++ file))
      (fun _ => True) (fun f => ¬ f.AboutContext) := by
    unfold ClangFormat.getLineLens
    cases host.readFile (context.repoPath ++ "/" ++ file) with
    | none => exact id
    | some content => trivial
  unfold ClangFormat.parseReplacementsXml
  split
  · exact id
  · refine (throwIf_guarantees id).bind (fun _ _ => ?_)
    split
    · exact id
    · exact hlens.bind (fun _ _ => trivial)

theorem ClangFormat.recordsFile (host : Host) (option : ClangFormat.Options)
    (context : RuntimeContext) : RecordsFile (ClangFormat.checker host option) context := by
  intro file
  have hexec : Guarantees (ClangFormat.execute host option context.repoPath file) (fun _ => True)
      (fun f => ¬ f.AboutContext) :=
    (external_guarantees (fun _ => id)).bind (fun _ _ => trivial)
  refine hexec.bind (fun p _ => ?_)
  show Guarantees (if p.1.exitCode ≠ 0 then _ else _) _ _
  by_cases hexit : p.1.exitCode ≠ 0
  · rw [if_pos hexit]
    exact rfl
  · rw [if_neg hexit]
    exact (ClangFormat.parseReplacementsXml_guarantees host context _ file).bind (fun _ _ => rfl)

/-! ## All tools -/

/-- The path recorded in the result of a failed file. -/
def ReporterBase.failedPath (file : String) : ReporterBase → Option String
  | .clangTidy r => (r.result.fails.lookup file).map (fun res => res.filePath)
  | .clangFormat r => (r.result.fails.lookup file).map (fun res => res.filePath)

/-- What the reports rely on: a negative verdict has a failure to show, and
a failure is recorded under its own path and has a patch. -/
structure ReporterBase.Sound (context : RuntimeContext) (reporter : ReporterBase) : Prop where
  failed : reporter.getBriefResult.isPassed = false → reporter.getBriefResult.failed ≠ 0
  keyed : ∀ file path, reporter.failedPath file = some path →
    path = file ∧ ∃ patch, mapAt context.patches file = .ok patch

/-- The failures of a sound result have patches when the changed files do. -/
theorem SoundResult.keyed_path {ρ : Type} {base : ρ → PerFileResultBase}
    {context : RuntimeContext} {result : MultiFilesResult ρ}
    (hsound : SoundResult base context result)
    (hpatches : ∀ file ∈ context.changedFiles, ∃ patch, mapAt context.patches file = .ok patch)
    {file path : String}
    (hpath : (result.fails.lookup file).map (fun res => (base res).filePath) = some path) :
    path = file ∧ ∃ patch, mapAt context.patches file = .ok patch := by
  obtain ⟨res, hlookup, rfl⟩ := Option.map_eq_some_iff.mp hpath
  obtain ⟨hfile, hmem⟩ := hsound.keyed file res hlookup
  exact ⟨hfile, hpatches file hmem⟩

section Filled

variable {diff : Diff} {ord : Enumeration String} {context : RuntimeContext}

/-- A fresh tool on a filled context leaves a sound reporter. -/
theorem ToolBase.check_guarantees (hfilled : FilledFrom diff ord context) (host : Host)
    {tool : ToolBase} (hfresh : tool.Fresh) :
    Guarantees (tool.check host context) (fun tool' => tool'.getReporter.Sound context)
      (fun f => ¬ f.AboutContext) := by
  have hdeltas : ∀ file ∈ context.changedFiles, ∃ delta, mapAt context.deltas file = .ok delta :=
    fun file hfile => (hfilled.changedFiles_found hfile).2
  have hpatches : ∀ file ∈ context.changedFiles, ∃ patch, mapAt context.patches file = .ok patch :=
    fun file hfile => (hfilled.changedFiles_found hfile).1
  cases tool with
  | clangTidy tool =>
      obtain ⟨option, result⟩ := tool
      have hnew : result = {} := hfresh
      subst hnew
      have hcheck := runCheck_sound host (ClangTidy.recordsFile host option context)
        hfilled.repoPath hdeltas
      exact Guarantees.map (hcheck.bind (fun result hresult =>
        ⟨hresult.failed, fun file path hpath => hresult.keyed_path hpatches hpath⟩))
  | clangFormat tool =>
      obtain ⟨option, result⟩ := tool
      have hnew : result = {} := hfresh
      subst hnew
      have hcheck := runCheck_sound host (ClangFormat.recordsFile host option context)
        hfilled.repoPath hdeltas
      exact Guarantees.map (hcheck.bind (fun result hresult =>
        ⟨hresult.failed, fun file path hpath => hresult.keyed_path hpatches hpath⟩))

/-- Every reporter of a run is sound. -/
theorem runTools_guarantees (hfilled : FilledFrom diff ord context)
    {tools : List (Host × ToolBase)} (hfresh : ∀ entry ∈ tools, entry.2.Fresh) :
    Guarantees (runTools tools context) (fun reporters => ∀ r ∈ reporters, r.Sound context)
      (fun f => ¬ f.AboutContext) := by
  refine Guarantees.foldlM tools [] (by simp) (fun entry hentry reporters hreporters => ?_)
  refine (ToolBase.check_guarantees hfilled entry.1 (hfresh entry hentry)).bind
    (fun tool htool => ?_)
  intro r hr
  rcases List.mem_append.mp hr with hr | hr
  · exact hreporters r hr
  · rw [List.mem_singleton.mp hr]
    exact htool

end Filled

/-! ## The reports -/

/-- The text of the comment can be made from sound reporters: the assertion
of its loop is all that could fail. -/
theorem issueContent_guarantees (ord : Enumeration String) {context : RuntimeContext}
    {reporters : List ReporterBase} (hsound : ∀ r ∈ reporters, r.Sound context)
    (E : Fault → Prop) : Guarantees (issueContent ord reporters) (fun _ => True) E := by
  have hrows : Guarantees (reporters.foldlM (describeReporter ord) ("", "")) (fun _ => True) E := by
    refine Guarantees.foldlM reporters _ trivial (fun r hr state _ => ?_)
    show Guarantees (if r.getBriefResult.isPassed then _ else _) _ _
    cases hpassed : r.getBriefResult.isPassed with
    | true => trivial
    | false =>
        have hfailed := (hsound r hr).failed hpassed
        refine Guarantees.bind (assertThat_guarantees (fun h => ?_)) (fun _ _ => trivial)
        exact absurd hfailed (of_decide_eq_false h)
  exact hrows.bind (fun _ _ => trivial)

/-- A sound clang-tidy reporter is attached to the context. -/
theorem ReporterBase.Sound.attached {context : RuntimeContext} {r : ClangTidy.Reporter}
    (hsound : (ReporterBase.clangTidy r).Sound context) : r.Attached context := by
  intro file res hlookup
  obtain ⟨hpath, patch, hpatch⟩ := hsound.keyed file res.filePath (by
    simp [ReporterBase.failedPath, hlookup])
  exact ⟨hpath, patch, mapAt_eq_ok.mp hpatch⟩

section ReviewComments

variable {E : Fault → Prop} (hinvalid : E .stoiInvalidArgument) (hrange : E .stoiOutOfRange)

include hinvalid hrange

/-- The conversions of row and column are all that can fail for one
diagnostic. -/
theorem ClangTidy.visitDiagnostic_guarantees (file : String) (patch : Patch)
    (comments : List ReviewComment) (diag : ClangTidy.Diagnostic) :
    Guarantees (ClangTidy.visitDiagnostic file patch comments diag) (fun _ => True) E := by
  unfold ClangTidy.visitDiagnostic
  refine (stoi_guarantees hinvalid hrange _).bind (fun row _ => ?_)
  refine (stoi_guarantees hinvalid hrange _).bind (fun _ _ => ?_)
  rw [ClangTidy.foldlM_visitHunk]
  trivial

/-- The review comments of an attached reporter can be made. -/
theorem ClangTidy.Reporter.makeReviewComment_guarantees (ord : Enumeration String)
    {r : ClangTidy.Reporter} {context : RuntimeContext} (hatt : r.Attached context) :
    Guarantees (r.makeReviewComment ord context) (fun _ => True) E := by
  refine Guarantees.foldlM _ [] trivial (fun entry hentry comments _ => ?_)
  obtain ⟨file, res⟩ := entry
  obtain ⟨hpath, patch, hpatch⟩ := hatt file res ((ord.mem_toList_iff _ _ _).mp hentry)
  refine (assertThat_guarantees (fun h => absurd hpath (of_decide_eq_false h))).bind (fun _ _ => ?_)
  refine (assertThat_guarantees (fun h => ?_)).bind (fun _ _ => ?_)
  · rw [hpatch] at h
    cases h
  · rw [mapAt_eq_ok.mpr hpatch]
    exact Guarantees.foldlM res.diags comments trivial (fun diag _ comments _ =>
      ClangTidy.visitDiagnostic_guarantees hinvalid hrange file patch comments diag)

theorem reviewComments_guarantees (ord : Enumeration String) {context : RuntimeContext}
    {reporters : List ReporterBase} (hsound : ∀ r ∈ reporters, r.Sound context) :
    Guarantees (reviewComments ord context reporters) (fun _ => True) E := by
  refine Guarantees.foldlM reporters [] trivial (fun r hr comments _ => ?_)
  have hcomments : Guarantees (r.makeReviewComment ord context) (fun _ => True) E := by
    cases r with
    | clangTidy r =>
        exact ClangTidy.Reporter.makeReviewComment_guarantees hinvalid hrange ord
          (hsound _ hr).attached
    | clangFormat r => trivial
  exact hcomments.bind (fun _ _ => trivial)

end ReviewComments

/-! ## The whole run -/

theorem not_aboutContext_of_exchange {f : Fault} (h : OfExchange f) : ¬ f.AboutContext := by
  cases f with
  | assertion site expr => cases site <;> first | exact id | exact h.elim
  | «at» key => exact h.elim
  | _ => exact id

/-- A member function of the client does not fail in the context. -/
theorem Github.Exchanges.safe {σ α : Type} {call : Call σ α} (h : Exchanges call) :
    Stateful.Ensures call (fun _ => True) (fun f => ¬ f.AboutContext) :=
  Stateful.Ensures.mono h (fun _ _ => trivial) (fun _ hf => not_aboutContext_of_exchange hf)

section Run

variable {σ : Type} (api : Api σ) (ord : Enumeration String)

theorem commentOnGithubIssue_ensures {context : RuntimeContext} {reporters : List ReporterBase}
    (hsound : ∀ r ∈ reporters, r.Sound context) :
    Stateful.Ensures (commentOnGithubIssue api ord context reporters) (fun _ => True)
      (fun f => ¬ f.AboutContext) := by
  refine (exchanges_step _).safe.bind (fun _ _ => ?_)
  refine (getIssueCommentId_ensures api context).safe.bind (fun _ _ => ?_)
  refine (Stateful.ensures_lift (issueContent_guarantees ord hsound _)).bind (fun content _ => ?_)
  exact (addOrUpdateIssueComment_ensures api context content).safe

theorem commentOnGithubPullRequestReview_ensures {context : RuntimeContext}
    {reporters : List ReporterBase} (hsound : ∀ r ∈ reporters, r.Sound context) :
    Stateful.Ensures (commentOnGithubPullRequestReview api ord context reporters)
      (fun _ => True) (fun f => ¬ f.AboutContext) := by
  refine (exchanges_step _).safe.bind (fun _ _ => ?_)
  refine (Stateful.ensures_lift (reviewComments_guarantees id id ord hsound)).bind
    (fun comments _ => ?_)
  exact (postPullRequestReview_ensures api context (makeReviewStr comments)).safe

/-- **The reports find what they look up.** For every diff, every list of
fresh tools, every outcome of their runs and every behaviour of GitHub: the
run does not end in a failed lookup or assertion about the context and the
results. And when the tools have run, every changed file has its delta,
every failed file its own path and its patch, and every reporter with a
negative verdict a failure. -/
theorem lintAndReport_sound (git : Libgit2) (context : RuntimeContext)
    {tools : List (Host × ToolBase)} (hfresh : ∀ entry ∈ tools, entry.2.Fresh) :
    Stateful.Ensures (lintAndReport api ord git tools context) (fun _ => True)
        (fun f => ¬ f.AboutContext) ∧
      ∀ ctx reporters, fillGitInfo git ord context = .ok ctx →
        runTools tools ctx = .ok reporters →
        (∀ file ∈ ctx.changedFiles, ∃ delta, mapAt ctx.deltas file = .ok delta) ∧
          ∀ r ∈ reporters, r.Sound ctx := by
  constructor
  · refine (Stateful.ensures_lift (fillGitInfo_guarantees git ord context)).bind
      (fun ctx hctx => ?_)
    obtain ⟨diff, hfilled⟩ := hctx
    refine (Stateful.ensures_lift (runTools_guarantees hfilled hfresh)).bind
      (fun reporters hsound => ?_)
    have hissue := commentOnGithubIssue_ensures api ord hsound
    have hreview := commentOnGithubPullRequestReview_ensures api ord hsound
    have hreviewed : Stateful.Ensures (do
        if ctx.enablePullRequestReview then
          commentOnGithubPullRequestReview api ord ctx reporters
        return exitStatus reporters) (fun _ => True) (fun f => ¬ f.AboutContext) := by
      show Stateful.Ensures (if ctx.enablePullRequestReview then _ else _) _ _
      split
      · exact hreview.bind (fun _ _ => Stateful.ensures_pure trivial)
      · exact Stateful.ensures_pure trivial
    show Stateful.Ensures (if ctx.enableCommentOnIssue then _ else _) _ _
    split
    · exact hissue.bind (fun _ _ => hreviewed)
    · exact hreviewed
  · intro ctx reporters hfill hrun
    obtain ⟨diff, hfilled⟩ := (fillGitInfo_guarantees git ord context).of_ok hfill
    refine ⟨fun file hfile => (hfilled.changedFiles_found hfile).2, ?_⟩
    exact (runTools_guarantees hfilled hfresh).of_ok hrun

/-- The context of a run on pull request 1 that makes both reports. -/
def reportingContext : RuntimeContext :=
  { startContext with
    enableCommentOnIssue := true
    enablePullRequestReview := true
    eventName := "pull_request"
    prNumber := 1 }

/-- A run over a path with two deltas, against a server without comments. -/
theorem lintAndReport_sound_typechange :
    Stateful.Ensures (lintAndReport (listing []) (.stored String) (.always typechangeDiff)
        bothTools reportingContext) (fun _ => True) (fun f => ¬ f.AboutContext) ∧
      ∃ ctx reporters,
        fillGitInfo (.always typechangeDiff) (.stored String) reportingContext = .ok ctx ∧
          runTools bothTools ctx = .ok reporters ∧
            (∀ file ∈ ctx.changedFiles, ∃ delta, mapAt ctx.deltas file = .ok delta) ∧
              ∀ r ∈ reporters, r.Sound ctx := by
  have hfresh : ∀ entry ∈ bothTools, entry.2.Fresh := by
    intro entry hentry
    rcases List.mem_cons.mp hentry with rfl | hentry
    · rfl
    · rw [List.mem_singleton.mp hentry]
      rfl
  have hsound := lintAndReport_sound (listing []) (.stored String) (.always typechangeDiff)
    reportingContext hfresh
  exact ⟨hsound.1, _, _, rfl, rfl, hsound.2 _ _ rfl rfl⟩

/-- On sound reporters `comment_on_github_issue` is the run of a new client
with the text it makes. -/
theorem runOn_commentOnGithubIssue {context : RuntimeContext} {reporters : List ReporterBase}
    (hsound : ∀ r ∈ reporters, r.Sound context) (s : Session σ) :
    ∃ content, issueContent ord reporters = .ok content ∧
      Stateful.runOn (commentOnGithubIssue api ord context reporters) s =
        Stateful.runOn (writeThread api context content) { s with commentId := noCommentId } := by
  have hmade := issueContent_guarantees ord hsound (fun _ => False)
  cases hcontent : issueContent ord reporters with
  | error f =>
      rw [hcontent] at hmade
      exact hmade.elim
  | ok content =>
      refine ⟨content, rfl, ?_⟩
      unfold commentOnGithubIssue writeThread newClient
      simp only [Stateful.runOn_bind, Stateful.runOn_step, Stateful.runOn_lift, hcontent]

end Run

end CppLint
