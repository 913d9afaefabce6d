/-
CppLint.StartUpTheorems — what the reporting phase starts from.

`main` reads the flags of the reports in one function, the event and the
number of the pull request in another, and reports in a third.
`prepare_reporting` follows them through the start-up: when it reaches the
reporting phase, the flags of the context are those of the options, the
event is that of the environment, the number is the one in the ref if the
event has one and a report is asked for, and the reporters are sound.
-/
import CppLint.Main
import CppLint.ReportTheorems

namespace CppLint

open CppLint.Lib CppLint.Git CppLint.Tool CppLint.Github CppLint.ProgramOptions

/-! ## The options -/

/-- A member that is read from the options keeps its value, or has that of
its option. -/
theorem boolOr_eq_ok {vars : VariablesMap} {option : String} {member b : Bool}
    (h : boolOr vars option member = .ok b) :
    b = member ∨ vars.lookup option = some (.boolean b) := by
  unfold boolOr at h
  split at h
  · unfold asBool at h
    split at h
    · rename_i b' hlookup
      cases h
      exact .inr hlookup
    · cases h
  · cases h
    exact .inl rfl

/-- `fill_context` of the options sets the target and the four flags. -/
theorem ProgramOptions.fillContext_eq_ok {vars : VariablesMap} {ctx ctx' : RuntimeContext}
    (h : ProgramOptions.fillContext vars ctx = .ok ctx') :
    ∃ target summary issue review output,
      boolOr vars "enable-comment-on-issue" ctx.enableCommentOnIssue = .ok issue ∧
        boolOr vars "enable-pull-request-review" ctx.enablePullRequestReview = .ok review ∧
        ctx' = { ctx with
          target := target
          enableStepSummary := summary
          enableCommentOnIssue := issue
          enablePullRequestReview := review
          enableActionOutput := output } := by
  unfold ProgramOptions.fillContext at h
  obtain ⟨_, -, h⟩ := bind_eq_ok.mp h
  obtain ⟨target, -, h⟩ := bind_eq_ok.mp h
  obtain ⟨summary, -, h⟩ := bind_eq_ok.mp h
  obtain ⟨issue, hissue, h⟩ := bind_eq_ok.mp h
  obtain ⟨review, hreview, h⟩ := bind_eq_ok.mp h
  obtain ⟨output, -, h⟩ := bind_eq_ok.mp h
  cases h
  exact ⟨target, summary, issue, review, output, hissue, hreview, rfl⟩

/-! ## The environment -/

/-- A report to the pull request is asked for. -/
def RuntimeContext.Reports (ctx : RuntimeContext) : Prop :=
  ctx.enableCommentOnIssue = true ∨ ctx.enablePullRequestReview = true

/-- `fill_context` of the environment sets the members of the repository and
the event, and the number of the pull request where it is needed. -/
theorem Github.fillContext_eq_ok {env : GithubEnv} {ctx ctx' : RuntimeContext}
    (h : Github.fillContext env ctx = .ok ctx') :
    ∃ prNumber,
      (env.eventName ∈ githubEventsWithPrNumber → ctx.Reports →
        parsePrNumber env.githubRef = .ok prNumber) ∧
      ctx' = { ctx with
        repoPath := env.workspace
        eventName := env.eventName
        source := env.githubSha
        token := env.token
        repoPair := env.repository
        prNumber := prNumber } := by
  unfold Github.fillContext at h
  dsimp only at h
  split at h
  · obtain ⟨prNumber, hprNumber, h⟩ := bind_eq_ok.mp h
    cases h
    exact ⟨prNumber, fun _ _ => hprNumber, rfl⟩
  · rename_i hneeds
    cases h
    refine ⟨ctx.prNumber, fun hevent hreports => ?_, rfl⟩
    refine absurd ?_ hneeds
    rw [Bool.and_eq_true, Bool.or_eq_true, List.contains_iff_mem]
    exact ⟨hevent, hreports⟩

/-! ## The tools -/

theorem ClangFormat.createTool_fresh {host : Host} {vars : VariablesMap}
    {tool : ClangFormat.ClangFormatGeneral} (h : ClangFormat.createTool host vars = .ok (some tool)) :
    (ToolBase.clangFormat tool).Fresh := by
  unfold ClangFormat.createTool at h
  obtain ⟨option, -, h⟩ := bind_eq_ok.mp h
  split at h
  · cases h
    rfl
  · cases h

theorem ClangTidy.createTool_fresh {host : Host} {vars : VariablesMap}
    {tool : ClangTidy.ClangTidyGeneral} (h : ClangTidy.createTool host vars = .ok (some tool)) :
    (ToolBase.clangTidy tool).Fresh := by
  unfold ClangTidy.createTool at h
  obtain ⟨option, -, h⟩ := bind_eq_ok.mp h
  split at h
  · cases h
    rfl
  · cases h

variable {σ : Type} {runner : Runner σ}

/-- No tool has a result before it is run. -/
theorem createEnabledTools_fresh {vars : VariablesMap} {tools : List (Host × ToolBase)}
    (h : createEnabledTools runner vars = .ok tools) : ∀ entry ∈ tools, entry.2.Fresh := by
  unfold createEnabledTools at h
  obtain ⟨format, hformat, h⟩ := bind_eq_ok.mp h
  obtain ⟨tidy, htidy, h⟩ := bind_eq_ok.mp h
  cases h
  intro entry hentry
  rcases List.mem_append.mp hentry with hentry | hentry
  · obtain ⟨tool, htool, rfl⟩ := Option.map_eq_some_iff.mp (Option.mem_toList.mp hentry)
    subst htool
    exact ClangFormat.createTool_fresh hformat
  · obtain ⟨tool, htool, rfl⟩ := Option.map_eq_some_iff.mp (Option.mem_toList.mp hentry)
    subst htool
    exact ClangTidy.createTool_fresh htidy

/-! ## The reporting phase is reached -/

/-- What holds when the reporting phase is reached with a context and
reporters, on the options `vars`. -/
structure Prepared (runner : Runner σ) (vars : VariablesMap) (context : RuntimeContext)
    (reporters : List ReporterBase) : Prop where
  env : checkEnv (githubEnv runner.getenv) = .ok ()
  issue : context.enableCommentOnIssue = true →
    vars.lookup "enable-comment-on-issue" = some (.boolean true)
  review : context.enablePullRequestReview = true →
    vars.lookup "enable-pull-request-review" = some (.boolean true)
  eventName : context.eventName = (githubEnv runner.getenv).eventName
  prNumber : context.eventName ∈ githubEventsWithPrNumber → context.Reports →
    parsePrNumber (githubEnv runner.getenv).githubRef = .ok context.prNumber
  onSource : checkRepoIsOnSource runner.git context = .ok ()
  sound : ∀ r ∈ reporters, r.Sound context

theorem prepare_reporting {args : List String} {vars : VariablesMap} {context : RuntimeContext}
    {reporters : List ReporterBase} (hvars : parse args allOptions = .ok vars)
    (h : prepare runner args = .ok (.reporting context reporters)) :
    Prepared runner vars context reporters := by
  unfold prepare at h
  rw [hvars] at h
  dsimp only [bind, Except.bind] at h
  split at h
  · cases h
  split at h
  · cases h
  obtain ⟨_, -, h⟩ := bind_eq_ok.mp h
  obtain ⟨tools, htools, h⟩ := bind_eq_ok.mp h
  obtain ⟨ctx₁, hctx₁, h⟩ := bind_eq_ok.mp h
  obtain ⟨env, henv, h⟩ := bind_eq_ok.mp h
  obtain ⟨ctx₂, hctx₂, h⟩ := bind_eq_ok.mp h
  obtain ⟨ctx₃, hctx₃, h⟩ := bind_eq_ok.mp h
  obtain ⟨_, honSource, h⟩ := bind_eq_ok.mp h
  obtain ⟨reporters', hreporters, h⟩ := bind_eq_ok.mp h
  cases h
  obtain ⟨_, hchecked, henv⟩ := bind_eq_ok.mp henv
  cases henv
  obtain ⟨diff, -, hfilled⟩ := fillGitInfo_eq_ok hctx₃
  have hsound := (runTools_guarantees hfilled (createEnabledTools_fresh htools)).of_ok hreporters
  obtain ⟨_, _, issue, review, _, hissue, hreview, rfl⟩ := ProgramOptions.fillContext_eq_ok hctx₁
  obtain ⟨prNumber, hprNumber, rfl⟩ := Github.fillContext_eq_ok hctx₂
  obtain ⟨_, _, _, _, -, -, -, -, -, rfl⟩ := fillGitInfo_reads hctx₃
  refine ⟨hchecked, fun htrue => ?_, fun htrue => ?_, rfl, hprNumber, honSource, hsound⟩
  · have hlookup := (boolOr_eq_ok hissue).resolve_left (by simpa using htrue)
    rwa [show issue = true from htrue] at hlookup
  · have hlookup := (boolOr_eq_ok hreview).resolve_left (by simpa using htrue)
    rwa [show review = true from htrue] at hlookup

end CppLint
