/-
CppLint.MainTheorems — which requests a run of the program makes.

A request to GitHub names the pull request of the context, and the first one
of a comment asserts that the event has comments. Neither is checked where
the reports are called: whether they are called depends on the flags of the
options, and whether the number is read on the event as well.

`report_proper` is the argument once for the reporting phase: as long as a
context that reports is entitled to (`Entitled`), every request sent is
about its pull request and the assertion holds. `main_reportsProperly` puts
it together with the start-up, for every run whose options and environment
meet `MayReport`. The phase itself is the one of `lintAndReport`, after the
two files (`runOn_report_eq_lintAndReport`).
-/
import CppLint.StartUpTheorems

namespace CppLint

open CppLint.Lib CppLint.Git CppLint.Tool CppLint.Github CppLint.ProgramOptions

/-! ## Requests about a pull request -/

/-- The number of the pull request a path is built with. -/
def Github.Endpoint.prNumber? : Endpoint → Option Int
  | .issueComments _ prNumber => some prNumber
  | .issueComment _ _ => none
  | .pullReviews _ prNumber => some prNumber

/-- The event has comments, and the context has the number of the ref. -/
structure Entitled (env : GithubEnv) (context : RuntimeContext) : Prop where
  event : env.eventName ∈ githubEventsSupportComments
  parsed : parsePrNumber env.githubRef = .ok context.prNumber
  known : context.prNumber ≠ -1

/-- Every request that was sent was sent in an entitled context, and about
its pull request. -/
def SentProperly {σ : Type} (env : GithubEnv) (context : RuntimeContext) (s : Session σ) : Prop :=
  ∀ request ∈ s.sent, Entitled env context ∧
    ∀ prNumber, request.endpoint.prNumber? = some prNumber → prNumber = context.prNumber

/-- The fault is not the assertion of `get_issue_comment_id`. -/
def NotOurAssertion (f : Fault) : Prop := ∀ expr, f ≠ .assertion .getIssueCommentId expr

theorem admitsAnswers_notOurAssertion : AdmitsAnswers NotOurAssertion := by
  constructor <;> intro what expr h <;> cases h

section Reporting

variable {σ : Type} {api : Api σ} {runner : Runner σ} {env : GithubEnv} {context : RuntimeContext}
  {reporters : List ReporterBase}

/-- A run of the reporting phase, or of a part of it. -/
abbrev Proper (env : GithubEnv) (context : RuntimeContext) {α : Type} (call : Call σ α) : Prop :=
  Stateful.Keeps (SentProperly env context) call NotOurAssertion

/-- A member function of the client whose request is about the pull request
of an entitled context. -/
theorem proper_of_triple (hentitled : Entitled env context) {call : Call σ Unit}
    (request : Session σ → Request)
    (h : ∀ s₀, Stateful.Triple (· = s₀) call (Answered s₀ (request s₀))
      (Failed s₀ (request s₀) NotOurAssertion))
    (habout : ∀ s prNumber, (request s).endpoint.prNumber? = some prNumber →
      prNumber = context.prNumber) : Proper env context call := by
  intro s hs
  have hsent : ∀ s' : Session σ, s'.sent = s.sent ++ [request s] → SentProperly env context s' := by
    intro s' hs' r hr
    rw [hs'] at hr
    rcases List.mem_append.mp hr with hr | hr
    · exact hs r hr
    · rw [List.mem_singleton.mp hr]
      exact ⟨hentitled, habout s⟩
  refine (h s).mono (fun _ h => h) (fun _ s' hs' => hsent s' hs') (fun f s' hf => ?_) s rfl
  refine ⟨hf.1, ?_⟩
  rcases hf.2.2 with hsame | hmore
  · intro r hr
    rw [hsame] at hr
    exact hs r hr
  · exact hsent s' hmore

theorem newClient_proper : Proper env context (newClient : Call σ Unit) :=
  Stateful.keeps_step (fun _ hs => hs)

/-- The comment on the pull request. -/
theorem commentOnGithubIssue_proper (hentitled : Entitled env context)
    (hevent : context.eventName = env.eventName) (hsound : ∀ r ∈ reporters, r.Sound context)
    (ord : Enumeration String) :
    Proper env context (commentOnGithubIssue api ord context reporters) := by
  refine newClient_proper.bind (fun _ => ?_)
  have hlist : Proper env context (getIssueCommentId api context) := by
    refine proper_of_triple hentitled (fun _ => listRequest context) (fun s₀ => ?_) ?_
    · refine getIssueCommentId_triple context admitsAnswers_notOurAssertion (fun hno => ?_)
        (fun _ _ => by simp)
      exact absurd (hevent ▸ hentitled.event) hno
    · rintro s prNumber ⟨⟩
      rfl
  refine hlist.bind (fun _ => ?_)
  refine (Stateful.keeps_lift (issueContent_guarantees ord hsound _)).bind (fun content => ?_)
  refine proper_of_triple hentitled
    (fun s => writeRequest context s.commentId content) (fun s₀ => ?_) ?_
  · exact addOrUpdateIssueComment_triple context admitsAnswers_notOurAssertion content
      (fun _ _ => by simp)
  · intro s prNumber hprNumber
    unfold writeRequest at hprNumber
    split at hprNumber
    · cases hprNumber
      rfl
    · cases hprNumber

/-- The review of the pull request. -/
theorem commentOnGithubPullRequestReview_proper (hentitled : Entitled env context)
    (hsound : ∀ r ∈ reporters, r.Sound context) (ord : Enumeration String) :
    Proper env context (commentOnGithubPullRequestReview api ord context reporters) := by
  refine newClient_proper.bind (fun _ => ?_)
  have hcomments := reviewComments_guarantees (E := NotOurAssertion) (fun _ => by simp)
    (fun _ => by simp) ord hsound
  refine (Stateful.keeps_lift hcomments).bind (fun comments => ?_)
  refine proper_of_triple hentitled
    (fun _ => reviewRequest context (makeReviewStr comments)) (fun s₀ => ?_) ?_
  · exact postPullRequestReview_triple context admitsAnswers_notOurAssertion _ (fun _ _ => by simp)
  · rintro s prNumber ⟨⟩
    rfl

/-- A report to a file sends nothing. -/
theorem appendToFile_proper (file text message : String) :
    Proper env context (appendToFile runner file text message) := by
  refine Stateful.Keeps.bind (Stateful.keeps_step (fun s hs => ?_)) (fun opened => ?_)
  · cases runner.append s.server file text with
    | none => exact hs
    | some server => exact hs
  · refine Stateful.keeps_lift ((throwUnless_guarantees (fun expr h => ?_)).mono
      (fun _ _ => trivial) (fun _ h => h))
    cases h

theorem writeToGithubActionOutput_proper (reporters : List ReporterBase) :
    Proper env context (writeToGithubActionOutput runner reporters) := by
  induction reporters with
  | nil => exact Stateful.keeps_pure
  | cons reporter reporters ih => exact (appendToFile_proper _ _ _).bind (fun _ => ih)

/-- **The reporting phase.** If a context that reports is entitled to, then
whatever GitHub and the file system answer, the assertion holds and every
request is about the pull request of the context. -/
theorem report_proper (runner : Runner σ) (api : Api σ)
    (hentitled : context.Reports → Entitled env context)
    (hevent : context.eventName = env.eventName) (hsound : ∀ r ∈ reporters, r.Sound context) :
    Proper env context (report runner api context reporters) := by
  refine Stateful.Keeps.bind (Stateful.keeps_onlyIf (fun _ => ?_)) (fun _ => ?_)
  · exact writeToGithubActionOutput_proper reporters
  refine Stateful.Keeps.bind (Stateful.keeps_onlyIf (fun _ => ?_)) (fun _ => ?_)
  · exact appendToFile_proper _ _ _
  refine Stateful.Keeps.bind (Stateful.keeps_onlyIf (fun hissue => ?_)) (fun _ => ?_)
  · exact commentOnGithubIssue_proper (hentitled (.inl hissue)) hevent hsound _
  refine Stateful.Keeps.bind (Stateful.keeps_onlyIf (fun hreview => ?_)) (fun _ => ?_)
  · exact commentOnGithubPullRequestReview_proper (hentitled (.inr hreview)) hsound _
  exact Stateful.keeps_pure

end Reporting

/-- Without the two files, the reporting phase is that of `lintAndReport`
on the context `fill_git_info` is given. -/
theorem runOn_report_eq_lintAndReport {σ : Type} (runner : Runner σ) (api : Api σ)
    {start context : RuntimeContext} {tools : List (Host × ToolBase)}
    {reporters : List ReporterBase} (houtput : context.enableActionOutput = false)
    (hsummary : context.enableStepSummary = false)
    (hfill : fillGitInfo runner.git.toLibgit2 runner.ord start = .ok context)
    (htools : runTools tools context = .ok reporters) (s : Session σ) :
    Stateful.runOn (report runner api context reporters) s =
      Stateful.runOn (lintAndReport api runner.ord runner.git.toLibgit2 tools start) s := by
  unfold report lintAndReport
  simp only [Stateful.runOn_bind, Stateful.runOn_lift, hfill, htools, houtput, hsummary,
    Stateful.onlyIf]
  cases context.enableCommentOnIssue <;> cases context.enablePullRequestReview <;>
    simp only [Stateful.runOn_bind, Stateful.runOn_pure, Bool.false_eq_true, reduceIte]

/-- Whatever the surroundings: the comment of an event that has none fails
the assertion. -/
theorem commentOnGithubIssue_asserts {σ : Type} (api : Api σ) (ord : Enumeration String)
    {context : RuntimeContext} (reporters : List ReporterBase) (s : Session σ)
    (hevent : context.eventName ∉ githubEventsSupportComments) :
    (Stateful.runOn (commentOnGithubIssue api ord context reporters) s).1 =
      .error (.assertion .getIssueCommentId
        "ranges::contains(github_events_support_comments, ctx.event_name)") := by
  have hno : githubEventsSupportComments.contains context.eventName = false := by
    simpa using hevent
  unfold commentOnGithubIssue newClient getIssueCommentId
  simp only [Stateful.runOn_bind, Stateful.runOn_step, Stateful.runOn_lift, hno]
  rfl

/-! ## Runs of the program -/

/-- No report to the pull request is asked for, or the event has comments
and the ref does not give the number that stands for none. -/
def MayReport (vars : VariablesMap) (env : GithubEnv) : Prop :=
  (vars.lookup "enable-comment-on-issue" ≠ some (.boolean true) ∧
    vars.lookup "enable-pull-request-review" ≠ some (.boolean true)) ∨
  (env.eventName ∈ githubEventsSupportComments ∧ parsePrNumber env.githubRef ≠ .ok (-1))

/-- The run does not fail the assertion of `get_issue_comment_id`, and every
request it makes is made in an entitled context and about its pull
request. -/
def ReportsProperly {σ : Type} (env : GithubEnv) (context : RuntimeContext)
    (run : Except Fault Nat × Session σ) : Prop :=
  (∀ expr, run.1 ≠ .error (.assertion .getIssueCommentId expr)) ∧ SentProperly env context run.2

/-- A context that reports is entitled to if its options and environment
are as they should be. -/
theorem Prepared.entitled {σ : Type} {runner : Runner σ} {vars : VariablesMap}
    {context : RuntimeContext} {reporters : List ReporterBase}
    (hprepared : Prepared runner vars context reporters)
    (hmay : MayReport vars (githubEnv runner.getenv)) (hreports : context.Reports) :
    Entitled (githubEnv runner.getenv) context := by
  rcases hmay with ⟨hissue, hreview⟩ | ⟨hevent, hnumber⟩
  · rcases hreports with htrue | htrue
    · exact absurd (hprepared.issue htrue) hissue
    · exact absurd (hprepared.review htrue) hreview
  · -- the events with a number are those with comments
    have hwithNumber : context.eventName ∈ githubEventsWithPrNumber := hprepared.eventName ▸ hevent
    have hparsed := hprepared.prNumber hwithNumber hreports
    exact ⟨hevent, hparsed, fun hnone => hnumber (hnone ▸ hparsed)⟩

/-- **Every run that reaches the reporting phase** with options and an
environment that meet `MayReport` reports properly, whatever the tools, the
repository, the file system and GitHub answer. -/
theorem main_reportsProperly {σ : Type} (runner : Runner σ) (api : Api σ) (world : σ)
    {args : List String} {vars : VariablesMap} (hvars : parse args allOptions = .ok vars)
    {context : RuntimeContext} {reporters : List ReporterBase}
    (hprepare : prepare runner args = .ok (.reporting context reporters))
    (hmay : MayReport vars (githubEnv runner.getenv)) :
    ReportsProperly (githubEnv runner.getenv) context
      (Stateful.runOn (main runner api args) { server := world }) := by
  have hprepared := prepare_reporting hvars hprepare
  have hreport := report_proper runner api (hprepared.entitled hmay)
    hprepared.eventName hprepared.sound { server := world } (fun r hr => by cases hr)
  have hmain : Stateful.runOn (main runner api args) { server := world } =
      Stateful.runOn (report runner api context reporters) { server := world } := by
    unfold main
    rw [hprepare]
    rfl
  rw [hmain]
  cases hrun : Stateful.runOn (report runner api context reporters) { server := world } with
  | mk r s =>
      rw [hrun] at hreport
      cases r with
      | ok status => exact ⟨fun expr => by simp, hreport⟩
      | error f => exact ⟨fun expr h => hreport.1 expr (Except.error.inj h), hreport.2⟩

/-! ## Two runs -/

/-- The environment of a run on the event and the ref. -/
def actionEnv (eventName ref : String) : String → String
  | "GITHUB_REPOSITORY" => "owner/repo"
  | "GITHUB_TOKEN" => "token"
  | "GITHUB_EVENT_NAME" => eventName
  | "GITHUB_REF" => ref
  | "GITHUB_SHA" => "ffac537e6cbbf934b08745a378932722df287a53"
  | "GITHUB_WORKSPACE" => "/repo"
  | _ => ""

/-- A repository without changes that is on the source commit. -/
def actionRunner (eventName ref : String) : Runner Unit where
  getenv := actionEnv eventName ref
  git := { Libgit2.always [] with
    repositoryHead := fun _ => .ok ⟨0⟩
    referencePeel := fun _ => .ok ⟨0, "ffac537e6cbbf934b08745a378932722df287a53"⟩ }
  ord := .stored String
  clangFormatHost := quietHost 0
  clangTidyHost := quietHost 0
  append := fun world _ _ => some world

/-- A command line without tools; the comment is left at its default. -/
def toolless : List String :=
  ["--target-revision=main", "--enable-clang-format=false", "--enable-clang-tidy=false",
   "--enable-step-summary=false", "--enable-action-output=false"]

/-- The start-up reaches the reporting phase. -/
def reaches : Except Fault StartUp → Bool
  | .ok (.reporting _ _) => true
  | _ => false

theorem exists_of_reaches {x : Except Fault StartUp} (h : reaches x = true) :
    ∃ context reporters, x = .ok (.reporting context reporters) := by
  unfold reaches at h
  split at h
  · exact ⟨_, _, rfl⟩
  · cases h

/-- A run on a pull request, which comments on it. -/
theorem main_reportsProperly_pullRequest :
    ∃ context reporters,
      prepare (actionRunner "pull_request" "refs/pull/7/merge") toolless
          = .ok (.reporting context reporters) ∧
        ReportsProperly (githubEnv (actionEnv "pull_request" "refs/pull/7/merge")) context
          (Stateful.runOn (main (actionRunner "pull_request" "refs/pull/7/merge") (listing [])
            toolless) { server := () }) := by
  obtain ⟨context, reporters, hprepare⟩ := exists_of_reaches (x :=
    prepare (actionRunner "pull_request" "refs/pull/7/merge") toolless) (by decide +kernel)
  obtain ⟨vars, hvars, -⟩ := bind_eq_ok.mp hprepare
  refine ⟨context, reporters, hprepare, ?_⟩
  refine main_reportsProperly (actionRunner "pull_request" "refs/pull/7/merge") (listing []) ()
    hvars hprepare (.inr ⟨?_, ?_⟩)
  · decide
  · decide

/-- A run on a push: the comment is asked for, and the event has none. -/
theorem not_reportsProperly_push :
    ∃ context reporters,
      prepare (actionRunner "push" "refs/heads/main") toolless
          = .ok (.reporting context reporters) ∧
        ¬ ReportsProperly (githubEnv (actionEnv "push" "refs/heads/main")) context
          (Stateful.runOn (main (actionRunner "push" "refs/heads/main") (listing []) toolless)
            { server := () }) := by
  obtain ⟨context, reporters, hprepare⟩ := exists_of_reaches (x :=
    prepare (actionRunner "push" "refs/heads/main") toolless) (by decide +kernel)
  refine ⟨context, reporters, hprepare, fun hproper => ?_⟩
  refine hproper.1 "ranges::contains(github_events_support_comments, ctx.event_name)" ?_
  decide +kernel

end CppLint
