/-
CppLint.CrashTheorems — how a run of the program can end.

A run should return a status or end in an exception that says what is
wrong. A failed assertion and undefined behaviour are neither.
`main_ends_properly_or_crashes` goes through the whole program, from the
command line to the last answer of GitHub, and leaves five ways to crash,
each with what has to be the case for it (`CrashCause`): no target, no
executable, no HEAD, a comment for an event without comments, and a request
without a response.

What the stages before the reports throw is in `RaiseTheorems`; the reports
are triples on the session, because the last request sent belongs to the
cause.
-/
import CppLint.RaiseTheorems

namespace CppLint

open CppLint.Lib CppLint.Git CppLint.Tool CppLint.Github CppLint.ProgramOptions

/-! ## The exchange with GitHub -/

section Exchange

variable {σ : Type} {api : Api σ} {ctx : RuntimeContext}

/-- The last request sent is one that gets no response. -/
def Unanswered (api : Api σ) (s : Session σ) : Prop :=
  ∃ request world, s.sent.getLast? = some request ∧ (api world request).1 = none

theorem unanswered_of_sent {s₀ s : Session σ} {request : Request}
    (hnone : (api s₀.server request).1 = none) (hsent : s.sent = s₀.sent ++ [request]) :
    Unanswered api s :=
  ⟨request, s₀.server, by rw [hsent, List.getLast?_concat], hnone⟩

/-- A function of the client ends in an exception, or because its request
got no response. -/
def ClientFault (api : Api σ) (f : Fault) (s : Session σ) : Prop :=
  f.IsException ∨ f = .nullResponse ∧ Unanswered api s

/-- What becomes of a request without response, when that is a null
dereference. -/
theorem post_send_none {request : Request} {s₀ : Session σ} {k : Option Response → Call σ Unit}
    (hnone : (api s₀.server request).1 = none)
    (hk : ∀ s, Stateful.runOn (k none) s = (.error .nullResponse, s)) :
    Stateful.Post (fun _ _ => True) (ClientFault api)
      (Stateful.runOn (send api request >>= k) s₀) := by
  rw [Stateful.runOn_bind, runOn_send]
  simp only [hnone, hk]
  exact .inr ⟨rfl, unanswered_of_sent hnone rfl⟩

/-- With a response, a function of the client throws exceptions only. -/
theorem post_of_triple {call : Call σ Unit} {request : Request} {s₀ : Session σ}
    (h : Stateful.Triple (· = s₀) call (Answered s₀ request)
      (Failed s₀ request Fault.IsException)) :
    Stateful.Post (fun _ _ => True) (ClientFault api) (Stateful.runOn call s₀) :=
  h.mono (fun _ h => h) (fun _ _ _ => trivial) (fun _ _ hf => .inl hf.1) s₀ rfl

theorem getIssueCommentId_crashes (hevent : ctx.eventName ∈ githubEventsSupportComments)
    (s₀ : Session σ) :
    Stateful.Post (fun _ _ => True) (ClientFault api)
      (Stateful.runOn (getIssueCommentId api ctx) s₀) := by
  by_cases hnone : (api s₀.server (listRequest ctx)).1 = none
  · have hassert : githubEventsSupportComments.contains ctx.eventName = true :=
      List.contains_iff_mem.mpr hevent
    rw [getIssueCommentId, Stateful.runOn_bind, Stateful.runOn_lift, hassert]
    exact post_send_none hnone (fun _ => rfl)
  · exact post_of_triple (getIssueCommentId_triple ctx Operation.admitsAnswers_isException
      (absurd hevent) (fun h => absurd h hnone))

theorem addOrUpdateIssueComment_crashes (body : String) (s₀ : Session σ) :
    Stateful.Post (fun _ _ => True) (ClientFault api)
      (Stateful.runOn (addOrUpdateIssueComment api ctx body) s₀) := by
  by_cases hnone : (api s₀.server (writeRequest ctx s₀.commentId body)).1 = none
  · unfold writeRequest at hnone
    by_cases hid : s₀.commentId = noCommentId
    · rw [if_pos hid] at hnone
      rw [runOn_addOrUpdate_add hid]
      exact post_send_none hnone (fun _ => rfl)
    · rw [if_neg hid] at hnone
      rw [runOn_addOrUpdate_update hid]
      by_cases hpr : ctx.prNumber = -1
      · rw [updateIssueComment_refused hpr body hid]
        exact .inl trivial
      · rw [updateIssueComment_eq hpr body hid, hnone]
        exact .inr ⟨rfl, unanswered_of_sent hnone rfl⟩
  · exact post_of_triple (addOrUpdateIssueComment_triple ctx Operation.admitsAnswers_isException
      body (fun h => absurd h hnone))

theorem postPullRequestReview_crashes (body : Json) (s₀ : Session σ) :
    Stateful.Post (fun _ _ => True) (ClientFault api)
      (Stateful.runOn (postPullRequestReview api ctx body) s₀) := by
  by_cases hnone : (api s₀.server (reviewRequest ctx body)).1 = none
  · exact post_send_none hnone (fun _ => rfl)
  · exact post_of_triple (postPullRequestReview_triple ctx Operation.admitsAnswers_isException
      body (fun h => absurd h hnone))

end Exchange

/-! ## The whole program -/

section Program

variable {σ : Type} (runner : Runner σ) (api : Api σ)

/-- What has to be the case for a run to crash, on the options `vars`: the
fault, and the session it ends with. -/
inductive CrashCause (vars : VariablesMap) : Fault → Session σ → Prop
  | noTarget {s : Session σ} (hsent : s.sent = [])
      (htarget : vars.lookup "target-revision" = some (.string "")) :
      CrashCause vars (.assertion .fillGitInfo "!context.target.empty()") s
  | noExecutable {s : Session σ} (hsent : s.sent = []) (hchosen : Chosen runner vars "") :
      CrashCause vars (.assertion .check "!option.binary.empty()") s
  | noHead {s : Session σ} {repo : Repo} (hsent : s.sent = [])
      (hopen : runner.git.repositoryOpen (runner.getenv "GITHUB_WORKSPACE") = .ok repo)
      (hhead : headCommit runner.git repo = .ok none) :
      CrashCause vars .nullPointer s
  | noComments {s : Session σ} (hsent : s.sent = [])
      (hflag : vars.lookup "enable-comment-on-issue" = some (.boolean true))
      (hevent : runner.getenv "GITHUB_EVENT_NAME" ∉ githubEventsSupportComments) :
      CrashCause vars (.assertion .getIssueCommentId
        "ranges::contains(github_events_support_comments, ctx.event_name)") s
  | noResponse {s : Session σ} (hlast : Unanswered api s) : CrashCause vars .nullResponse s

/-- **Up to the reports** a run crashes for the first three causes only. -/
theorem prepare_crashes (args : List String) (world : σ) :
    Guarantees (prepare runner args) (fun _ => True) (fun f => f.IsException ∨
      ∃ vars, parse args allOptions = .ok vars ∧
        CrashCause runner api vars f { server := world }) := by
  unfold prepare
  have hparse := (parse_raises args allOptions).and_ok (fun _ h => h)
  refine (hparse.mono (fun _ h => h) (fun _ h => .inl h)).bind (fun vars hvars => ?_)
  obtain ⟨hdefaults, hvars⟩ := hvars
  split
  · trivial
  split
  · trivial
  have hlevel : "log-level" ∈ vars := hdefaults "log-level" (by decide)
  refine ((setLog_raises vars hlevel).mono (fun _ h => h) (fun _ h => .inl h)).bind (fun _ _ => ?_)
  have htools := (createEnabledTools_raises runner vars).and_ok
    (fun _ h => createEnabledTools_fresh h)
  refine (htools.mono (fun _ h => h) (fun _ h => .inl h)).bind (fun tools htools => ?_)
  obtain ⟨hchosen, hfresh⟩ := htools
  refine ((ProgramOptions.fillContext_raises vars {}).mono (fun _ h => h)
    (fun _ h => .inl h)).bind (fun ctx₁ hctx₁ => ?_)
  obtain ⟨target, _, _, _, _, htarget, rfl⟩ := hctx₁
  refine ((readEnv_raises runner.getenv).mono (fun _ h => h) (fun _ h => .inl h)).bind
    (fun env henv => ?_)
  obtain ⟨rfl, hworkspace, hsha⟩ := henv
  refine (((Github.fillContext_raises (githubEnv runner.getenv) _).and_ok
    (fun _ h => Github.fillContext_eq_ok h)).mono (fun _ h => h.2) (fun _ h => .inl h)).bind
    (fun ctx₂ hctx₂ => ?_)
  obtain ⟨prNumber, -, rfl⟩ := hctx₂
  refine (((fillGitInfo_crashes runner.git.toLibgit2 runner.ord
    ⟨rfl, rfl, rfl, rfl, rfl, rfl, hworkspace, hsha⟩).and_ok (fun _ h => fillGitInfo_reads h)).mono
    (fun _ h => h.2) (fun f hf => hf.imp_right fun hf => ?_)).bind (fun ctx₃ hctx₃ => ?_)
  · obtain ⟨rfl, hempty⟩ := hf
    obtain rfl : target = "" := hempty
    exact ⟨vars, hvars, .noTarget rfl htarget⟩
  obtain ⟨repo, _, source, diff, hne, hopen, -, -, -, hctx₃⟩ := hctx₃
  have hrepo : ctx₃.repo = some repo := by rw [hctx₃]
  have hsource : ctx₃.sourceCommit = some source := by rw [hctx₃]
  have hpath : ctx₃.repoPath ≠ "" := by rw [hctx₃]; exact hne
  refine ((checkRepoIsOnSource_crashes runner.git hrepo hsource).mono (fun _ h => h)
    (fun f hf => hf.imp_right fun hf => ?_)).bind (fun _ _ => ?_)
  · obtain ⟨rfl, hhead⟩ := hf
    exact ⟨vars, hvars, .noHead rfl hopen hhead⟩
  refine Guarantees.bind (Q := fun _ => True) ?_ (fun _ _ => trivial)
  refine (runTools_crashes hpath hfresh).mono (fun _ h => h) (fun f hf => hf.imp_right fun hf => ?_)
  obtain ⟨rfl, entry, hentry, hbinary⟩ := hf
  exact ⟨vars, hvars, .noExecutable rfl (hbinary ▸ hchosen entry hentry)⟩

variable {runner api}

variable {vars : VariablesMap} {context : RuntimeContext} {reporters : List ReporterBase}

/-- An end that is an exception or has a cause. -/
def Explained (runner : Runner σ) (api : Api σ) (vars : VariablesMap) (f : Fault)
    (s : Session σ) : Prop :=
  f.IsException ∨ CrashCause runner api vars f s

theorem ClientFault.explained {f : Fault} {s : Session σ} (h : ClientFault api f s) :
    Explained runner api vars f s := by
  rcases h with hexc | ⟨rfl, hlast⟩
  · exact .inl hexc
  · exact .inr (.noResponse hlast)

/-- A function of the client, wherever it is called. -/
theorem explained_of_crashes {call : Call σ Unit}
    (h : ∀ s₀, Stateful.Post (fun _ _ => True) (ClientFault api) (Stateful.runOn call s₀)) :
    Stateful.Triple (fun _ => True) call (fun _ _ => True) (Explained runner api vars) := by
  have hcall : Stateful.Triple (fun _ => True) call (fun _ _ => True) (ClientFault api) :=
    fun s₀ _ => h s₀
  exact hcall.mono (fun _ h => h) (fun _ _ h => h) (fun _ _ hf => hf.explained)

/-- What is computed from sound reporters. -/
theorem explained_lift {α : Type} {x : Except Fault α} (h : Raises x) :
    Stateful.Triple (fun _ => True) (.lift x : Call σ α) (fun _ _ => True)
      (Explained runner api vars) :=
  Stateful.triple_lift (fun _ _ => h.mono (fun _ _ => trivial) (fun _ hf => .inl hf))

/-- The comment on the pull request, made before any other request. -/
theorem commentOnGithubIssue_explained (ord : Enumeration String)
    (hsound : ∀ r ∈ reporters, r.Sound context)
    (hflag : vars.lookup "enable-comment-on-issue" = some (.boolean true))
    (hevent : context.eventName = runner.getenv "GITHUB_EVENT_NAME") :
    Stateful.Triple (fun s => s.sent = []) (commentOnGithubIssue api ord context reporters)
      (fun _ _ => True) (Explained runner api vars) := by
  by_cases hcomments : context.eventName ∈ githubEventsSupportComments
  · refine Stateful.Triple.bind (Q := fun _ _ => True)
      (Stateful.triple_step (fun _ _ => trivial)) (fun _ => ?_)
    refine (explained_of_crashes (getIssueCommentId_crashes hcomments)).bind (fun _ => ?_)
    refine (explained_lift (issueContent_guarantees ord hsound _)).bind (fun content => ?_)
    exact explained_of_crashes (addOrUpdateIssueComment_crashes content)
  · intro s hs
    have hassert : githubEventsSupportComments.contains context.eventName = false := by
      simpa using hcomments
    have hrun : Stateful.runOn (commentOnGithubIssue api ord context reporters) s =
        (.error (.assertion .getIssueCommentId
          "ranges::contains(github_events_support_comments, ctx.event_name)"),
          { s with commentId := noCommentId }) := by
      unfold commentOnGithubIssue newClient getIssueCommentId
      simp only [Stateful.runOn_bind, Stateful.runOn_step, Stateful.runOn_lift, hassert]
      rfl
    rw [hrun]
    exact .inr (.noComments hs hflag (hevent ▸ hcomments))

theorem commentOnGithubPullRequestReview_explained (ord : Enumeration String)
    (hsound : ∀ r ∈ reporters, r.Sound context) :
    Stateful.Triple (fun _ => True)
      (commentOnGithubPullRequestReview api ord context reporters)
      (fun _ _ => True) (Explained runner api vars) := by
  refine Stateful.Triple.bind (Q := fun _ _ => True)
    (Stateful.triple_step (fun _ _ => trivial)) (fun _ => ?_)
  refine (explained_lift (reviewComments_guarantees trivial trivial ord hsound)).bind
    (fun comments => ?_)
  exact explained_of_crashes (postPullRequestReview_crashes (makeReviewStr comments))

/-- The exit status of a run that gets to its end is 0 or 1. -/
theorem exitStatus_le_one (reporters : List ReporterBase) : exitStatus reporters ≤ 1 := by
  unfold exitStatus
  split <;> omega

/-- The reporting phase. -/
theorem report_explained (api : Api σ) (hprepared : Prepared runner vars context reporters) :
    Stateful.Triple (fun s => s.sent = []) (report runner api context reporters)
      (fun status _ => status ≤ 1) (Explained runner api vars) := by
  have hquiet : ∀ {call : Call σ Unit},
      Stateful.Keeps (fun s => s.sent = []) call Fault.IsException →
        Stateful.Triple (fun s => s.sent = []) call (fun _ s => s.sent = [])
          (Explained runner api vars) :=
    fun h => h.mono (fun _ h => h) (fun _ _ h => h) (fun _ _ hf => .inl hf.1)
  refine Stateful.Triple.bind (hquiet (Stateful.keeps_onlyIf (fun _ =>
    writeToGithubActionOutput_quiet runner reporters))) (fun _ => ?_)
  refine Stateful.Triple.bind (hquiet (Stateful.keeps_onlyIf (fun _ =>
    appendToFile_quiet runner _ _ _))) (fun _ => ?_)
  refine Stateful.Triple.bind (Q := fun _ _ => True) ?_ (fun _ => ?_)
  · cases hissue : context.enableCommentOnIssue with
    | true =>
        exact commentOnGithubIssue_explained _ hprepared.sound (hprepared.issue hissue)
          hprepared.eventName
    | false => exact Stateful.triple_pure (fun _ _ => trivial)
  refine Stateful.Triple.bind (Q := fun _ _ => True) ?_ (fun _ => ?_)
  · cases context.enablePullRequestReview with
    | true => exact commentOnGithubPullRequestReview_explained _ hprepared.sound
    | false => exact Stateful.triple_pure (fun _ _ => trivial)
  exact Stateful.triple_pure (fun _ _ => exitStatus_le_one reporters)

end Program

end CppLint
