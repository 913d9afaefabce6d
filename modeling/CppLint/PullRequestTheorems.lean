/-
CppLint.PullRequestTheorems — the whole program on a pull request, again and
again.

`Thread` is about the part of the client that writes the comment, in runs
that complete. A `ProgramRun` is the program itself for that pull request:
any command line, any surroundings, and every way to end, the failed ones
included; only its comments have to go to this pull request. Between the
runs, and in the middle of one, others write.

The program refines the thread: a run does nothing to it, or reads it and
fails, when the comments of others have come in, or is one run of the client
with the text of its report (`report_leads`). So whatever order runs and
comments come in, what happens to the thread is a history of the thread
(`program_refines`), and what is proved of those holds of the program
(`program_keepsOne`).
-/
import CppLint.Github.HistoryTheorems
import CppLint.RaiseTheorems
import CppLint.WriteTheorems

namespace CppLint

open CppLint.Lib CppLint.Git CppLint.Tool CppLint.Github CppLint.ProgramOptions

/-! ## Runs of the program -/

/-- The other side for a whole run: reviews are answered one way or the
other, and leave the thread alone. -/
def Github.Forge.apiWith (forge : Forge) (reviews : ForgeState → Request → Option Response) :
    Api ForgeState := fun state request =>
  match request.endpoint with
  | .pullReviews _ _ => (reviews state request, state)
  | _ => forge.api state request

/-- A run of the program: what it is given, what it finds, the comments of
others that come in once it has read the list. The files it writes are not
the thread, and if it comments, it is for the pull request of the forge. -/
structure ProgramRun (forge : Forge) where
  runner : Runner ForgeState
  args : List String
  reviews : ForgeState → Request → Option Response
  arriving : Thread
  append_eq : ∀ {state file text state'}, runner.append state file text = some state' →
    state' = state
  serves : ∀ {context reporters}, prepare runner args = .ok (.reporting context reporters) →
    context.enableCommentOnIssue = true → forge.Serves context

variable {forge : Forge}

/-- How the run ends, from a thread. -/
def ProgramRun.result (run : ProgramRun forge) (t : Thread) :
    Except Fault Nat × Session ForgeState :=
  Stateful.runOn (main run.runner (forge.apiWith run.reviews) run.args)
    { server := ⟨t, run.arriving⟩ }

/-- The text the run has for the comment, if it gets as far. -/
def ProgramRun.report? (run : ProgramRun forge) : Option String :=
  match prepare run.runner run.args with
  | .ok (.reporting context reporters) =>
      if context.enableCommentOnIssue then (issueContent run.runner.ord reporters).toOption
      else none
  | _ => none

/-- What can happen to the pull request. -/
inductive ProgramEvent (forge : Forge) where
  | others (c : Comment)
  | run (run : ProgramRun forge)

/-- One event. A run may end in any way. -/
inductive ProgramStep (forge : Forge) : Thread → ProgramEvent forge → Thread → Prop
  | others {t : Thread} {c : Comment} (hc : FromOthers t [c]) :
      ProgramStep forge t (.others c) (t ++ [c])
  | run {t : Thread} {run : ProgramRun forge} (harriving : FromOthers t run.arriving) :
      ProgramStep forge t (.run run) (run.result t).2.server.thread

/-! ## What is left of a run of the client that fails -/

variable {ctx context : RuntimeContext}

/-- The thread after a run of the client, whether it completes or not. -/
theorem thread_runOnThread (hserves : forge.Serves ctx) (t arriving : Thread) (body : String) :
    (∃ s t', runOnThread forge ctx t arriving body = (.ok (), s) ∧ s.server.thread = t' ∧
        forge.afterRun t arriving body = some t') ∨
      ∃ f s, runOnThread forge ctx t arriving body = (.error f, s) ∧
        s.server.thread = t ++ arriving := by
  cases hafter : forge.afterRun t arriving body with
  | some t' =>
      obtain ⟨s, hrun, hthread⟩ := (runOnThread_eq_ok_iff hserves).mpr hafter
      exact .inl ⟨s, t', hrun, hthread, rfl⟩
  | none =>
      unfold Forge.afterRun at hafter
      split at hafter
      case isTrue => cases hafter
      case isFalse hid =>
        split at hafter
        case isTrue => cases hafter
        case isFalse hmem =>
          -- the comment is not there: 404, and nothing is changed
          have hpost : forge.api ⟨t ++ arriving, []⟩ (updateRequest ctx t.heldId body) =
              (notFound, ⟨t ++ arriving, []⟩) := by
            simp [Forge.api, updateRequest, hserves.repoPair_eq, hmem]
          rw [runOnThread_eq hserves, runOn_addOrUpdate_update hid,
            updateIssueComment_eq hserves.prNumber body hid, hpost]
          exact .inr ⟨_, _, rfl, rfl⟩

/-- Comments of others, one by one. -/
theorem trace_others {h : Github.History} :
    ∀ {arriving : Thread}, FromOthers h.thread arriving →
      Trace (Step forge ctx) h (arriving.map .others)
        { h with thread := h.thread ++ arriving } := by
  intro arriving
  induction arriving using List.reverseRecOn with
  | nil =>
      intro _
      rw [List.append_nil]
      exact .nil
  | append_singleton arriving c ih =>
      rintro ⟨hnodup, hothers⟩
      rw [← List.append_assoc] at hnodup ⊢
      rw [List.map_append]
      refine (ih ⟨?_, fun c' hc' => hothers c' (List.mem_append_left _ hc')⟩).snoc
        (.others ⟨hnodup, fun c' hc' => hothers c' (List.mem_append_right _ hc')⟩)
      rw [ids_append] at hnodup
      exact (List.nodup_append.mp hnodup).1

/-! ## A run of the program is some events of the thread -/

/-- What a run is for the thread: nothing, the comments of others that came
in, or a run of the client with its text. -/
def ProgramRun.Becomes (run : ProgramRun forge) (events : List Event) : Prop :=
  events = [] ∨ events = run.arriving.map .others ∨
    ∃ content, run.report? = some content ∧ events = [.run content run.arriving]

/-- What a run that returns is: its text is in the comment. -/
def ProgramRun.Completes (run : ProgramRun forge) (events : List Event) : Prop :=
  run.Becomes events ∧ ∀ content, run.report? = some content → events = [.run content run.arriving]

/-- The events lead from `h` to the thread of the session. -/
def Leads (forge : Forge) (ctx : RuntimeContext) (h : Github.History) (Admitted : List Event → Prop)
    (s : Session ForgeState) : Prop :=
  ∃ events h', Admitted events ∧ Trace (Step forge ctx) h events h' ∧ h'.thread = s.server.thread

theorem Leads.mono {h : Github.History} {P Q : List Event → Prop} {s : Session ForgeState}
    (hleads : Leads forge ctx h P s) (himp : ∀ events, P events → Q events) :
    Leads forge ctx h Q s := by
  obtain ⟨events, h', hevents, htrace, hthread⟩ := hleads
  exact ⟨events, h', himp _ hevents, htrace, hthread⟩

section Report

variable {run : ProgramRun forge} {h : Github.History} {reporters : List ReporterBase}
  {content : String}

/-- The session at the start of a run. -/
def startSession (h : Github.History) (run : ProgramRun forge) : Session ForgeState :=
  { server := ⟨h.thread, run.arriving⟩ }

/-- Before the comment nothing has happened. -/
theorem leads_start (run : ProgramRun forge) {P : List Event → Prop} (hnothing : P []) :
    Leads forge ctx h P (startSession h run) := ⟨[], h, hnothing, .nil, rfl⟩

theorem ProgramRun.becomes_nil : run.Becomes [] := .inl rfl

/-- The files leave the session as it is. -/
theorem appendToFile_session (file text message : String) {s₀ : Session ForgeState} :
    Stateful.Keeps (· = s₀) (appendToFile run.runner file text message) (fun _ => True) := by
  refine Stateful.Keeps.bind (Stateful.keeps_step ?_) (fun opened => ?_)
  · rintro s rfl
    cases happend : run.runner.append s.server file text with
    | none => rfl
    | some server =>
        rw [run.append_eq happend]
  · refine Stateful.keeps_lift ?_
    unfold throwUnless
    cases opened <;> trivial

theorem writeToGithubActionOutput_session (reporters : List ReporterBase)
    {s₀ : Session ForgeState} :
    Stateful.Keeps (· = s₀) (writeToGithubActionOutput run.runner reporters) (fun _ => True) := by
  induction reporters with
  | nil => exact Stateful.keeps_pure
  | cons reporter reporters ih => exact (appendToFile_session _ _ _).bind (fun _ => ih)

variable (hprepare : prepare run.runner run.args = .ok (.reporting context reporters))
include hprepare

theorem ProgramRun.report?_eq :
    run.report? = if context.enableCommentOnIssue
      then (issueContent run.runner.ord reporters).toOption else none := by
  rw [report?, hprepare]

/-- The comment: the run is one of the client, or has failed after the
comments of others came in. -/
theorem commentOnGithubIssue_leads (hctx : forge.Serves ctx)
    (hsound : ∀ r ∈ reporters, r.Sound context) (harriving : FromOthers h.thread run.arriving)
    (hissue : context.enableCommentOnIssue = true) :
    Stateful.Triple (· = startSession h run)
      (commentOnGithubIssue (forge.apiWith run.reviews) run.runner.ord context reporters)
      (fun _ => Leads forge ctx h run.Completes)
      (fun _ => Leads forge ctx h run.Becomes) := by
  rintro _ rfl
  obtain ⟨content, hcontent, hcomment⟩ := runOn_commentOnGithubIssue
    (forge.apiWith run.reviews) run.runner.ord hsound (startSession h run)
  have hclient : Stateful.runOn (writeThread (forge.apiWith run.reviews) context content)
      { startSession h run with commentId := noCommentId } =
        runOnThread forge context h.thread run.arriving content := rfl
  rw [hcomment, hclient]
  have hreport : run.report? = some content := by
    rw [run.report?_eq hprepare, if_pos hissue, hcontent]
    rfl
  rcases thread_runOnThread (run.serves hprepare hissue) h.thread run.arriving content with
    ⟨s, t', hrun, hthread, hafter⟩ | ⟨f, s, hrun, hthread⟩
  · rw [hrun]
    have hstep : Step forge ctx h (.run content run.arriving) ⟨t', some content⟩ :=
      (step_run_iff hctx).mpr ⟨harriving, t', hafter, rfl⟩
    refine ⟨_, _, ⟨.inr (.inr ⟨content, hreport, rfl⟩), ?_⟩, Trace.snoc .nil hstep, hthread.symm⟩
    intro content' hreport'
    cases hreport.symm.trans hreport'
    rfl
  · rw [hrun]
    exact ⟨_, _, .inr (.inl rfl), trace_others harriving, hthread.symm⟩

omit hprepare in
/-- The review leaves the thread as it is. -/
theorem review_leads :
    Stateful.Triple (Leads forge ctx h run.Completes)
      (commentOnGithubPullRequestReview (forge.apiWith run.reviews) run.runner.ord context
        reporters)
      (fun _ => Leads forge ctx h run.Completes)
      (fun _ => Leads forge ctx h run.Becomes) := by
  have hkeeps : KeepsServer
      (fun server => Leads forge ctx h run.Completes { server := server })
      (commentOnGithubPullRequestReview (forge.apiWith run.reviews) run.runner.ord context
        reporters) :=
    commentOnGithubPullRequestReview_keepsServer (fun _ _ hs => hs) _ _
  exact hkeeps.mono (fun _ hs => hs) (fun _ _ hs => hs)
    (fun _ _ hs => hs.2.mono (fun _ hevents => hevents.1))

/-- The reporting phase of a run. -/
theorem report_leads (hctx : forge.Serves ctx) (hsound : ∀ r ∈ reporters, r.Sound context)
    (harriving : FromOthers h.thread run.arriving) :
    Stateful.Triple (· = startSession h run)
      (report run.runner (forge.apiWith run.reviews) context reporters)
      (fun _ => Leads forge ctx h run.Completes)
      (fun _ => Leads forge ctx h run.Becomes) := by
  have hfile : ∀ {call : Call ForgeState Unit} (c : Bool),
      Stateful.Keeps (· = startSession h run) call (fun _ => True) →
      Stateful.Triple (· = startSession h run) (.onlyIf c call)
        (fun _ s => s = startSession h run)
        (fun _ => Leads forge ctx h run.Becomes) := by
    intro call c hcall
    refine (Stateful.keeps_onlyIf (fun _ => hcall)).mono (fun _ hs => hs) (fun _ _ hs => hs) ?_
    rintro _ s ⟨-, rfl⟩
    exact leads_start _ run.becomes_nil
  refine (hfile _ (writeToGithubActionOutput_session reporters)).bind (fun _ => ?_)
  refine (hfile _ (appendToFile_session _ _ _)).bind (fun _ => ?_)
  refine Stateful.Triple.bind (Q := fun _ => Leads forge ctx h run.Completes)
    ?_ (fun _ => ?_)
  · cases hissue : context.enableCommentOnIssue with
    | false =>
        refine Stateful.triple_pure ?_
        rintro _ rfl
        refine leads_start _ ⟨run.becomes_nil, ?_⟩
        intro content hreport
        rw [run.report?_eq hprepare, hissue] at hreport
        cases hreport
    | true => exact commentOnGithubIssue_leads hprepare hctx hsound harriving hissue
  · refine Stateful.Triple.bind (Q := fun _ => Leads forge ctx h run.Completes)
      ?_ (fun _ => Stateful.triple_pure (fun _ hs => hs))
    cases context.enablePullRequestReview with
    | false => exact Stateful.triple_pure (fun _ hs => hs)
    | true => exact review_leads

end Report

/-- **A run of the program**, however it ends, is some events of the thread;
one that returns has its text in the comment, if it has one. -/
theorem result_leads (hctx : forge.Serves ctx) (run : ProgramRun forge) {h : Github.History}
    (harriving : FromOthers h.thread run.arriving) :
    Stateful.Post (fun _ => Leads forge ctx h run.Completes)
      (fun _ => Leads forge ctx h run.Becomes) (run.result h.thread) := by
  unfold ProgramRun.result main
  rw [Stateful.runOn_bind, Stateful.runOn_lift]
  cases hprepare : prepare run.runner run.args with
  | error f => exact leads_start run run.becomes_nil
  | ok start =>
      -- a run that gives the help or the version has no text
      have hnone : run.report? = none → run.Completes [] :=
        fun hreport => ⟨run.becomes_nil, fun content h => nomatch hreport.symm.trans h⟩
      cases start with
      | help => exact leads_start run (hnone (by rw [ProgramRun.report?, hprepare]))
      | version => exact leads_start run (hnone (by rw [ProgramRun.report?, hprepare]))
      | reporting context reporters =>
          obtain ⟨vars, hvars, -⟩ := bind_eq_ok.mp hprepare
          exact report_leads hprepare hctx (prepare_reporting hvars hprepare).sound harriving _ rfl

/-- A run that returns and has a report is one run of the client. -/
theorem step_of_returned (hctx : forge.Serves ctx) {run : ProgramRun forge} {h : Github.History}
    (harriving : FromOthers h.thread run.arriving) {content : String}
    (hreport : run.report? = some content) {status : Nat}
    (hstatus : (run.result h.thread).1 = .ok status) :
    Step forge ctx h (.run content run.arriving)
      ⟨(run.result h.thread).2.server.thread, some content⟩ := by
  have hpost := result_leads hctx run harriving
  cases hrun : run.result h.thread with
  | mk r s =>
      rw [hrun] at hpost hstatus
      cases hstatus
      obtain ⟨events, h', ⟨-, hevents⟩, hled, hthread⟩ := hpost
      cases hevents content hreport
      have hstep := hled.step_of_singleton
      cases hstep
      rw [← hthread]
      exact hled.step_of_singleton

/-! ## Histories of the pull request -/

/-- What an event is for the thread. -/
def ProgramEvent.Becomes : ProgramEvent forge → List Event → Prop
  | .others c, events => events = [.others c]
  | .run r, events => r.Becomes events

/-- One event. -/
theorem step_refines (hctx : forge.Serves ctx) {t t' : Thread} {h : Github.History}
    {event : ProgramEvent forge} (ht : t = h.thread) (hstep : ProgramStep forge t event t') :
    ∃ events h', event.Becomes events ∧ Trace (Step forge ctx) h events h' ∧
      t' = h'.thread := by
  subst ht
  cases hstep with
  | others hc => exact ⟨_, _, rfl, Trace.snoc .nil (.others hc), rfl⟩
  | @run run harriving =>
      have hpost := result_leads hctx run harriving
      cases hrun : run.result h.thread with
      | mk r s =>
          rw [hrun] at hpost
          cases r with
          | ok status =>
              obtain ⟨events, h', hevents, hled, hthread⟩ := hpost
              exact ⟨events, h', hevents.1, hled, hthread.symm⟩
          | error f =>
              obtain ⟨events, h', hevents, hled, hthread⟩ := hpost
              exact ⟨events, h', hevents, hled, hthread.symm⟩

/-- **The program refines the thread.** In whatever order runs and comments
of others follow on each other, whatever the runs are given and find, and
however they end: what becomes of the thread is a history of the thread, in
which every run of the program is nothing, the comments that came in during
it, or one run of the client with the text of its report. -/
theorem program_refines (hctx : forge.Serves ctx) {t₀ t : Thread}
    {events : List (ProgramEvent forge)} (htrace : Trace (ProgramStep forge) t₀ events t) :
    ∃ eventss h, List.Forall₂ ProgramEvent.Becomes events eventss ∧
      Trace (Step forge ctx) { thread := t₀ } eventss.flatten h ∧ t = h.thread :=
  htrace.refines (R := (· = Github.History.thread ·)) (M := ProgramEvent.Becomes)
    (step_refines hctx) rfl

/-- **One comment for the pull request.** From a thread that is settled on
the one comment by us, in every history of runs of the program and comments
of others: the client keeps to that comment, there is never another one by
us, and each further run that returns and has a report leaves it there. -/
theorem program_keepsOne (hctx : forge.Serves ctx) {t₀ t : Thread} (hsettled : Settled t₀)
    (hone : t₀.ours ≤ 1) {events : List (ProgramEvent forge)}
    (htrace : Trace (ProgramStep forge) t₀ events t) :
    t.heldId = t₀.heldId ∧ t.ours ≤ 1 ∧
      ∀ (run : ProgramRun forge) content status, FromOthers t run.arriving →
        run.report? = some content → (run.result t).1 = .ok status →
          ∃ c ∈ (run.result t).2.server.thread, c.byUs = true ∧ c.id = t₀.heldId ∧
            c.body = content := by
  obtain ⟨eventss, h, -, hled, rfl⟩ :
      ∃ eventss h, List.Forall₂ ProgramEvent.Becomes events eventss ∧
        Trace (Step forge ctx) { thread := t₀ } eventss.flatten h ∧ t = h.thread :=
    htrace.refines (R := (· = Github.History.thread ·)) (M := ProgramEvent.Becomes)
      (step_refines hctx) rfl
  obtain ⟨hheld, hours, -⟩ := settled_history hctx hsettled hled
  refine ⟨hheld, by omega, ?_⟩
  intro run content status harriving hreport hstatus
  have hstep := step_of_returned hctx harriving hreport hstatus
  obtain ⟨-, -, c, hc, hbyUs, hid, hbody⟩ := settled_history hctx hsettled (hled.snoc hstep)
  exact ⟨c, hc, hbyUs, hid, hbody content rfl⟩

/-- If the start-up reaches the reports, they are for the forge. -/
def reportsTo (forge : Forge) : Except Fault StartUp → Bool
  | .ok (.reporting context _) =>
      decide (context.eventName ∈ githubEventsSupportComments ∧ context.prNumber ≠ -1 ∧
        context.repoPair = forge.repoPair ∧ context.prNumber = forge.prNumber)
  | _ => true

theorem serves_of_reportsTo {start : Except Fault StartUp} (h : reportsTo forge start = true)
    {reporters : List ReporterBase} (hstart : start = .ok (.reporting context reporters)) :
    forge.Serves context := by
  subst hstart
  obtain ⟨hevent, hnumber, hpair, hsame⟩ := of_decide_eq_true h
  exact ⟨⟨hevent, hnumber⟩, hpair, hsame⟩

/-- The surroundings of a run on the pull request of the counting forge. -/
def countingRunner : Runner ForgeState :=
  { actionRunner "pull_request" "refs/pull/1/merge" with append := fun state _ _ => some state }

theorem reportsTo_counting : reportsTo countingForge (prepare countingRunner toolless) = true := by
  decide +kernel

/-- A run without tools. -/
def toollessRun : ProgramRun countingForge where
  runner := countingRunner
  args := toolless
  reviews := fun _ _ => none
  arriving := []
  append_eq := fun happend => (Option.some.inj happend).symm
  serves := fun hprepare _ => serves_of_reportsTo reportsTo_counting hprepare

theorem fromOthers_toollessRun {t : Thread} (h : t.ids.Nodup) :
    FromOthers t toollessRun.arriving := by
  refine ⟨?_, fun c hc => by cases hc⟩
  rwa [show t ++ toollessRun.arriving = t from List.append_nil t]

/-- Somebody has commented. -/
def strangerThread : Thread := [⟨1, some "someone", "hello"⟩]

/-- The action has commented. -/
def ownThread : Thread := [⟨1, some ourName, "old"⟩]

/-- The run reports, and it returns on either thread. -/
theorem toollessRun_returns :
    (∃ content, toollessRun.report? = some content) ∧
      (∃ status, (toollessRun.result ownThread).1 = .ok status) ∧
      ∃ status, (toollessRun.result strangerThread).1 = .ok status := by
  have h : toollessRun.report?.isSome = true ∧ (toollessRun.result ownThread).1.isOk = true ∧
      (toollessRun.result strangerThread).1.isOk = true := by decide +kernel
  exact ⟨Option.isSome_iff_exists.mp h.1, exists_ok_of_isOk h.2.1, exists_ok_of_isOk h.2.2⟩

theorem program_refines_toollessRun :
    ∃ eventss h, List.Forall₂ ProgramEvent.Becomes [.run toollessRun] eventss ∧
      Trace (Step countingForge pullRequestContext) { thread := strangerThread }
        eventss.flatten h ∧
      (toollessRun.result strangerThread).2.server.thread = h.thread :=
  program_refines countingForge_serves (Trace.snoc .nil (.run (fromOthers_toollessRun (by decide))))

theorem program_keepsOne_toollessRun :
    ∃ content, toollessRun.report? = some content ∧
      ∃ c ∈ (toollessRun.result ownThread).2.server.thread, c.byUs = true ∧
        c.id = ownThread.heldId ∧ c.body = content := by
  obtain ⟨⟨content, hreport⟩, ⟨status, hstatus⟩, -⟩ := toollessRun_returns
  have hsettled : Settled ownThread := ⟨by decide, _, List.mem_cons_self, by decide, by decide⟩
  obtain ⟨-, -, hlater⟩ := program_keepsOne countingForge_serves hsettled (by decide) .nil
  exact ⟨content, hreport, hlater toollessRun content status
    (fromOthers_toollessRun (by decide)) hreport hstatus⟩

end CppLint
