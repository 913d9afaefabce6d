/-
CppLint.RequestTheorems — what a run sends, and in which order.

The reporting phase makes at most three requests: it lists the comments,
writes one, and posts a review. `requestsOf` is that plan for a context, a
text and a list of review comments. `main_sent` says of every run of the
program that what it has sent when it ends, however it ends, is the
beginning of such a plan, and all of it when the run returns; a run that
does not get to the reporting phase sends nothing.

The proof is a triple for each report: the ones of the client
(`ExchangeTheorems`) say of one request that it is sent or not, and the
files of the action send nothing.
-/
import CppLint.RaiseTheorems

namespace CppLint

open CppLint.Lib CppLint.Git CppLint.Tool CppLint.Github CppLint.ProgramOptions

/-- The requests of the comment: the client holds `commentId` when it
writes. -/
def commentRequests (context : RuntimeContext) (commentId : Nat) (content : String) :
    List Request :=
  [listRequest context, writeRequest context commentId content]

/-- The requests of a run that makes all the reports it is asked for. -/
def requestsOf (context : RuntimeContext) (commentId : Nat) (content : String)
    (comments : List ReviewComment) : List Request :=
  (if context.enableCommentOnIssue then commentRequests context commentId content else []) ++
    (if context.enablePullRequestReview then [reviewRequest context (makeReviewStr comments)]
      else [])

section Reports

variable {σ : Type} {api : Api σ} {ord : Enumeration String} {context : RuntimeContext}
  {reporters : List ReporterBase} {content : String}

/-- The client holds the id a new client finds. -/
def HeldAfterListing (api : Api σ) (context : RuntimeContext) (commentId : Nat) : Prop :=
  ∃ server, commentId =
    (Stateful.runOn (getIssueCommentId api context) { server := server }).2.commentId

theorem admitsAnswers_any : AdmitsAnswers (fun _ => True) := ⟨fun _ => trivial, fun _ => trivial⟩

/-- The comment, made first. -/
theorem commentOnGithubIssue_sent (hcontent : issueContent ord reporters = .ok content) :
    Stateful.Triple (fun s => s.sent = []) (commentOnGithubIssue api ord context reporters)
      (fun _ s => ∃ id, HeldAfterListing api context id ∧
        s.sent = commentRequests context id content)
      (fun _ s => ∃ id, s.sent <+: commentRequests context id content) := by
  have hnew : Stateful.Triple (fun s => s.sent = []) (newClient : Call σ Unit)
      (fun _ s => ∃ server, s = { server := server })
      (fun _ s => ∃ id, s.sent <+: commentRequests context id content) := by
    refine Stateful.triple_step ?_
    rintro ⟨id, server, sent⟩ rfl
    exact ⟨server, rfl⟩
  refine hnew.bind (fun _ => Stateful.Triple.bind (Q := fun _ s =>
    HeldAfterListing api context s.commentId ∧ s.sent = [listRequest context]) ?_ (fun _ => ?_))
  · rintro s ⟨server, rfl⟩
    have htriple : Stateful.Triple (· = { server := server }) (getIssueCommentId api context)
        (Answered { server := server } (listRequest context))
        (Failed { server := server } (listRequest context) (fun _ => True)) :=
      getIssueCommentId_triple context admitsAnswers_any (fun _ => trivial) (fun _ => trivial)
    have hlist := htriple _ rfl
    cases hrun : Stateful.runOn (getIssueCommentId api context) { server := server } with
    | mk r s =>
        rw [hrun] at hlist
        cases r with
        | ok u => exact ⟨⟨server, by rw [hrun]⟩, hlist⟩
        | error f =>
            refine ⟨0, ?_⟩
            rcases hlist.2.2 with hsame | hmore
            · rw [hsame]
              exact List.nil_prefix
            · rw [hmore]
              exact ⟨[writeRequest context 0 content], rfl⟩
  rw [hcontent]
  refine Stateful.Triple.bind (Q := fun c s => c = content ∧
    HeldAfterListing api context s.commentId ∧ s.sent = [listRequest context])
    (Stateful.triple_lift (fun _ hs => ⟨rfl, hs⟩)) (fun c => ?_)
  rintro s ⟨rfl, hheld, hs⟩
  have hwrite : Stateful.Triple (· = s) (addOrUpdateIssueComment api context c)
      (Answered s (writeRequest context s.commentId c))
      (Failed s (writeRequest context s.commentId c) (fun _ => True)) :=
    addOrUpdateIssueComment_triple context admitsAnswers_any c (fun _ => trivial)
  refine hwrite.mono (fun _ h => h) (fun _ s' hs' => ?_) (fun _ s' hs' => ?_) s rfl
  · exact ⟨s.commentId, hheld, by rw [show s'.sent = _ from hs', hs]; rfl⟩
  · refine ⟨s.commentId, ?_⟩
    rcases hs'.2.2 with hsame | hmore
    · rw [hsame, hs]
      exact ⟨[writeRequest context s.commentId c], rfl⟩
    · rw [hmore, hs]
      exact List.prefix_refl _

/-- The review, after what was sent before. -/
theorem commentOnGithubPullRequestReview_sent (before : List Request) :
    Stateful.Triple (fun s => s.sent = before)
      (commentOnGithubPullRequestReview api ord context reporters)
      (fun _ s => ∃ comments, reviewComments ord context reporters = .ok comments ∧
        s.sent = before ++ [reviewRequest context (makeReviewStr comments)])
      (fun _ s => ∃ comments,
        s.sent <+: before ++ [reviewRequest context (makeReviewStr comments)]) := by
  refine Stateful.Triple.bind (Q := fun _ s => s.sent = before)
    (Stateful.triple_step (fun _ hs => hs)) (fun _ => ?_)
  cases hcomments : reviewComments ord context reporters with
  | error f =>
      intro s hs
      refine ⟨[], ?_⟩
      rw [show s.sent = before from hs]
      exact List.prefix_append _ _
  | ok comments =>
      rintro s rfl
      have hpost : Stateful.Triple (· = s)
          (postPullRequestReview api context (makeReviewStr comments))
          (Answered s (reviewRequest context (makeReviewStr comments)))
          (Failed s (reviewRequest context (makeReviewStr comments)) (fun _ => True)) :=
        postPullRequestReview_triple context admitsAnswers_any _ (fun _ => trivial)
      refine hpost.mono (fun _ h => h) (fun _ s' hs' => ⟨comments, rfl, hs'⟩) (fun _ s' hs' => ?_)
        s rfl
      refine ⟨comments, ?_⟩
      rcases hs'.2.2 with hsame | hmore
      · rw [hsame]
        exact List.prefix_append _ _
      · exact hmore ▸ List.prefix_refl _

/-- The plan begins with its comment. -/
theorem commentPart_prefix {id : Nat} {sent : List Request}
    (h : sent <+: if context.enableCommentOnIssue then commentRequests context id content else [])
    (comments : List ReviewComment) : sent <+: requestsOf context id content comments :=
  h.trans (List.prefix_append _ _)

/-- What a run has sent when it returns: the plan. -/
def SentAll (api : Api σ) (ord : Enumeration String) (context : RuntimeContext)
    (reporters : List ReporterBase) (content : String) (sent : List Request) : Prop :=
  ∃ id comments, sent = requestsOf context id content comments ∧
    (context.enableCommentOnIssue = true → HeldAfterListing api context id) ∧
    (context.enablePullRequestReview = true → reviewComments ord context reporters = .ok comments)

/-- What a run has sent in the middle: the beginning of a plan. -/
def SentSome (context : RuntimeContext) (content : String) (sent : List Request) : Prop :=
  ∃ id comments, sent <+: requestsOf context id content comments

/-- The reporting phase. -/
theorem report_sent (runner : Runner σ)
    (hcontent : issueContent runner.ord reporters = .ok content) :
    Stateful.Triple (fun s => s.sent = []) (report runner api context reporters)
      (fun status s => status = exitStatus reporters ∧
        SentAll api runner.ord context reporters content s.sent)
      (fun _ s => SentSome context content s.sent) := by
  have hfile : ∀ {call : Call σ Unit},
      Stateful.Keeps (fun s => s.sent = []) call Fault.IsException →
      Stateful.Triple (fun s => s.sent = []) call (fun _ s => s.sent = [])
        (fun _ s => SentSome context content s.sent) := by
    intro call h
    refine h.mono (fun _ h => h) (fun _ _ h => h) (fun _ s hs => ⟨0, [], ?_⟩)
    rw [hs.2]
    exact List.nil_prefix
  refine Stateful.Triple.bind (hfile (Stateful.keeps_onlyIf (fun _ =>
    writeToGithubActionOutput_quiet runner reporters))) (fun _ => ?_)
  refine Stateful.Triple.bind (hfile (Stateful.keeps_onlyIf (fun _ =>
    appendToFile_quiet runner _ _ _))) (fun _ => ?_)
  refine Stateful.Triple.bind (Q := fun _ s => ∃ id,
    (context.enableCommentOnIssue = true → HeldAfterListing api context id) ∧
      s.sent = if context.enableCommentOnIssue then commentRequests context id content else [])
    ?_ (fun _ => ?_)
  · cases hissue : context.enableCommentOnIssue with
    | false => exact Stateful.triple_pure (fun s hs => ⟨0, nofun, hs⟩)
    | true =>
        refine (commentOnGithubIssue_sent hcontent).mono (fun _ h => h) ?_ ?_
        · rintro _ s ⟨id, hheld, hs⟩
          exact ⟨id, fun _ => hheld, hs⟩
        · rintro _ s ⟨id, hs⟩
          refine ⟨id, [], commentPart_prefix ?_ _⟩
          rw [hissue]
          exact hs
  refine Stateful.Triple.bind (Q := fun _ s =>
    SentAll api runner.ord context reporters content s.sent) ?_
    (fun _ => Stateful.triple_pure (fun _ hs => ⟨rfl, hs⟩))
  rintro s ⟨id, hheld, hs⟩
  cases hreview : context.enablePullRequestReview with
  | false =>
      refine ⟨id, [], ?_, hheld, fun h => by rw [hreview] at h; cases h⟩
      rw [requestsOf, hreview]
      simpa using hs
  | true =>
      refine (commentOnGithubPullRequestReview_sent s.sent).mono (fun _ h => h) ?_ ?_ s rfl
      · rintro _ s' ⟨comments, hcomments, hs'⟩
        refine ⟨id, comments, ?_, hheld, fun _ => hcomments⟩
        rw [hs', hs, requestsOf, hreview]
        rfl
      · rintro _ s' ⟨comments, hs'⟩
        refine ⟨id, comments, ?_⟩
        rw [requestsOf, hreview, ← hs]
        exact hs'

end Reports

/-! ## The whole program -/

/-- **What a run sends.** For every environment, repository, machine and
file system, every behaviour of GitHub and every command line. A run that
gets to the reporting phase has, when it ends, sent the beginning of a plan
for its context and its own text; when it returns it has sent all of it, and
the status is that of its reporters. Any other run sends nothing. -/
theorem main_sent {σ : Type} (runner : Runner σ) (api : Api σ) (world : σ) (args : List String) :
    match prepare runner args with
    | .ok (.reporting context reporters) =>
        ∃ content, issueContent runner.ord reporters = .ok content ∧
          Stateful.Post
            (fun status s => status = exitStatus reporters ∧
              SentAll api runner.ord context reporters content s.sent)
            (fun _ s => SentSome context content s.sent)
            (Stateful.runOn (main runner api args) { server := world })
    | _ => (Stateful.runOn (main runner api args) { server := world }).2.sent = [] := by
  unfold main
  rw [Stateful.runOn_bind, Stateful.runOn_lift]
  cases hprepare : prepare runner args with
  | error f => rfl
  | ok start =>
      cases start with
      | help => rfl
      | version => rfl
      | reporting context reporters =>
          obtain ⟨vars, hvars, -⟩ := bind_eq_ok.mp hprepare
          have hsound := (prepare_reporting hvars hprepare).sound
          have hmade := issueContent_guarantees runner.ord hsound (fun _ => False)
          cases hcontent : issueContent runner.ord reporters with
          | error f =>
              rw [hcontent] at hmade
              exact hmade.elim
          | ok content =>
              exact ⟨content, hcontent, report_sent runner hcontent { server := world } rfl⟩

end CppLint
