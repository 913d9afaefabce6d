/-
CppLint.Github.ClientTheorems — which comment a run writes to.

A run looks for its comment and then writes: `runOn_getIssueCommentId` says
which id the client holds after the first half, and
`sent_addOrUpdateIssueComment` which request the second half sends with it.
The comment looked for is the first that `looksOurs`, and a comment without
a login does, so the id may be that of somebody else's comment. It is also
kept modulo `2 ^ 32`. `threadWrite_ours_iff` puts the two together.
-/
import CppLint.Github.ExchangeTheorems
import CppLint.Github.Thread

namespace CppLint.Github

open CppLint.Lib

/-! ## Comments as the list request returns them -/

/-- The `id` of a comment, if it is an integer. -/
def Json.idOf (c : Json) : Option Int :=
  match c.member? "id" with
  | some (.integer n) => some n
  | _ => none

/-- The login of a comment's user, if it has one. -/
def Json.loginOf (c : Json) : Option String :=
  match c.pointer? ["user", "login"] with
  | some (.string name) => some name
  | _ => none

/-- The shape of an issue comment: an integer id, and a user that is absent,
null, or an object with a login. -/
def IsIssueComment (c : Json) : Prop :=
  (∃ n, c.member? "id" = some (.integer n)) ∧
    (c.member? "user" = none ∨ c.member? "user" = some .null ∨
      ∃ user name, c.member? "user" = some user ∧ user.member? "login" = some (.string name))

/-- The test of `is_our_comment` on an issue comment: no login, or ours. -/
def looksOurs (c : Json) : Bool :=
  match c.loginOf with
  | none => true
  | some name => name = ourName

@[simp] theorem Json.member?_null (key : String) : Json.member? key .null = none := rfl

theorem IsIssueComment.isOurComment {c : Json} (h : IsIssueComment c) :
    isOurComment c = .ok (looksOurs c) := by
  obtain ⟨_, hnone | hnull | ⟨user, name, huser, hlogin⟩⟩ := h
  · simp [Github.isOurComment, looksOurs, Json.loginOf, Json.pointer?, hnone]
  · simp [Github.isOurComment, looksOurs, Json.loginOf, Json.pointer?, hnull]
  · simp [Github.isOurComment, looksOurs, Json.loginOf, Json.pointer?, huser, hlogin,
      Json.getString, bind, Except.bind, pure, Except.pure]

/-- The id of an issue comment, as the client reads it. -/
theorem IsIssueComment.readId {c : Json} (h : IsIssueComment c) :
    ∃ n, c.idOf = some n ∧
      (do (← c.subscript "id").getUInt32) = (.ok (n % 2 ^ 32).toNat : Except Fault Nat) := by
  obtain ⟨⟨n, hid⟩, _⟩ := h
  refine ⟨n, by simp [Json.idOf, hid], ?_⟩
  cases c with
  | object members =>
      have hlookup : members.lookup "id" = some (.integer n) := hid
      simp [Json.subscript, hlookup, Json.getUInt32, bind, Except.bind]
  | _ => cases hid

/-! ## The first half of a run -/

/-- The id the client holds after looking through a list of comments. -/
def chosenId (start : Nat) (comments : List Json) : Nat :=
  match comments.find? looksOurs with
  | none => start
  | some c => match c.idOf with
      | some n => (n % 2 ^ 32).toNat
      | none => start

/-- The response is one `check_http_response` accepts. -/
def Response.Succeeded (r : Response) : Prop := r.status.tdiv 100 = 1 ∨ r.status.tdiv 100 = 2

theorem checkHttpResponse_ok {r : Response} (h : r.Succeeded) :
    checkHttpResponse (some r) = .ok () := by
  rcases h with h | h <;>
    simp [checkHttpResponse, derefResponse, throwUnless, h, bind, Except.bind]

variable {σ : Type} {api : Api σ} {ctx : RuntimeContext}

/-- The context of a pull request event. -/
structure Commentable (ctx : RuntimeContext) : Prop where
  event : ctx.eventName ∈ githubEventsSupportComments
  prNumber : ctx.prNumber ≠ -1

@[simp] theorem runOn_send (request : Request) (s : Session σ) :
    Stateful.runOn (send api request) s = (.ok (api s.server request).1,
      { s with server := (api s.server request).2, sent := s.sent ++ [request] }) := rfl

theorem parseBody_ok {r : Response} {body : Json} (h : r.body = some body) :
    parseBody (some r) = .ok body := by
  simp [parseBody, derefResponse, h, bind, Except.bind]

/-- What is done with a list of comments, once it is read. -/
def takeComment (comments : List Json) : Call σ Unit :=
  if comments.isEmpty then return
  else do
    match ← .lift (comments.findM? isOurComment) with
    | none => return
    | some comment =>
        let commentId ← .lift (do (← comment.subscript "id").getUInt32)
        setCommentId commentId

/-- Up to the list of comments the search is one request. -/
theorem runOn_getIssueCommentId_array (hevent : ctx.eventName ∈ githubEventsSupportComments)
    {s : Session σ} {response : Response} {server : σ}
    (hget : api s.server (listRequest ctx) = (some response, server))
    (hstatus : response.Succeeded) {comments : List Json}
    (hbody : response.body = some (.array comments)) :
    Stateful.runOn (getIssueCommentId api ctx) s = Stateful.runOn (takeComment comments)
      { s with server := server, sent := s.sent ++ [listRequest ctx] } := by
  have hassert : assertThat .getIssueCommentId
      (githubEventsSupportComments.contains ctx.eventName)
      "ranges::contains(github_events_support_comments, ctx.event_name)" = .ok () :=
    assertThat_eq_ok.mpr (List.contains_iff_mem.mpr hevent)
  unfold getIssueCommentId
  simp only [Stateful.runOn_bind, Stateful.runOn_lift, hassert, runOn_send, hget,
    checkHttpResponse_ok hstatus, parseBody_ok hbody]
  rfl

/-- **Looking for the comment.** One request, after which the client holds
the id of the first comment that looks ours. -/
theorem runOn_getIssueCommentId (hctx : Commentable ctx) {s : Session σ} {response : Response}
    {server : σ} (hget : api s.server (listRequest ctx) = (some response, server))
    (hstatus : response.Succeeded) {comments : List Json}
    (hbody : response.body = some (.array comments)) (hwf : ∀ c ∈ comments, IsIssueComment c) :
    Stateful.runOn (getIssueCommentId api ctx) s = (.ok (),
      { commentId := chosenId s.commentId comments, server := server,
        sent := s.sent ++ [listRequest ctx] }) := by
  have hfind : comments.findM? isOurComment = .ok (comments.find? looksOurs) :=
    findM?_ok comments (fun c hc => (hwf c hc).isOurComment)
  rw [runOn_getIssueCommentId_array hctx.event hget hstatus hbody, takeComment]
  by_cases hempty : comments.isEmpty = true
  · have hnil : comments = [] := List.isEmpty_iff.mp hempty
    subst hnil
    rfl
  · rw [if_neg hempty, Stateful.runOn_bind, Stateful.runOn_lift, hfind]
    cases hfound : comments.find? looksOurs with
    | none => simp [chosenId, hfound]
    | some c =>
        obtain ⟨n, hid, hread⟩ := (hwf c (List.mem_of_find?_eq_some hfound)).readId
        simp only [Stateful.runOn_bind, Stateful.runOn_lift, hread]
        simp [setCommentId, chosenId, hfound, hid]

/-! ## The second half of a run -/

/-- Adding a comment, answered with the comment made. -/
theorem runOn_addIssueComment {body : String} {s : Session σ} {response : Response} {server : σ}
    (hpost : api s.server (addRequest ctx body) = (some response, server))
    (hstatus : response.Succeeded) {c : Json} (hbody : response.body = some c)
    (hwf : IsIssueComment c) :
    ∃ id, Stateful.runOn (addIssueComment api ctx body) s = (.ok (),
      { commentId := id, server := server, sent := s.sent ++ [addRequest ctx body] }) := by
  have hparse := parseBody_ok hbody
  obtain ⟨n, _, hread⟩ := hwf.readId
  refine ⟨(n % 2 ^ 32).toNat, ?_⟩
  unfold addIssueComment
  simp only [Stateful.runOn_bind, runOn_send, Stateful.runOn_lift, hpost,
    checkHttpResponse_ok hstatus, hparse]
  cases c with
  | object members =>
      simp only [Stateful.runOn_bind, Stateful.runOn_lift, hread]
      rfl
  | _ =>
      obtain ⟨⟨_, hid⟩, _⟩ := hwf
      cases hid

/-- Updating, when the client holds an id: one request, and the check of its
response. -/
theorem updateIssueComment_eq (hpr : ctx.prNumber ≠ -1) (body : String) {s : Session σ}
    (hid : s.commentId ≠ noCommentId) :
    Stateful.runOn (updateIssueComment api ctx body) s =
      (checkHttpResponse (api s.server (updateRequest ctx s.commentId body)).1,
        { s with
          server := (api s.server (updateRequest ctx s.commentId body)).2
          sent := s.sent ++ [updateRequest ctx s.commentId body] }) := by
  have hno : throwIf (decide (s.commentId = noCommentId))
      "the client doesn't have comment_id yet" = .ok () :=
    throwIf_eq_ok.mpr (decide_eq_false hid)
  have hnumber : throwIf (decide (ctx.prNumber = -1))
      "the context doesn't have pr-number yet" = .ok () :=
    throwIf_eq_ok.mpr (decide_eq_false hpr)
  unfold updateIssueComment getCommentId
  simp only [Stateful.runOn_bind, Stateful.runOn_step, Stateful.runOn_lift, hno, hnumber,
    runOn_send]

/-- Updating without a pull request number is refused. -/
theorem updateIssueComment_refused (hpr : ctx.prNumber = -1) (body : String) {s : Session σ}
    (hid : s.commentId ≠ noCommentId) :
    Stateful.runOn (updateIssueComment api ctx body) s =
      (.error (.runtimeError "the context doesn't have pr-number yet"), s) := by
  have hno : throwIf (decide (s.commentId = noCommentId))
      "the client doesn't have comment_id yet" = .ok () :=
    throwIf_eq_ok.mpr (decide_eq_false hid)
  unfold updateIssueComment getCommentId
  simp only [Stateful.runOn_bind, Stateful.runOn_step, Stateful.runOn_lift, hno, hpr]
  rfl

/-- Updating the comment whose id the client holds. -/
theorem runOn_updateIssueComment (hctx : Commentable ctx) {body : String} {s : Session σ}
    (hid : s.commentId ≠ noCommentId) {response : Response} {server : σ}
    (hpost : api s.server (updateRequest ctx s.commentId body) = (some response, server))
    (hstatus : response.Succeeded) :
    Stateful.runOn (updateIssueComment api ctx body) s = (.ok (),
      { s with server := server, sent := s.sent ++ [updateRequest ctx s.commentId body] }) := by
  rw [updateIssueComment_eq hctx.prNumber body hid, hpost, checkHttpResponse_ok hstatus]

/-- Whatever comes back, one request is sent. -/
theorem sent_addIssueComment (body : String) (s : Session σ) :
    (Stateful.runOn (addIssueComment api ctx body) s).2.sent = s.sent ++ [addRequest ctx body] := by
  unfold addIssueComment
  simp only [Stateful.runOn_bind, runOn_send, Stateful.runOn_lift]
  generalize (api s.server (addRequest ctx body)).1 = response
  cases checkHttpResponse response with
  | error e => rfl
  | ok u =>
      cases parseBody response with
      | error e => rfl
      | ok j =>
          cases j with
          | object members =>
              simp only [Stateful.runOn_bind, Stateful.runOn_lift]
              cases (do (← (Json.object members).subscript "id").getUInt32 : Except Fault Nat) <;> rfl
          | _ => rfl

theorem sent_updateIssueComment (hctx : Commentable ctx) (body : String) {s : Session σ}
    (hid : s.commentId ≠ noCommentId) :
    (Stateful.runOn (updateIssueComment api ctx body) s).2.sent =
      s.sent ++ [updateRequest ctx s.commentId body] := by
  rw [updateIssueComment_eq hctx.prNumber body hid]

theorem runOn_addOrUpdate_add {body : String} {s : Session σ} (hid : s.commentId = noCommentId) :
    Stateful.runOn (addOrUpdateIssueComment api ctx body) s =
      Stateful.runOn (addIssueComment api ctx body) s := by
  unfold addOrUpdateIssueComment getCommentId
  rw [Stateful.runOn_bind, Stateful.runOn_step]
  simp only [if_pos hid]

theorem runOn_addOrUpdate_update {body : String} {s : Session σ}
    (hid : s.commentId ≠ noCommentId) :
    Stateful.runOn (addOrUpdateIssueComment api ctx body) s =
      Stateful.runOn (updateIssueComment api ctx body) s := by
  unfold addOrUpdateIssueComment getCommentId
  rw [Stateful.runOn_bind, Stateful.runOn_step]
  simp only [if_neg hid]

/-- **The write of a run.** -/
theorem sent_addOrUpdateIssueComment (hctx : Commentable ctx) (body : String) (s : Session σ) :
    (Stateful.runOn (addOrUpdateIssueComment api ctx body) s).2.sent =
      s.sent ++ [writeRequest ctx s.commentId body] := by
  unfold writeRequest
  by_cases hid : s.commentId = noCommentId
  · rw [if_pos hid, runOn_addOrUpdate_add hid]
    exact sent_addIssueComment body s
  · rw [if_neg hid, runOn_addOrUpdate_update hid]
    exact sent_updateIssueComment hctx body hid

/-! ## Whose comment a run writes to -/

/-- The request creates a comment, or updates one of these comments, by us. -/
def WritesToOurs (ctx : RuntimeContext) (comments : List Json) (request : Request) : Prop :=
  (∃ body, request = addRequest ctx body) ∨
    ∃ c ∈ comments, c.loginOf = some ourName ∧
      ∃ (id : Nat) (body : String), c.idOf = some (id : Int) ∧ request = updateRequest ctx id body

/-- The first comment that looks ours leads to no id, or to that of a
comment by us. -/
def LeadsToOurs (comments : List Json) : Prop :=
  ∀ c n, comments.find? looksOurs = some c → c.idOf = some n →
    (n % 2 ^ 32).toNat = noCommentId ∨
      ∃ c' ∈ comments, c'.loginOf = some ourName ∧ c'.idOf = some (n % 2 ^ 32)

theorem writesToOurs_iff (commentId : Nat) (comments : List Json) (body : String) :
    WritesToOurs ctx comments (writeRequest ctx commentId body) ↔
      commentId = noCommentId ∨
        ∃ c ∈ comments, c.loginOf = some ourName ∧ c.idOf = some (commentId : Int) := by
  unfold WritesToOurs writeRequest
  by_cases hid : commentId = noCommentId
  · simp [hid]
  · simp only [hid, if_false, false_or]
    constructor
    · intro h
      rcases h with ⟨body', heq⟩ | ⟨c, hc, hlogin, id, body', hcid, heq⟩
      · simp [updateRequest, addRequest] at heq
      · have hsame : commentId = id := by
          injection heq with _ hendpoint
          injection hendpoint
        exact ⟨c, hc, hlogin, hsame ▸ hcid⟩
    · intro h
      obtain ⟨c, hc, hlogin, hcid⟩ := h
      exact .inr ⟨c, hc, hlogin, commentId, body, hcid, rfl⟩

/-- **Whose comment is written to.** A run on a new client, answered with a
list of issue comments, sends one more request, and that request creates a
comment or updates one by us exactly when the first comment that looks ours
leads to ours. -/
theorem threadWrite_ours_iff (hctx : Commentable ctx) {server server' : σ} {response : Response}
    (hget : api server (listRequest ctx) = (some response, server'))
    (hstatus : response.Succeeded) {comments : List Json}
    (hbody : response.body = some (.array comments)) (hwf : ∀ c ∈ comments, IsIssueComment c)
    (body : String) :
    ∃ request, (Stateful.runOn (writeThread api ctx body) { server := server }).2.sent =
        [listRequest ctx, request] ∧
      (WritesToOurs ctx comments request ↔ LeadsToOurs comments) := by
  refine ⟨writeRequest ctx (chosenId noCommentId comments) body, ?_, ?_⟩
  · unfold writeThread
    rw [Stateful.runOn_bind, runOn_getIssueCommentId hctx hget hstatus hbody hwf]
    exact sent_addOrUpdateIssueComment hctx body _
  · rw [writesToOurs_iff]
    unfold LeadsToOurs chosenId
    cases hfound : comments.find? looksOurs with
    | none => simp
    | some c =>
        obtain ⟨n, hid, _⟩ := (hwf c (List.mem_of_find?_eq_some hfound)).readId
        have hnonneg : 0 ≤ n % 2 ^ 32 := by omega
        have hcast : (((n % 2 ^ 32).toNat : Nat) : Int) = n % 2 ^ 32 := Int.toNat_of_nonneg hnonneg
        simp only [hid, hcast]
        constructor
        · intro h c' n' hc' hn'
          cases hc'
          rw [hid] at hn'
          cases hn'
          exact h
        · intro h
          exact h c n rfl hid

/-! ### A comment without a user -/

/-- An issue comment whose author's account is gone. -/
def ghostComment : Json := .object [("id", .integer 7), ("user", .null), ("body", .string "hello")]

/-- A server that answers every request with these comments. -/
def listing (comments : List Json) : Api Unit :=
  fun server _ => (some ⟨200, "OK", some (.array comments)⟩, server)

/-- The context of a run on pull request 1. -/
def pullRequestContext : RuntimeContext where
  repoPath := "/repo"
  repoPair := "owner/repo"
  token := "t"
  eventName := "pull_request"
  prNumber := 1

theorem commentable_pullRequestContext : Commentable pullRequestContext :=
  ⟨by decide, by decide⟩

theorem isIssueComment_ghost : ∀ c ∈ [ghostComment], IsIssueComment c := by
  intro c hc
  rw [List.mem_singleton.mp hc]
  exact ⟨⟨7, rfl⟩, .inr (.inl rfl)⟩

theorem threadWrite_ours_iff_ghost :
    ∃ request, (Stateful.runOn (writeThread (listing [ghostComment]) pullRequestContext "report")
        { server := () }).2.sent = [listRequest pullRequestContext, request] ∧
      (WritesToOurs pullRequestContext [ghostComment] request ↔ LeadsToOurs [ghostComment]) :=
  threadWrite_ours_iff commentable_pullRequestContext rfl (.inr rfl) rfl isIssueComment_ghost
    "report"

/-- The comment without a user is overwritten. -/
theorem threadWrite_ghost_overwritten :
    (∀ c ∈ [ghostComment], IsIssueComment c) ∧
      (Stateful.runOn (writeThread (listing [ghostComment]) pullRequestContext "report")
        { server := () }).2.sent =
          [listRequest pullRequestContext, updateRequest pullRequestContext 7 "report"] ∧
      ¬ WritesToOurs pullRequestContext [ghostComment]
        (updateRequest pullRequestContext 7 "report") := by
  refine ⟨isIssueComment_ghost, rfl, ?_⟩
  rw [show updateRequest pullRequestContext 7 "report" = writeRequest pullRequestContext 7 "report"
    from rfl, writesToOurs_iff]
  intro h
  rcases h with hid | ⟨c, hc, hlogin, _⟩
  · exact absurd hid (by decide)
  · rw [List.mem_singleton.mp hc] at hlogin
    cases hlogin

end CppLint.Github
