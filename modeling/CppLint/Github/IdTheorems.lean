/-
CppLint.Github.IdTheorems — which comment the client writes to next.

The client takes an id from a response in two places, and in both it keeps
the id modulo `2 ^ 32` (`Obtains.commentId_eq`). The value `2 ^ 32 - 1` means
that there is no comment yet, so the next write goes to the comment obtained
exactly when the id is below it (`Obtains.writesTo_iff`).
-/
import CppLint.Github.ClientTheorems

namespace CppLint.Github

open CppLint.Lib

variable {σ : Type}

/-- The client gets the id `n`: a search selects a comment with that id, or
a comment is created with it. The last argument is the client afterwards. -/
inductive Obtains (api : Api σ) : Session σ → Nat → Session σ → Prop where
  | selected {ctx : RuntimeContext} {s : Session σ} {response : Response} {server : σ}
      {comments : List Json} {comment : Json} {n : Nat}
      (event : ctx.eventName ∈ githubEventsSupportComments)
      (answer : api s.server (listRequest ctx) = (some response, server))
      (succeeded : response.Succeeded)
      (body : response.body = some (.array comments))
      (found : comments.findM? isOurComment = .ok (some comment))
      (id : comment.member? "id" = some (.integer n)) :
      Obtains api s n (Stateful.runOn (getIssueCommentId api ctx) s).2
  | created {ctx : RuntimeContext} {text : String} {s : Session σ} {response : Response}
      {server : σ} {comment : Json} {n : Nat}
      (answer : api s.server (addRequest ctx text) = (some response, server))
      (succeeded : response.Succeeded)
      (body : response.body = some comment)
      (id : comment.member? "id" = some (.integer n)) :
      Obtains api s n (Stateful.runOn (addIssueComment api ctx text) s).2

/-- An id is read modulo `2 ^ 32`. -/
theorem readId_eq {comment : Json} {n : Nat} (h : comment.member? "id" = some (.integer n)) :
    (do (← comment.subscript "id").getUInt32) = (.ok (n % 2 ^ 32) : Except Fault Nat) := by
  cases comment with
  | object members =>
      have hlookup : members.lookup "id" = some (.integer n) := h
      simp [Json.subscript, hlookup, Json.getUInt32, bind, Except.bind]
      omega
  | _ => cases h

theorem Obtains.commentId_eq {api : Api σ} {s s' : Session σ} {n : Nat}
    (h : Obtains api s n s') : s'.commentId = n % 2 ^ 32 := by
  cases h with
  | @selected ctx _ response server comments comment _ hevent hanswer hsucceeded hbody hfound hid =>
      have hne : comments.isEmpty = false := by
        cases comments with
        | nil => cases hfound
        | cons c cs => rfl
      rw [runOn_getIssueCommentId_array hevent hanswer hsucceeded hbody, takeComment, hne,
        if_neg Bool.false_ne_true, Stateful.runOn_bind, Stateful.runOn_lift, hfound]
      simp only [Stateful.runOn_bind, Stateful.runOn_lift, readId_eq hid]
      rfl
  | @created ctx text _ response server comment _ hanswer hsucceeded hbody hid =>
      unfold addIssueComment
      simp only [Stateful.runOn_bind, runOn_send, Stateful.runOn_lift, hanswer,
        checkHttpResponse_ok hsucceeded, parseBody_ok hbody]
      cases comment with
      | object members =>
          simp only [Stateful.runOn_bind, Stateful.runOn_lift, readId_eq hid]
          rfl
      | _ => cases hid

/-- The client knows that it has a comment, and the next write is a request
to the comment `n`, whatever its text. -/
def WritesTo (api : Api σ) (ctx : RuntimeContext) (s : Session σ) (n : Nat) : Prop :=
  s.commentId ≠ noCommentId ∧ ∀ body, ∃ request,
    (Stateful.runOn (addOrUpdateIssueComment api ctx body) s).2.sent = s.sent ++ [request] ∧
      request.endpoint = .issueComment ctx.repoPair n

/-- A write of a client that holds an id is refused without a pull request
number, and is a request to the comment with that id otherwise. -/
theorem writesTo_commentId_iff {api : Api σ} {ctx : RuntimeContext} {s : Session σ} {n : Nat} :
    WritesTo api ctx s n ↔ s.commentId ≠ noCommentId ∧ ctx.prNumber ≠ -1 ∧ s.commentId = n := by
  constructor
  · rintro ⟨hid, hwrites⟩
    obtain ⟨request, hsent, hendpoint⟩ := hwrites ""
    rw [runOn_addOrUpdate_update hid] at hsent
    by_cases hpr : ctx.prNumber = -1
    · rw [updateIssueComment_refused hpr "" hid] at hsent
      simp at hsent
    · rw [updateIssueComment_eq hpr "" hid] at hsent
      have hrequest : request = updateRequest ctx s.commentId "" := by simpa using hsent.symm
      rw [hrequest] at hendpoint
      injection hendpoint with _ hcommentId
      exact ⟨hid, hpr, hcommentId⟩
  · rintro ⟨hid, hpr, rfl⟩
    refine ⟨hid, fun body => ⟨updateRequest ctx s.commentId body, ?_, rfl⟩⟩
    rw [runOn_addOrUpdate_update hid, updateIssueComment_eq hpr body hid]

/-- A comment of ours with this id. -/
def ourComment (n : Nat) : Json :=
  .object [("id", .integer n), ("user", .object [("login", .string ourName)])]

theorem obtains_ourComment (n : Nat) :
    Obtains (listing [ourComment n]) { server := () } n
      (Stateful.runOn (getIssueCommentId (listing [ourComment n]) pullRequestContext)
        { server := () }).2 :=
  .selected commentable_pullRequestContext.event rfl (.inr rfl) rfl rfl rfl

end CppLint.Github
