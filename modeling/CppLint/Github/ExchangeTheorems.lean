/-
CppLint.Github.ExchangeTheorems — how the client's functions end.

Each member function makes at most one request. Its triple says, for every
answer, that it returns with that request sent, or throws with `comment_id_`
as it was (`getIssueCommentId_triple` and its three siblings); what it can
throw is a predicate `E` that the caller chooses. Two choices are made here:
`OfExchange`, for the runs of the whole program, which never ask the context
anything while they talk to GitHub, and `Fault.IsException`, for the
question whether a function ends in an exception at all
(`Operation.endsCleanly_iff`).
-/
import CppLint.Github.Client

namespace CppLint.Github

open CppLint.Lib

/-- A fault of the exchange with the other side: its answer is missing, is
refused or cannot be read, or there is nothing to ask it for. -/
def OfExchange : Fault → Prop
  | .nullResponse => True
  | .runtimeError _ => True
  | .json _ => True
  | .assertion .getIssueCommentId _ => True
  | _ => False

/-! ## Reading a response -/

section Reading

/-- `E` admits what a response that is there can make a function throw. -/
structure AdmitsAnswers (E : Fault → Prop) : Prop where
  runtimeError : ∀ what, E (.runtimeError what)
  json : ∀ what, E (.json what)

variable {E : Fault → Prop}

theorem derefResponse_guarantees {response : Option Response}
    (hnull : response = none → E .nullResponse) :
    Guarantees (derefResponse response) (fun _ => True) E := by
  cases response with
  | none => exact hnull rfl
  | some r => trivial

theorem checkHttpResponse_guarantees (hE : AdmitsAnswers E) {response : Option Response}
    (hnull : response = none → E .nullResponse) :
    Guarantees (checkHttpResponse response) (fun _ => True) E := by
  refine Guarantees.bind (derefResponse_guarantees hnull) (fun r _ => ?_)
  exact (throwUnless_guarantees (hE.runtimeError _)).mono (fun _ _ => trivial) (fun _ h => h)

theorem parseBody_guarantees (hE : AdmitsAnswers E) {response : Option Response}
    (hnull : response = none → E .nullResponse) :
    Guarantees (parseBody response) (fun _ => True) E := by
  refine Guarantees.bind (derefResponse_guarantees hnull) (fun r _ => ?_)
  cases r.body with
  | none => exact hE.json _
  | some body => trivial

theorem isOurComment_guarantees (hE : AdmitsAnswers E) (comment : Json) :
    Guarantees (isOurComment comment) (fun _ => True) E := by
  unfold isOurComment
  cases comment.pointer? ["user", "login"] with
  | none => trivial
  | some login => cases login <;> first | trivial | exact hE.json _

theorem readId_guarantees (hE : AdmitsAnswers E) (comment : Json) :
    Guarantees (do (← comment.subscript "id").getUInt32) (fun _ => True) E := by
  have hsub : Guarantees (comment.subscript "id") (fun _ => True) E := by
    cases comment <;> first | trivial | exact hE.json _
  refine hsub.bind (fun j _ => ?_)
  cases j <;> first | trivial | exact hE.json _

end Reading

/-! ## The member functions -/

section Members

variable {σ α β : Type} (api : Api σ) (ctx : RuntimeContext) (s₀ : Session σ)

/-- The request has been sent, and the client holds the id it held. -/
def Asked (request : Request) (s : Session σ) : Prop :=
  s.commentId = s₀.commentId ∧ s.sent = s₀.sent ++ [request]

/-- A return: the request has been sent. -/
def Answered (request : Request) (_ : Unit) (s : Session σ) : Prop :=
  s.sent = s₀.sent ++ [request]

/-- A throw: of a fault in `E`, before or after the request, with the id as
it was. -/
def Failed (request : Request) (E : Fault → Prop) (f : Fault) (s : Session σ) : Prop :=
  E f ∧ s.commentId = s₀.commentId ∧ (s.sent = s₀.sent ∨ s.sent = s₀.sent ++ [request])

variable {api s₀} {request : Request} {E : Fault → Prop} {R : β → Session σ → Prop}

/-- A check made before the request. -/
theorem triple_guard_bind {x : Except Fault α} {Q : α → Prop} {f : α → Call σ β}
    (h : Guarantees x Q E)
    (hf : ∀ a, Q a → Stateful.Triple (· = s₀) (f a) R (Failed s₀ request E)) :
    Stateful.Triple (· = s₀) (.lift x >>= f) R (Failed s₀ request E) := by
  have hx : Stateful.Triple (· = s₀) (.lift x : Call σ α) (fun a s => Q a ∧ s = s₀)
      (Failed s₀ request E) := by
    refine Stateful.triple_lift ?_
    rintro s rfl
    exact h.mono (fun a ha => ⟨ha, rfl⟩) (fun e he => ⟨he, rfl, .inl rfl⟩)
  exact hx.bind (fun a s hs => hf a hs.1 s hs.2)

/-- The request itself. -/
theorem triple_send_bind {f : Option Response → Call σ β}
    (hf : Stateful.Triple (Asked s₀ request) (f (api s₀.server request).1) R
      (Failed s₀ request E)) :
    Stateful.Triple (· = s₀) (send api request >>= f) R (Failed s₀ request E) := by
  rintro s rfl
  rw [Stateful.runOn_bind]
  exact hf _ ⟨rfl, rfl⟩

/-- What is made of the response. -/
theorem triple_asked_bind {x : Except Fault α} {Q : α → Prop} {f : α → Call σ β}
    (h : Guarantees x Q E)
    (hf : ∀ a, Q a → Stateful.Triple (Asked s₀ request) (f a) R (Failed s₀ request E)) :
    Stateful.Triple (Asked s₀ request) (.lift x >>= f) R (Failed s₀ request E) := by
  have hx : Stateful.Triple (Asked s₀ request) (.lift x : Call σ α)
      (fun a s => Q a ∧ Asked s₀ request s) (Failed s₀ request E) := by
    refine Stateful.triple_lift ?_
    intro s hs
    exact h.mono (fun a ha => ⟨ha, hs⟩) (fun e he => ⟨he, hs.1, .inr hs.2⟩)
  exact hx.bind (fun a s hs => hf a hs.1 s hs.2)

/-- A check that ends the function. -/
theorem triple_asked_last {x : Except Fault Unit} {Q : Unit → Prop} (h : Guarantees x Q E) :
    Stateful.Triple (Asked s₀ request) (.lift x : Call σ Unit) (Answered s₀ request)
      (Failed s₀ request E) := by
  refine Stateful.triple_lift ?_
  intro s hs
  exact h.mono (fun _ _ => hs.2) (fun e he => ⟨he, hs.1, .inr hs.2⟩)

/-- The id is stored last. -/
theorem triple_setCommentId (commentId : Nat) :
    Stateful.Triple (Asked s₀ request) (setCommentId commentId : Call σ Unit) (Answered s₀ request)
      (Failed s₀ request E) := Stateful.triple_step (fun _ hs => hs.2)

theorem triple_asked_pure :
    Stateful.Triple (Asked s₀ request) (pure () : Call σ Unit) (Answered s₀ request)
      (Failed s₀ request E) := Stateful.triple_pure (fun _ hs => hs.2)

theorem getIssueCommentId_triple (hE : AdmitsAnswers E)
    (hassert : ctx.eventName ∉ githubEventsSupportComments → E (.assertion .getIssueCommentId
      "ranges::contains(github_events_support_comments, ctx.event_name)"))
    (hnull : (api s₀.server (listRequest ctx)).1 = none → E .nullResponse) :
    Stateful.Triple (· = s₀) (getIssueCommentId api ctx) (Answered s₀ (listRequest ctx))
      (Failed s₀ (listRequest ctx) E) := by
  refine triple_guard_bind (assertThat_guarantees (fun hevent => ?_)) (fun _ _ => ?_)
  · exact hassert (by simpa using hevent)
  refine triple_send_bind ?_
  refine triple_asked_bind (checkHttpResponse_guarantees hE hnull) (fun _ _ => ?_)
  refine triple_asked_bind (parseBody_guarantees hE hnull) (fun body _ => ?_)
  have hnotArray : Stateful.Triple (Asked s₀ (listRequest ctx))
      (.lift (throwUnless false "issue comments are not an array"))
      (Answered s₀ (listRequest ctx)) (Failed s₀ (listRequest ctx) E) :=
    triple_asked_last (throwUnless_guarantees (hE.runtimeError _))
  cases body with
  | null => exact triple_asked_pure
  | array comments =>
      show Stateful.Triple _ (if comments.isEmpty then _ else _) _ _
      cases comments.isEmpty with
      | true => exact triple_asked_pure
      | false =>
          refine triple_asked_bind (Guarantees.findM? comments
            (fun c _ => isOurComment_guarantees hE c)) (fun found _ => ?_)
          cases found with
          | none => exact triple_asked_pure
          | some comment =>
              exact triple_asked_bind (readId_guarantees hE comment)
                (fun commentId _ => triple_setCommentId commentId)
  | boolean _ => exact hnotArray
  | integer _ => exact hnotArray
  | float _ => exact hnotArray
  | string _ => exact hnotArray
  | object _ => exact hnotArray

theorem addIssueComment_triple (hE : AdmitsAnswers E) (body : String)
    (hnull : (api s₀.server (addRequest ctx body)).1 = none → E .nullResponse) :
    Stateful.Triple (· = s₀) (addIssueComment api ctx body) (Answered s₀ (addRequest ctx body))
      (Failed s₀ (addRequest ctx body) E) := by
  refine triple_send_bind ?_
  refine triple_asked_bind (checkHttpResponse_guarantees hE hnull) (fun _ _ => ?_)
  refine triple_asked_bind (parseBody_guarantees hE hnull) (fun answer _ => ?_)
  have hnotObject : Stateful.Triple (Asked s₀ (addRequest ctx body))
      (.lift (throwUnless false "comment isn't object"))
      (Answered s₀ (addRequest ctx body)) (Failed s₀ (addRequest ctx body) E) :=
    triple_asked_last (throwUnless_guarantees (hE.runtimeError _))
  cases answer with
  | object members =>
      exact triple_asked_bind (readId_guarantees hE _)
        (fun commentId _ => triple_setCommentId commentId)
  | null => exact hnotObject
  | boolean _ => exact hnotObject
  | integer _ => exact hnotObject
  | float _ => exact hnotObject
  | string _ => exact hnotObject
  | array _ => exact hnotObject

theorem triple_getCommentId_bind {f : Nat → Call σ β} {F : Fault → Session σ → Prop}
    (hf : Stateful.Triple (· = s₀) (f s₀.commentId) R F) :
    Stateful.Triple (· = s₀) (getCommentId >>= f) R F := by
  rintro s rfl
  rw [Stateful.runOn_bind]
  exact hf _ rfl

theorem updateIssueComment_triple (hE : AdmitsAnswers E) (body : String)
    (hnull : s₀.commentId ≠ noCommentId → ctx.prNumber ≠ -1 →
      (api s₀.server (updateRequest ctx s₀.commentId body)).1 = none → E .nullResponse) :
    Stateful.Triple (· = s₀) (updateIssueComment api ctx body)
      (Answered s₀ (updateRequest ctx s₀.commentId body))
      (Failed s₀ (updateRequest ctx s₀.commentId body) E) := by
  refine triple_getCommentId_bind ?_
  refine triple_guard_bind (throwIf_guarantees (hE.runtimeError _)) (fun _ hid => ?_)
  refine triple_guard_bind (throwIf_guarantees (hE.runtimeError _)) (fun _ hpr => ?_)
  have hnull' := hnull (of_decide_eq_false hid) (of_decide_eq_false hpr)
  exact triple_send_bind (triple_asked_last (checkHttpResponse_guarantees hE hnull'))

theorem postPullRequestReview_triple (hE : AdmitsAnswers E) (body : Json)
    (hnull : (api s₀.server (reviewRequest ctx body)).1 = none → E .nullResponse) :
    Stateful.Triple (· = s₀) (postPullRequestReview api ctx body)
      (Answered s₀ (reviewRequest ctx body)) (Failed s₀ (reviewRequest ctx body) E) :=
  triple_send_bind (triple_asked_last (checkHttpResponse_guarantees hE hnull))

/-- What `add_or_update_issue_comment` sends, the client holding
`commentId`. -/
def writeRequest (ctx : RuntimeContext) (commentId : Nat) (body : String) : Request :=
  if commentId = noCommentId then addRequest ctx body else updateRequest ctx commentId body

theorem addOrUpdateIssueComment_triple (hE : AdmitsAnswers E) (body : String)
    (hnull : (api s₀.server (writeRequest ctx s₀.commentId body)).1 = none → E .nullResponse) :
    Stateful.Triple (· = s₀) (addOrUpdateIssueComment api ctx body)
      (Answered s₀ (writeRequest ctx s₀.commentId body))
      (Failed s₀ (writeRequest ctx s₀.commentId body) E) := by
  refine triple_getCommentId_bind ?_
  show Stateful.Triple _ (if s₀.commentId = noCommentId then _ else _) _ _
  unfold writeRequest at hnull ⊢
  by_cases hid : s₀.commentId = noCommentId
  · simp only [if_pos hid] at hnull ⊢
    exact addIssueComment_triple ctx hE body hnull
  · simp only [if_neg hid] at hnull ⊢
    exact updateIssueComment_triple ctx hE body (fun _ _ => hnull)

end Members

/-! ## Faults of the exchange -/

section OfExchange

variable {σ α : Type} (api : Api σ) (ctx : RuntimeContext)

theorem admitsAnswers_ofExchange : AdmitsAnswers OfExchange := ⟨fun _ => trivial, fun _ => trivial⟩

/-- A part of a member function throws only faults of the exchange. -/
abbrev Exchanges (call : Call σ α) : Prop :=
  Stateful.Ensures call (fun _ => True) OfExchange

theorem exchanges_step (f : Session σ → α × Session σ) : Exchanges (.step f : Call σ α) :=
  Stateful.ensures_step (fun _ => trivial)

theorem exchanges_of_triple {call : Call σ Unit} {request : Session σ → Request}
    (h : ∀ s₀, Stateful.Triple (· = s₀) call (Answered s₀ (request s₀))
      (Failed s₀ (request s₀) OfExchange)) : Exchanges call := by
  intro s
  have hpost := h s s rfl
  cases hrun : Stateful.runOn call s with
  | mk r s' =>
      rw [hrun] at hpost
      cases r with
      | ok u => trivial
      | error f => exact hpost.1

theorem getIssueCommentId_ensures : Exchanges (getIssueCommentId api ctx) :=
  exchanges_of_triple (fun _ =>
    getIssueCommentId_triple ctx admitsAnswers_ofExchange (fun _ => trivial) (fun _ => trivial))

theorem addOrUpdateIssueComment_ensures (body : String) :
    Exchanges (addOrUpdateIssueComment api ctx body) :=
  exchanges_of_triple (fun _ =>
    addOrUpdateIssueComment_triple ctx admitsAnswers_ofExchange body (fun _ => trivial))

theorem postPullRequestReview_ensures (body : Json) :
    Exchanges (postPullRequestReview api ctx body) :=
  exchanges_of_triple (fun _ =>
    postPullRequestReview_triple ctx admitsAnswers_ofExchange body (fun _ => trivial))

end OfExchange

/-! ## Ending cleanly -/

/-- A call of one of the functions that make a request, with its arguments. -/
inductive Operation where
  | getIssueCommentId (ctx : RuntimeContext)
  | addIssueComment (ctx : RuntimeContext) (body : String)
  | updateIssueComment (ctx : RuntimeContext) (body : String)
  | postPullRequestReview (ctx : RuntimeContext) (body : Json)

namespace Operation

variable {σ : Type} (api : Api σ)

def run : Operation → Call σ Unit
  | .getIssueCommentId ctx => Github.getIssueCommentId api ctx
  | .addIssueComment ctx body => Github.addIssueComment api ctx body
  | .updateIssueComment ctx body => Github.updateIssueComment api ctx body
  | .postPullRequestReview ctx body => Github.postPullRequestReview api ctx body

/-- The request of a call on a client that holds `commentId`: none where
`update_issue_comment` refuses before it asks. -/
def request? (commentId : Nat) : Operation → Option Request
  | .getIssueCommentId ctx => some (listRequest ctx)
  | .addIssueComment ctx body => some (addRequest ctx body)
  | .updateIssueComment ctx body =>
      if commentId = noCommentId ∨ ctx.prNumber = -1 then none
      else some (updateRequest ctx commentId body)
  | .postPullRequestReview ctx body => some (reviewRequest ctx body)

/-- The assertion of `get_issue_comment_id` holds. -/
def Asserted : Operation → Prop
  | .getIssueCommentId ctx => ctx.eventName ∈ githubEventsSupportComments
  | _ => True

/-- The call returns, or raises an exception and leaves `comment_id_` as it
was. -/
def EndsCleanly (op : Operation) (s : Session σ) : Prop :=
  Stateful.Post (fun _ _ => True) (fun f s' => f.IsException ∧ s'.commentId = s.commentId)
    (Stateful.runOn (op.run api) s)

theorem admitsAnswers_isException : AdmitsAnswers Fault.IsException :=
  ⟨fun _ => trivial, fun _ => trivial⟩

variable {api}

/-- A call whose triple admits only exceptions ends cleanly. -/
theorem endsCleanly_of_triple {op : Operation} {s : Session σ} {request : Request}
    (h : Stateful.Triple (· = s) (op.run api) (Answered s request)
      (Failed s request Fault.IsException)) : op.EndsCleanly api s :=
  h.mono (fun _ h => h) (fun _ _ _ => trivial) (fun _ _ hf => ⟨hf.1, hf.2.1⟩) s rfl

/-- A call that ends in no exception does not end cleanly. -/
theorem not_endsCleanly_of_error {op : Operation} {s : Session σ} {f : Fault}
    (h : (Stateful.runOn (op.run api) s).1 = .error f) (hf : ¬ f.IsException) :
    ¬ op.EndsCleanly api s := by
  intro hclean
  unfold EndsCleanly at hclean
  cases hrun : Stateful.runOn (op.run api) s with
  | mk r s' =>
      rw [hrun] at h hclean
      cases h
      exact hf hclean.1

/-- Without a response, what follows the request is what becomes of none. -/
theorem runOn_send_null {request : Request} {s : Session σ} {k : Option Response → Call σ Unit}
    (hnull : (api s.server request).1 = none)
    (hk : ∀ s', (Stateful.runOn (k none) s').1 = .error .nullResponse) :
    (Stateful.runOn (send api request >>= k) s).1 = .error .nullResponse := by
  rw [Stateful.runOn_bind, ← hk { s with
    server := (api s.server request).2, sent := s.sent ++ [request] }, ← hnull]
  rfl

theorem runOn_request_null {op : Operation} {s : Session σ} {request : Request}
    (hasserted : op.Asserted) (hrequest : op.request? s.commentId = some request)
    (hnull : (api s.server request).1 = none) :
    (Stateful.runOn (op.run api) s).1 = .error .nullResponse := by
  cases op with
  | getIssueCommentId ctx =>
      cases hrequest
      have hevent : githubEventsSupportComments.contains ctx.eventName = true :=
        List.contains_iff_mem.mpr hasserted
      rw [run, Github.getIssueCommentId, Stateful.runOn_bind, Stateful.runOn_lift, hevent]
      exact runOn_send_null hnull (fun _ => rfl)
  | addIssueComment ctx body =>
      cases hrequest
      exact runOn_send_null hnull (fun _ => rfl)
  | updateIssueComment ctx body =>
      rw [request?] at hrequest
      split at hrequest
      · cases hrequest
      · rename_i hguards
        cases hrequest
        rw [not_or] at hguards
        have hid : decide (s.commentId = noCommentId) = false := decide_eq_false hguards.1
        have hpr : decide (ctx.prNumber = -1) = false := decide_eq_false hguards.2
        rw [run, Github.updateIssueComment, getCommentId, Stateful.runOn_bind,
          Stateful.runOn_step, hpr]
        dsimp only
        rw [hid]
        show (Stateful.runOn (send api _ >>= fun response =>
          .lift (checkHttpResponse response)) s).1 = _
        exact runOn_send_null hnull (fun _ => rfl)
  | postPullRequestReview ctx body =>
      cases hrequest
      exact runOn_send_null hnull (fun _ => rfl)

/-- A server that cannot be reached. -/
def unreachable : Api Unit := fun server _ => (none, server)

/-- A review that is posted while the server cannot be reached. -/
def unsentReview : Operation :=
  .postPullRequestReview
    { repoPath := "/repo", repoPair := "owner/repo", eventName := "pull_request", prNumber := 1 }
    (.object [])

end Operation

end CppLint.Github
