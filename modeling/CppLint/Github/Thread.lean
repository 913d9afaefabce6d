/-
CppLint.Github.Thread — the comment thread of a pull request, and runs of
the client on it.

The other side as GitHub documents it, for the requests the client makes of
an issue's comments: a list request without page parameters returns the
oldest 30 comments, a POST to the thread appends a comment by us under an id
not used before, and a POST to a comment replaces its body. A `Forge` is one
thread and the way it numbers new comments.

Runs of the client do not overlap, but other users keep writing: a comment
of theirs may come before a run (`Step.others`), and any number of comments
between the two requests of a run (`arriving`). `Step` is one such event,
the run being the model of the client itself; a history is a sequence of
them.
-/
import CppLint.Github.Client
import CppLint.Lib.Transition

namespace CppLint.Github

open CppLint.Lib

/-! ## Threads -/

/-- A comment of a thread. The account of its author may be gone. -/
structure Comment where
  id : Nat
  user : Option String
  body : String
deriving DecidableEq, Repr

/-- The comment as the list request gives it. -/
def Comment.toJson (c : Comment) : Json :=
  .object [("id", .integer c.id),
    ("user", match c.user with
      | some name => .object [("login", .string name)]
      | none => .null),
    ("body", .string c.body)]

/-- A thread, oldest comment first. -/
abbrev Thread : Type := List Comment

/-- The ids of the comments. -/
def Thread.ids (t : Thread) : List Nat := t.map Comment.id

/-- The comment is ours. -/
def Comment.byUs (c : Comment) : Bool := c.user = some ourName

/-- The number of comments in an answer to the list request. -/
def pageSize : Nat := 30

/-- The thread with the body of one comment replaced. -/
def Thread.edit (t : Thread) (id : Nat) (body : String) : Thread :=
  t.map (fun c => if c.id = id then { c with body := body } else c)

/-! ## The other side -/

/-- One thread, and the id it gives to the next comment. -/
structure Forge where
  repoPair : String
  prNumber : Int
  fresh : Thread → Nat
  fresh_notMem : ∀ t, fresh t ∉ t.ids

/-- The state of the other side during a run: the thread, and the comments
of other users that come in once the list has been read. -/
structure ForgeState where
  thread : Thread
  arriving : Thread := []

/-- The text of the comment a request carries. -/
def Request.text (request : Request) : String :=
  match request.body.bind (Json.member? "body") with
  | some (.string text) => text
  | _ => ""

/-- The answer for a resource that is not there. -/
def notFound : Option Response := some ⟨404, "Not Found", some (.object [])⟩

/-- The answers of the other side. -/
def Forge.api (forge : Forge) : Api ForgeState := fun state request =>
  match request.method, request.endpoint with
  | .get, .issueComments repoPair prNumber =>
      if repoPair = forge.repoPair ∧ prNumber = forge.prNumber then
        (some ⟨200, "OK", some (.array ((state.thread.take pageSize).map Comment.toJson))⟩,
          ⟨state.thread ++ state.arriving, []⟩)
      else (notFound, state)
  | .post, .issueComments repoPair prNumber =>
      if repoPair = forge.repoPair ∧ prNumber = forge.prNumber then
        let comment : Comment := ⟨forge.fresh state.thread, some ourName, request.text⟩
        (some ⟨201, "Created", some comment.toJson⟩,
          { state with thread := state.thread ++ [comment] })
      else (notFound, state)
  | .post, .issueComment repoPair commentId =>
      if repoPair = forge.repoPair ∧ commentId ∈ state.thread.ids then
        (some ⟨200, "OK", some (.object [])⟩,
          { state with thread := state.thread.edit commentId request.text })
      else (notFound, state)
  | _, _ => (notFound, state)

/-! ## Runs -/

/-- A run of the client: find the comment, write the body. -/
def writeThread {σ : Type} (api : Api σ) (ctx : RuntimeContext) (body : String) : Call σ Unit := do
  getIssueCommentId api ctx
  addOrUpdateIssueComment api ctx body

/-- A run of a new client on a thread. -/
def runOnThread (forge : Forge) (ctx : RuntimeContext) (t arriving : Thread) (body : String) :
    Except Fault Unit × Session ForgeState :=
  Stateful.runOn (writeThread forge.api ctx body) { server := ⟨t, arriving⟩ }

/-- A thread, and the body of the last completed run. -/
structure History where
  thread : Thread
  lastBody : Option String := none

/-- What can happen to a thread. -/
inductive Event where
  | others (c : Comment)
  | run (body : String) (arriving : Thread)

/-- Comments of other users, under ids not used before. -/
def FromOthers (t arriving : Thread) : Prop :=
  (t ++ arriving).ids.Nodup ∧ ∀ c ∈ arriving, c.byUs = false

/-- One event. A run counts when it completes. -/
inductive Step (forge : Forge) (ctx : RuntimeContext) : History → Event → History → Prop
  | others {h : History} {c : Comment} (hc : FromOthers h.thread [c]) :
      Step forge ctx h (.others c) { h with thread := h.thread ++ [c] }
  | run {h : History} {body : String} {arriving : Thread} {s : Session ForgeState}
      (harriving : FromOthers h.thread arriving)
      (hrun : runOnThread forge ctx h.thread arriving body = (.ok (), s)) :
      Step forge ctx h (.run body arriving) ⟨s.server.thread, some body⟩

end CppLint.Github
