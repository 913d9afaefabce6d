/-
CppLint.Github.Client — the client of GitHub's REST interface
(`src/github/client.h`, and the constants of `src/github/common.h` it uses).

A client is its `comment_id_`; everything else about it is the connection. A
member function runs on a `Session`: the client, the other side, and the
requests sent so far. The other side is a parameter, an `Api σ` that answers
a request from its own state and may change it; an answer of `none` is a
request without response, which the functions dereference all the same.

`comment_id_` is a `std::uint32_t` that starts as -1, so `noCommentId` is
`2 ^ 32 - 1` and a response whose comment has that id is mistaken for it.
-/
import CppLint.Context
import CppLint.Github.Json
import CppLint.Lib.Stateful

namespace CppLint.Github

open CppLint.Lib

/-! ## Constants -/

/-- `our_name`. -/
def ourName : String := "emmett2020"

/-- `github_events_support_comments`. -/
def githubEventsSupportComments : List String := ["pull_request", "pull_request_target"]

/-! ## Requests and responses -/

inductive Method where
  | get
  | post
deriving DecidableEq, Repr

/-- The resources the client asks for. -/
inductive Endpoint where
  | issueComments (repoPair : String) (prNumber : Int)
  | issueComment (repoPair : String) (commentId : Nat)
  | pullReviews (repoPair : String) (prNumber : Int)
deriving DecidableEq, Repr

/-- The path of the request line. -/
def Endpoint.path : Endpoint → String
  | .issueComments repoPair prNumber =>
      "/repos/" ++ repoPair ++ "/issues/" ++ toString prNumber ++ "/comments"
  | .issueComment repoPair commentId =>
      "/repos/" ++ repoPair ++ "/issues/comments/" ++ toString commentId
  | .pullReviews repoPair prNumber =>
      "/repos/" ++ repoPair ++ "/pulls/" ++ toString prNumber ++ "/reviews"

/-- A request: the body is the JSON value whose text is sent. -/
structure Request where
  method : Method
  endpoint : Endpoint
  headers : List (String × String)
  body : Option Json

/-- A response: the body is what `json::parse` makes of its text, if it is
JSON. -/
structure Response where
  status : Int
  reason : String
  body : Option Json

/-- The other side. -/
abbrev Api (σ : Type) : Type := σ → Request → Option Response × σ

/-! ## The client -/

/-- The value of a new client's `comment_id_`. -/
def noCommentId : Nat := 2 ^ 32 - 1

/-- A client at work. -/
structure Session (σ : Type) where
  commentId : Nat := noCommentId
  server : σ
  sent : List Request := []

/-- A member function of the client. -/
abbrev Call (σ α : Type) : Type := Stateful Fault (Session σ) α

variable {σ : Type} (api : Api σ)

/-- A request and its response. -/
def send (request : Request) : Call σ (Option Response) :=
  .step (fun s =>
    let (response, server) := api s.server request
    (response, { s with server := server, sent := s.sent ++ [request] }))

/-- `operator->` on a response. -/
def derefResponse : Option Response → Except Fault Response
  | some response => .ok response
  | none => .error .nullResponse

/-- `check_http_response`. -/
def checkHttpResponse (response : Option Response) : Except Fault Unit := do
  let response ← derefResponse response
  let code := response.status.tdiv 100
  throwUnless (code = 1 || code = 2)
    ("http response error: http status code: " ++ toString response.status ++ ", reason: "
      ++ response.reason)

/-- `json::parse(response->body)`. -/
def parseBody (response : Option Response) : Except Fault Json := do
  let response ← derefResponse response
  match response.body with
  | some body => .ok body
  | none => .error (.json "parse_error.101")

/-- The headers of a request. -/
def makeHeaders (ctx : RuntimeContext) (accept : String) : List (String × String) :=
  [("Accept", accept), ("Authorization", "token " ++ ctx.token)]

/-- The first request of `get_issue_comment_id`. -/
def listRequest (ctx : RuntimeContext) : Request where
  method := .get
  endpoint := .issueComments ctx.repoPair ctx.prNumber
  headers := makeHeaders ctx "application/vnd.github+json"
  body := none

/-- The request of `add_issue_comment`. -/
def addRequest (ctx : RuntimeContext) (body : String) : Request where
  method := .post
  endpoint := .issueComments ctx.repoPair ctx.prNumber
  headers := makeHeaders ctx "application/vnd.github.use_diff"
  body := some (.object [("body", .string body)])

/-- The request of `update_issue_comment`. -/
def updateRequest (ctx : RuntimeContext) (commentId : Nat) (body : String) : Request where
  method := .post
  endpoint := .issueComment ctx.repoPair commentId
  headers := makeHeaders ctx "application/vnd.github.use_diff"
  body := some (.object [("body", .string body)])

/-- The request of `post_pull_request_review`. -/
def reviewRequest (ctx : RuntimeContext) (body : Json) : Request where
  method := .post
  endpoint := .pullReviews ctx.repoPair ctx.prNumber
  headers := makeHeaders ctx "application/vnd.github.use_diff"
  body := some body

/-- `is_our_comment`: a comment without a login counts as ours. -/
def isOurComment (comment : Json) : Except Fault Bool :=
  match comment.pointer? ["user", "login"] with
  | none => .ok true
  | some login => do
      let name ← login.getString
      return name = ourName

/-- Assigns `comment_id_`. -/
def setCommentId (commentId : Nat) : Call σ Unit :=
  .step (fun s => ((), { s with commentId := commentId }))

/-- Reads `comment_id_`. -/
def getCommentId : Call σ Nat := .step (fun s => (s.commentId, s))

/-- `get_issue_comment_id`. -/
def getIssueCommentId (ctx : RuntimeContext) : Call σ Unit := do
  .lift (assertThat .getIssueCommentId (githubEventsSupportComments.contains ctx.eventName)
    "ranges::contains(github_events_support_comments, ctx.event_name)")
  let response ← send api (listRequest ctx)
  .lift (checkHttpResponse response)
  match ← .lift (parseBody response) with
  | .null => return
  | .array comments =>
      if comments.isEmpty then return
      match ← .lift (comments.findM? isOurComment) with
      | none => return
      | some comment =>
          let commentId ← .lift (do (← comment.subscript "id").getUInt32)
          setCommentId commentId
  | _ => .lift (throwUnless false "issue comments are not an array")

/-- `add_issue_comment`. -/
def addIssueComment (ctx : RuntimeContext) (body : String) : Call σ Unit := do
  let response ← send api (addRequest ctx body)
  .lift (checkHttpResponse response)
  match ← .lift (parseBody response) with
  | .object members =>
      let commentId ← .lift (do (← (Json.object members).subscript "id").getUInt32)
      setCommentId commentId
  | _ => .lift (throwUnless false "comment isn't object")

/-- `update_issue_comment`. -/
def updateIssueComment (ctx : RuntimeContext) (body : String) : Call σ Unit := do
  let commentId ← getCommentId
  .lift (throwIf (commentId = noCommentId) "the client doesn't have comment_id yet")
  .lift (throwIf (ctx.prNumber = -1) "the context doesn't have pr-number yet")
  let response ← send api (updateRequest ctx commentId body)
  .lift (checkHttpResponse response)

/-- `add_or_update_issue_comment`. -/
def addOrUpdateIssueComment (ctx : RuntimeContext) (body : String) : Call σ Unit := do
  let commentId ← getCommentId
  if commentId = noCommentId then addIssueComment api ctx body
  else updateIssueComment api ctx body

/-- `post_pull_request_review`. -/
def postPullRequestReview (ctx : RuntimeContext) (body : Json) : Call σ Unit := do
  let response ← send api (reviewRequest ctx body)
  .lift (checkHttpResponse response)

end CppLint.Github
