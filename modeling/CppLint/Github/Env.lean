/-
CppLint.Github.Env — the environment of the action
(`src/github/common.h`, `src/github/common.cpp`).

`getenv` is `env::get`: the value of a variable, or the empty string. The
name the source gives for the type of the ref is that of the ref itself.
`readVariables` reads the same variables through the manager, whose cache
the reads fill.
-/
import CppLint.Github.Client
import CppLint.Utils.EnvManager
import CppLint.Utils.Text

namespace CppLint.Github

/-- `github_env`. -/
structure GithubEnv where
  workspace : String
  eventName : String
  githubSha : String
  repository : String
  token : String
  baseRef : String
  headRef : String
  githubRef : String
  githubRefType : String

/-- `github_events_with_pr_number`. -/
def githubEventsWithPrNumber : List String := ["pull_request", "pull_request_target"]

/-- `parse_pr_number`. -/
def parsePrNumber (refName : String) : Except Fault Int :=
  match splitFields refName.toList '/' with
  | [_, _, number, _] => stoi (String.ofList number)
  | _ => .error (.runtimeError ("ref_name format error: " ++ refName))

/-- `check_env`. -/
def checkEnv (env : GithubEnv) : Except Fault Unit := do
  throwIf (env.repository = "") "empty git repository, check env: GITHUB_REPOSITORY"
  throwIf (env.token = "") "empty token, check env: GITHUB_TOKEN"
  throwIf (env.eventName = "") "empty git event, check env: GITHUB_EVENT_NAME"
  throwIf (env.githubRef = "") "empty github ref, check env: GITHUB_REF"
  throwIf (env.githubSha = "") "empty github sha, check env: GITHUB_SHA"
  throwIf (env.githubRefType = "") "empty git ref type, check env: GITHUB_REF_TYPE"
  throwIf (env.workspace = "") "empty git repository workspace, check env: GITHUB_WORKSPACE"

/-- The variables `read_env` reads. -/
def githubEnv (getenv : String → String) : GithubEnv where
  repository := getenv "GITHUB_REPOSITORY"
  token := getenv "GITHUB_TOKEN"
  eventName := getenv "GITHUB_EVENT_NAME"
  baseRef := getenv "GITHUB_BASE_REF"
  headRef := getenv "GITHUB_HEAD_REF"
  githubRef := getenv "GITHUB_REF"
  githubSha := getenv "GITHUB_SHA"
  githubRefType := getenv "GITHUB_REF"
  workspace := getenv "GITHUB_WORKSPACE"

/-- The calls of `read_env` to `env::get`, in its order. -/
def readVariables (getenv : String → Option String) : StateM Env.Cache GithubEnv := do
  let repository ← Env.get getenv "GITHUB_REPOSITORY"
  let token ← Env.get getenv "GITHUB_TOKEN"
  let eventName ← Env.get getenv "GITHUB_EVENT_NAME"
  let baseRef ← Env.get getenv "GITHUB_BASE_REF"
  let headRef ← Env.get getenv "GITHUB_HEAD_REF"
  let githubRef ← Env.get getenv "GITHUB_REF"
  let githubSha ← Env.get getenv "GITHUB_SHA"
  let githubRefType ← Env.get getenv "GITHUB_REF"
  let workspace ← Env.get getenv "GITHUB_WORKSPACE"
  return {
    repository := repository
    token := token
    eventName := eventName
    baseRef := baseRef
    headRef := headRef
    githubRef := githubRef
    githubSha := githubSha
    githubRefType := githubRefType
    workspace := workspace }

/-- `read_env`. -/
def readEnv (getenv : String → String) : Except Fault GithubEnv := do
  let env := githubEnv getenv
  checkEnv env
  return env

/-- `fill_context`: the number is read for an event that has one, when a
report may need it. -/
def fillContext (env : GithubEnv) (ctx : RuntimeContext) : Except Fault RuntimeContext := do
  let ctx := { ctx with
    repoPath := env.workspace
    eventName := env.eventName
    source := env.githubSha
    token := env.token
    repoPair := env.repository }
  let needsParsePrNumber := githubEventsWithPrNumber.contains ctx.eventName
    && (ctx.enableCommentOnIssue || ctx.enablePullRequestReview)
  if needsParsePrNumber then
    let prNumber ← parsePrNumber env.githubRef
    return { ctx with prNumber := prNumber }
  else return ctx

end CppLint.Github
