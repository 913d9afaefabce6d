/-
CppLint.Report — the two reports to GitHub (`src/tools/base_reporter.cpp`),
and the part of `main` they belong to (`src/main.cpp`).

`comment_on_github_issue` and `comment_on_github_pull_request_review` each
make a client of their own, collect a text from the reporters, and send it.
`lintAndReport` is `main` from `fill_git_info` on, for a run that reports to
the pull request: the files of the action's output and step summary, the
comparison of HEAD with the source commit, and the log are left out.
-/
import CppLint.Github.Client
import CppLint.Tools

namespace CppLint

open CppLint.Lib CppLint.Git CppLint.Tool CppLint.Github

/-! ## The text of the comment -/

/-- The loop body of `make_reproduce_spec`; the state is `index` and
`content`. -/
def reproduceStep (state : Nat × String) (reporter : ReporterBase) : Nat × String :=
  let failedCommands := reporter.getFailedCommands
  if failedCommands.isEmpty then state
  else
    let content := state.2 ++ "\n# " ++ toString state.1 ++ ". Reproduce " ++ reporter.toolName
      ++ "\n"
    (state.1 + 1, failedCommands.foldl (fun content command => content ++ command ++ "\n") content)

/-- `make_reproduce_spec`. -/
def makeReproduceSpec (reporters : List ReporterBase) : String :=
  let content := "```shell\n# 1. Enter your local repository\ncd /path/to/your/repository\n"
  (reporters.foldl reproduceStep (2, content)).2 ++ "\n```"

/-- `details_fmt` applied to a text. -/
def formatDetails (text : String) : String := "<details>\n" ++ text ++ "\n</details>\n"

/-- `table_row_fmt` applied to a tool's brief result. -/
def formatTableRow (toolName : String) (brief : BriefResult) : String :=
  "| **" ++ toolName ++ "** | " ++ toString brief.successed ++ " | " ++ toString brief.failed
    ++ " | " ++ toString brief.ignored ++ " |\n"

/-- `summary_fmt` applied to a number of failed files and a tool. -/
def formatSummary (failed : Nat) (toolName : String) : String :=
  "<summary>:mag_right: Click here to see the details of <strong>" ++ toString failed
    ++ "</strong> failed " ++ (if failed = 1 then "file" else "files")
    ++ " reported by <strong>" ++ toolName ++ "</strong></summary>\n\n"

/-- The loop body of `comment_on_github_issue`; the state is `table_rows`
and `details`. -/
def describeReporter (ord : Enumeration String) (state : String × String)
    (reporter : ReporterBase) : Except Fault (String × String) := do
  let brief := reporter.getBriefResult
  let toolName := reporter.toolName
  let tableRows := state.1 ++ formatTableRow toolName brief
  if brief.isPassed then
    return (tableRows, state.2)
  else
    assertThat .commentOnGithubIssue (brief.failed ≠ 0) "failed != 0"
    let summary := formatSummary brief.failed toolName
    let toolDetail := reporter.makeIssueComment ord ++ "\n"
    return (tableRows, state.2 ++ formatDetails (summary ++ toolDetail))

/-- `header`, `table_header` and `table_sep_line`. -/
def tableHead : String :=
  "# :100: Code Quality Result by [CppLintAction](https://github.com/emmett2020/cpp-lint-action)\n"
    ++ "| Tool Name | Passed | Failed | Ignored |\n"
    ++ "|-----------|--------|--------|---------|\n"

/-- `usage_summary`. -/
def usageSummary : String :=
  "<summary> :mag_right: Steps to <strong>reproduce</strong> this result in your local "
    ++ "environment</summary>\n\n"

/-- The text `comment_on_github_issue` sends. -/
def issueContent (ord : Enumeration String) (reporters : List ReporterBase) :
    Except Fault String := do
  let (tableRows, details) ← reporters.foldlM (describeReporter ord) ("", "")
  let details := details ++ formatDetails (usageSummary ++ makeReproduceSpec reporters)
  return tableHead ++ tableRows ++ details

/-- The comments `comment_on_github_pull_request_review` collects. -/
def reviewComments (ord : Enumeration String) (context : RuntimeContext)
    (reporters : List ReporterBase) : Except Fault (List ReviewComment) :=
  reporters.foldlM (fun comments reporter => do
    let ret ← reporter.makeReviewComment ord context
    return comments ++ ret) []

/-! ## The reports -/

variable {σ : Type} (api : Api σ) (ord : Enumeration String)

/-- A new client. -/
def newClient : Call σ Unit := .step (fun s => ((), { s with commentId := noCommentId }))

/-- `comment_on_github_issue`. -/
def commentOnGithubIssue (context : RuntimeContext) (reporters : List ReporterBase) :
    Call σ Unit := do
  newClient
  getIssueCommentId api context
  let content ← .lift (issueContent ord reporters)
  addOrUpdateIssueComment api context content

/-- `comment_on_github_pull_request_review`. -/
def commentOnGithubPullRequestReview (context : RuntimeContext) (reporters : List ReporterBase) :
    Call σ Unit := do
  newClient
  let comments ← .lift (reviewComments ord context reporters)
  postPullRequestReview api context (makeReviewStr comments)

/-- The part of `main` that lints and reports to the pull request. -/
def lintAndReport (git : Libgit2) (tools : List (Host × ToolBase)) (context : RuntimeContext) :
    Call σ Nat := do
  let context ← .lift (fillGitInfo git ord context)
  let reporters ← .lift (runTools tools context)
  if context.enableCommentOnIssue then
    commentOnGithubIssue api ord context reporters
  if context.enablePullRequestReview then
    commentOnGithubPullRequestReview api ord context reporters
  return exitStatus reporters

end CppLint
