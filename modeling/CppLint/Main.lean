/-
CppLint.Main — the program from its command line to its exit status
(`src/main.cpp`, `src/tools/base_creator.h`).

What a run finds outside the program is a `Runner`: the environment, the
repository, the machine for each of the two tools, and the file system. The
file system is part of the state `σ` the other side of the client has, so a
report to a file and a report to GitHub act on the same world.

`prepare` is everything before the first report. It makes no request: it
ends with the help, with the version, or with the context and the reporters
of the reporting phase, which is `report`. The log is left out, and with it
`print_context`, whose two commits are there after `fill_git_info`.
-/
import CppLint.ClangFormat.Creator
import CppLint.ClangTidy.Creator
import CppLint.Github.Env
import CppLint.Report

namespace CppLint

open CppLint.Lib CppLint.Git CppLint.Tool CppLint.Github CppLint.ProgramOptions

/-! ## The surroundings of a run -/

/-- What a run finds: `append world file text` opens a file for appending
and writes to it, or does not get it open. -/
structure Runner (σ : Type) where
  getenv : String → String
  git : Libgit2Refs
  ord : Enumeration String
  clangFormatHost : Host
  clangTidyHost : Host
  append : σ → String → String → Option σ

/-! ## Before the reports -/

/-- `supported_log_level`. -/
def supportedLogLevel : List String := ["trace", "debug", "info", "error"]

/-- `set_log`. -/
def setLog (vars : VariablesMap) : Except Fault Unit := do
  assertThat .setLog (decide ("log-level" ∈ vars)) "vars.contains(log_level_opt)"
  let level ← asString vars "log-level"
  let logLevel := String.ofList (level.toList.map Char.toLower)
  throwUnless (supportedLogLevel.contains logLevel) ("unsupported log level: " ++ logLevel)

/-- The options of the program, after `register_tool_options`. -/
def allOptions : OptionsDescription :=
  createDesc ++ ClangFormat.registerOption ++ ClangTidy.registerOption

variable {σ : Type} (runner : Runner σ)

/-- `create_enabled_tools`, with the machine each tool will run on. -/
def createEnabledTools (vars : VariablesMap) : Except Fault (List (Host × ToolBase)) := do
  let format ← ClangFormat.createTool runner.clangFormatHost vars
  let tidy ← ClangTidy.createTool runner.clangTidyHost vars
  return (format.map (fun tool => (runner.clangFormatHost, .clangFormat tool))).toList
    ++ (tidy.map (fun tool => (runner.clangTidyHost, .clangTidy tool))).toList

/-- `check_repo_is_on_source`: the two commits are compared as pointers, and
the message is made before the comparison decides whether it is needed. -/
def checkRepoIsOnSource (git : Libgit2Refs) (ctx : RuntimeContext) : Except Fault Unit := do
  let repo ← deref ctx.repo
  let commit ← headCommit git repo
  let headId := idStr (← deref commit)
  let sourceId := idStr (← deref ctx.sourceCommit)
  throwUnless (commit.map Commit.handle = ctx.sourceCommit.map Commit.handle)
    ("Head of repository isn't equal to source commit: " ++ headId ++ " != " ++ sourceId)

/-- How `main` stands before the first report. -/
inductive StartUp where
  | help
  | version
  | reporting (context : RuntimeContext) (reporters : List ReporterBase)

/-- `main`, up to the reports. -/
def prepare (args : List String) : Except Fault StartUp := do
  let userOptions ← parse args allOptions
  if "help" ∈ userOptions then return .help
  else if "version" ∈ userOptions then return .version
  else
    setLog userOptions
    let tools ← createEnabledTools runner userOptions
    let context ← ProgramOptions.fillContext userOptions {}
    let env ← readEnv runner.getenv
    let context ← Github.fillContext env context
    let context ← fillGitInfo runner.git.toLibgit2 runner.ord context
    checkRepoIsOnSource runner.git context
    let reporters ← runTools tools context
    return .reporting context reporters

/-! ## The reports -/

/-- Opening a file for appending, checking that it is open, and writing. -/
def appendToFile (file text message : String) : Call σ Unit := do
  let opened ← .step (fun s =>
    match runner.append s.server file text with
    | some server => (true, { s with server := server })
    | none => (false, s))
  .lift (throwUnless opened message)

/-- The line `write_to_action_output` writes. -/
def ReporterBase.actionOutput : ReporterBase → String
  | .clangTidy r => "clang_tidy_failed_number=" ++ toString r.result.fails.size ++ "\n"
  | .clangFormat r => "clang_format_failed_number=" ++ toString r.result.fails.size ++ "\n"

/-- `write_to_github_action_output`. -/
def writeToGithubActionOutput : List ReporterBase → Call σ Unit
  | [] => pure ()
  | reporter :: reporters => do
      appendToFile runner (runner.getenv "GITHUB_OUTPUT") reporter.actionOutput
        "error to open output file to write"
      writeToGithubActionOutput reporters

/-- The text of `write_to_github_step_summary`. `make_step_summary` of
either tool is what it says about itself in the comment. -/
def stepSummary (ord : Enumeration String) (reporters : List ReporterBase) : String :=
  let title := "# The cpp-lint-action Result"
  if allPassed reporters then title ++ ":rocket: All checks on all file passed."
  else
    title ++ ":warning: Some files didn't pass the cpp-lint-action checks\n"
      ++ reporters.foldl (fun summary reporter =>
        summary ++ (reporter.makeIssueComment ord ++ "\n")) ""

/-- `write_to_github_step_summary`. -/
def writeToGithubStepSummary (reporters : List ReporterBase) : Call σ Unit :=
  appendToFile runner (runner.getenv "GITHUB_STEP_SUMMARY") (stepSummary runner.ord reporters)
    "failed to open step summary file to write"

/-- The reporting phase of `main`. -/
def report (api : Api σ) (context : RuntimeContext) (reporters : List ReporterBase) :
    Call σ Nat := do
  .onlyIf context.enableActionOutput (writeToGithubActionOutput runner reporters)
  .onlyIf context.enableStepSummary (writeToGithubStepSummary runner reporters)
  .onlyIf context.enableCommentOnIssue (commentOnGithubIssue api runner.ord context reporters)
  .onlyIf context.enablePullRequestReview
    (commentOnGithubPullRequestReview api runner.ord context reporters)
  return exitStatus reporters

/-- `main`, on the words after the program's name. -/
def main (api : Api σ) (args : List String) : Call σ Nat := do
  match ← .lift (prepare runner args) with
  | .help => return 0
  | .version => return 0
  | .reporting context reporters => report runner api context reporters

end CppLint
