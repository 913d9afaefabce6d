/-
CppLint.ClangTidy.Impl — running clang-tidy on the changed files
(`src/tools/clang_tidy/general/{option.h, result.h, impl.h, impl.cpp}`).

`parse_stderr` and the `stat` member of `per_file_result` are left out: the
first is never called and the second never filled.
-/
import CppLint.Tool.Base

namespace CppLint.ClangTidy

open CppLint.Lib CppLint.Tool

/-! ## Options and results -/

/-- `option_t`. -/
structure Options extends OptionBase where
  allowNoChecks : Bool := false
  enableCheckProfile : Bool := false
  checks : String := ""
  config : String := ""
  configFile : String := ""
  database : String := ""
  headerFilter : String := ""
  lineFilter : String := ""
deriving DecidableEq, Repr

/-- `diagnostic_header`. -/
structure DiagnosticHeader where
  fileName : String
  rowIdx : String
  colIdx : String
  serverity : String
  brief : String
  diagnosticType : String
deriving DecidableEq, Repr

/-- `diagnostic`. -/
structure Diagnostic where
  header : DiagnosticHeader
  details : String := ""
deriving DecidableEq, Repr

/-- `per_file_result`. -/
structure PerFileResult extends PerFileResultBase where
  diags : List Diagnostic := []
deriving DecidableEq, Repr

/-! ## Parsing the output -/

/-- `supported_serverity`. -/
def supportedServerity : List String := ["warning", "info", "error"]

/-- `parse_diagnostic_header`: the line must have exactly five fields
between its colons. -/
def parseDiagnosticHeader (line : String) : Option DiagnosticHeader :=
  match splitFields line.toList ':' with
  | [fileName, rowIdx, colIdx, fourth, diagnosticType] =>
      let serverity := trimLeft fourth
      if !rowIdx.all Char.isDigit then none
      else if !colIdx.all Char.isDigit then none
      else if !supportedServerity.contains (String.ofList serverity) then none
      else
        match diagnosticType.findIdx? (· = '[') with
        | none => none
        | some squareBrackets =>
            if diagnosticType.length < 3 || diagnosticType.getLast? ≠ some ']' then none
            else some {
              fileName := String.ofList fileName
              rowIdx := String.ofList rowIdx
              colIdx := String.ofList colIdx
              serverity := String.ofList serverity
              brief := String.ofList (diagnosticType.take squareBrackets)
              diagnosticType := String.ofList (diagnosticType.drop squareBrackets) }
  | _ => none

/-- `diags.back().details += line`. -/
def appendDetails : List Diagnostic → String → List Diagnostic
  | [], _ => []
  | [d], line => [{ d with details := d.details ++ line }]
  | d :: ds, line => d :: appendDetails ds line

/-- The loop body of `parse_stdout`; the state is `diags` and
`needs_details`. -/
def parseLine (state : List Diagnostic × Bool) (line : String) : List Diagnostic × Bool :=
  match parseDiagnosticHeader line with
  | some header => (state.1 ++ [{ header := header }], true)
  | none => if state.2 then (appendDetails state.1 line, state.2) else state

/-- `parse_stdout`. -/
def parseStdout (stdOut : String) : List Diagnostic :=
  (((splitFields stdOut.toList '\n').map String.ofList).foldl parseLine ([], false)).1

example : parseStdout "/r/a.cpp:3:7: warning: unused [x-y]\n  int n;\n"
    = [⟨⟨"/r/a.cpp", "3", "7", "warning", " unused ", "[x-y]"⟩, "  int n;"⟩] := by decide

/-! ## Running the tool -/

/-- The argument vector `execute` builds. -/
def executeOpts (option : Options) (file : String) : List String :=
  (if option.database ≠ "" then ["-p=" ++ option.database] else [])
    ++ (if option.checks ≠ "" then ["-checks=" ++ option.checks] else [])
    ++ (if option.allowNoChecks then ["--allow-no-checks"] else [])
    ++ (if option.config ≠ "" then ["--config=" ++ option.config] else [])
    ++ (if option.configFile ≠ "" then ["--config-file=" ++ option.configFile] else [])
    ++ (if option.enableCheckProfile then ["--enable-check-profile"] else [])
    ++ (if option.headerFilter ≠ "" then ["--header-filter=" ++ option.headerFilter] else [])
    ++ (if option.lineFilter ≠ "" then ["--line-filter=" ++ option.lineFilter] else [])
    ++ [file]

/-- `execute`: the result of the run, and the arguments joined by spaces. -/
def execute (host : Host) (option : Options) (repo file : String) :
    Except Fault (Shell.Result × String) := do
  let opts := executeOpts option file
  let argStr := concat opts ' '
  let res ← external (host.execute option.binary opts repo)
  return (res, argStr)

/-- `clang_tidy_general::check_single_file`. -/
def checkSingleFile (host : Host) (option : Options) (_context : RuntimeContext)
    (rootDir file : String) : Except Fault PerFileResult := do
  let (res, failedCommand) ← execute host option rootDir file
  return {
    passed := res.exitCode = 0
    diags := parseStdout res.stdOut
    toolStdout := res.stdOut
    toolStderr := res.stdErr
    filePath := file
    fileOption := failedCommand }

/-- `clang_tidy_general`; the subclasses for single versions differ in what
`version()` returns only. -/
structure ClangTidyGeneral where
  option : Options
  result : MultiFilesResult PerFileResult := {}

/-- What `check` of clang-tidy puts into the shared loop. -/
def checker (host : Host) (option : Options) : Checker PerFileResult where
  option := option.toOptionBase
  commandName := "clang-tidy"
  base := PerFileResult.toPerFileResultBase
  checkSingleFile := checkSingleFile host option

/-- `clang_tidy_general::check`. -/
def check (host : Host) (tool : ClangTidyGeneral) (context : RuntimeContext) :
    Except Fault ClangTidyGeneral := do
  let result ← runCheck host (checker host tool.option) context tool.result
  return { tool with result := result }

end CppLint.ClangTidy
