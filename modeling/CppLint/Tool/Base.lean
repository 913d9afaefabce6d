/-
CppLint.Tool.Base — options, results and the check loop the tools share
(`src/tools/base_option.h`, `src/tools/base_result.h`, and the two copies of
`check` in `src/tools/clang_tidy/general/impl.cpp` and
`src/tools/clang_format/general/impl.cpp`).

The two copies of `check` differ in the command name they record and in
`check_single_file`. `Checker` is what they differ in, `checkFile` the body
of the loop and `runCheck` the whole member function.
-/
import CppLint.Context
import CppLint.Lib.Loop
import CppLint.Tool.Host

namespace CppLint.Tool

open CppLint.Lib CppLint.Git

/-- `option_base`. -/
structure OptionBase where
  enabled : Bool := false
  enabledFastlyExit : Bool := false
  version : String := ""
  binary : String := ""
  fileFilterIregex : String := ".*\\.(cpp|cc|c\\+\\+|cxx|c|cl|h|hpp|m|mm|inc)"
deriving DecidableEq, Repr

/-- `per_file_result_base`. -/
structure PerFileResultBase where
  passed : Bool := false
  filePath : String := ""
  toolStdout : String := ""
  toolStderr : String := ""
  fileOption : String := ""
deriving DecidableEq, Repr

/-- `multi_files_result_base<PerFileResult>`. -/
structure MultiFilesResult (ρ : Type) where
  finalPassed : Bool := false
  fastlyExited : Bool := false
  ignored : List String := []
  passes : UMap String ρ := ∅
  fails : UMap String ρ := ∅
  failedCommands : List String := []

/-- What the two copies of `check` differ in. -/
structure Checker (ρ : Type) where
  option : OptionBase
  commandName : String
  base : ρ → PerFileResultBase
  checkSingleFile : RuntimeContext → String → String → Except Fault ρ

variable {ρ : Type}

/-- The body of the loop over `context.changed_files`. -/
def checkFile (host : Host) (checker : Checker ρ) (context : RuntimeContext) (file : String)
    (result : MultiFilesResult ρ) :
    Except Fault (Flow (MultiFilesResult ρ) (MultiFilesResult ρ)) := do
  let delta ← mapAt context.deltas file
  if delta.status = .deleted then
    return .next result
  else
    let filtered ← filterFile host checker.option.fileFilterIregex file
    if filtered then
      return .next { result with ignored := result.ignored ++ [file] }
    else
      let perFileResult ← checker.checkSingleFile context context.repoPath file
      if (checker.base perFileResult).passed then
        return .next { result with passes := AList.insert file perFileResult result.passes }
      else
        let failed := { result with
          failedCommands := result.failedCommands
            ++ [checker.commandName ++ " " ++ (checker.base perFileResult).fileOption]
          fails := AList.insert file perFileResult result.fails }
        if checker.option.enabledFastlyExit then
          return .ret { failed with finalPassed := false, fastlyExited := true }
        else
          return .next failed

/-- `check`, from the result it finds to the result it leaves. -/
def runCheck (host : Host) (checker : Checker ρ) (context : RuntimeContext)
    (result : MultiFilesResult ρ) : Except Fault (MultiFilesResult ρ) := do
  assertThat .check (checker.option.binary ≠ "") "!option.binary.empty()"
  assertThat .check (context.repoPath ≠ "") "!context.repo_path.empty()"
  forEach (checkFile host checker context)
    (fun result => { result with finalPassed := result.fails.isEmpty })
    context.changedFiles result

end CppLint.Tool
