/-
CppLint.Tool.Creator — finding a tool's executable
(`src/tools/util.h`, `shell::which`, and the parts of
`src/tools/clang_format/clang_format.cpp` and
`src/tools/clang_tidy/clang_tidy.cpp` that differ in the tool's name only).

The two `create_option`s choose a binary in the same three steps and ask it
for its version with the same expression; `chooseBinary` and `getVersion`
take the name of the tool. The commands run where the program runs, which is
the directory ".".
-/
import CppLint.ProgramOptions
import CppLint.Tool.Base

namespace CppLint.Tool

open CppLint.ProgramOptions

/-- `shell::which`. -/
def which (host : Host) (command : String) : Except Fault Shell.Result := do
  let res ← external (host.execute "/usr/bin/which" [command] ".")
  return { res with stdOut := trim res.stdOut }

/-- `find_clang_tool`. -/
def findClangTool (host : Host) (tool version : String) : Except Fault String := do
  let res ← which host (tool ++ "-" ++ version)
  throwIf (res.exitCode ≠ 0)
    ("find " ++ tool ++ "-" ++ version ++ " failed, error message: " ++ res.stdErr)
  let trimmed := trim res.stdOut
  throwIf (trimmed = "") "got empty clang tool path"
  return trimmed

/-- A run of digits that is not empty, and what follows it. -/
def readNumber (str : List Char) : Option (List Char × List Char) :=
  let digits := str.takeWhile Char.isDigit
  if digits.isEmpty then none else some (digits, str.dropWhile Char.isDigit)

/-- The capture of `version\ (\d+\.\d+\.\d+)`, if it matches where `str`
starts. -/
def versionHere (str : List Char) : Option String :=
  if "version ".toList.isPrefixOf str then do
    let (major, rest) ← readNumber (str.drop "version ".length)
    let (minor, rest) ← if rest.head? = some '.' then readNumber rest.tail else none
    let (patch, _) ← if rest.head? = some '.' then readNumber rest.tail else none
    return String.ofList (major ++ ['.'] ++ minor ++ ['.'] ++ patch)
  else none

/-- `boost::regex_search` with that expression. -/
def searchVersion (str : String) : Option String := str.toList.tails.findSome? versionHere

example : searchVersion "Ubuntu LLVM version 18.1.3\n" = some "18.1.3" := by decide

/-- `get_version`. -/
def getVersion (host : Host) (tool binary : String) : Except Fault String := do
  let res ← external (host.execute binary ["--version"] ".")
  if res.exitCode ≠ 0 then return ""
  else
    match searchVersion res.stdOut with
    | some version => return version
    | none => .error (.runtimeError ("Can't get " ++ tool ++ " version"))

/-- The choice of `option.binary` in `create_option`: by the version, as
given, or what the shell finds. -/
def chooseBinary (host : Host) (tool : String) (vars : VariablesMap) : Except Fault String := do
  let version := tool ++ "-version"
  let binary := tool ++ "-binary"
  if version ∈ vars then
    mustNotSpecify ("specify " ++ version) vars [binary]
    let userInputVersion ← asString vars version
    findClangTool host tool userInputVersion
  else if binary ∈ vars then
    mustNotSpecify ("specify " ++ binary) vars [version]
    let given ← asString vars binary
    let res ← which host given
    throwUnless (res.exitCode = 0) ("Can't find given " ++ tool ++ " binary: " ++ given)
    return given
  else
    let res ← which host tool
    throwUnless (res.exitCode = 0) ("can't find " ++ tool)
    return res.stdOut

end CppLint.Tool
