/-
CppLint.ClangFormat.Creator — clang-format and its options from the command
line (`src/tools/clang_format/clang_format.cpp`).

The tool's class depends on its version, and the classes differ in what
`version()` returns only; every one of them is supported on the platform
`create_tool` asks about.
-/
import CppLint.ClangFormat.Impl
import CppLint.Tool.Creator

namespace CppLint.ClangFormat

open CppLint.ProgramOptions CppLint.Tool

/-- `creator::register_option`. -/
def registerOption : OptionsDescription :=
  [⟨"enable-clang-format", .boolean true⟩,
   ⟨"enable-clang-format-fastly-exit", .boolean false⟩,
   ⟨"clang-format-version", .string none⟩,
   ⟨"clang-format-binary", .string none⟩,
   ⟨"clang-format-file-iregex", .string (some ({} : Options).fileFilterIregex)⟩]

/-- `creator::create_option`. -/
def createOption (host : Host) (vars : VariablesMap) : Except Fault Options := do
  let option : Options := {}
  let enabled ← asBool vars "enable-clang-format"
  if !enabled then return option
  else
    let enabledFastlyExit ←
      boolOr vars "enable-clang-format-fastly-exit" option.enabledFastlyExit
    let fileFilterIregex ← stringOr vars "clang-format-file-iregex" option.fileFilterIregex
    let binary ← chooseBinary host "clang-format" vars
    let version ← getVersion host "clang-format" binary
    return { option with
      enabled := true
      enabledFastlyExit := enabledFastlyExit
      fileFilterIregex := fileFilterIregex
      binary := binary
      version := version }

/-- `creator::create_tool`. -/
def createTool (host : Host) (vars : VariablesMap) :
    Except Fault (Option ClangFormatGeneral) := do
  let option ← createOption host vars
  if option.enabled then return some { option := option } else return none

end CppLint.ClangFormat
