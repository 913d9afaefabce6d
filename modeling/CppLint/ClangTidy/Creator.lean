/-
CppLint.ClangTidy.Creator — clang-tidy and its options from the command line
(`src/tools/clang_tidy/clang_tidy.cpp`).

As for clang-format, the class of the tool is the same whatever the version,
and it is supported on the platform `create_tool` asks about.
-/
import CppLint.ClangTidy.Impl
import CppLint.Tool.Creator

namespace CppLint.ClangTidy

open CppLint.ProgramOptions CppLint.Tool

/-- `creator::register_option`. -/
def registerOption : OptionsDescription :=
  [⟨"enable-clang-tidy", .boolean true⟩,
   ⟨"enable-clang-tidy-fastly-exit", .boolean false⟩,
   ⟨"clang-tidy-version", .string none⟩,
   ⟨"clang-tidy-binary", .string none⟩,
   ⟨"clang-tidy-file-iregex", .string (some ({} : OptionBase).fileFilterIregex)⟩,
   ⟨"clang-tidy-database", .string (some "build")⟩,
   ⟨"clang-tidy-allow-no-checks", .boolean false⟩,
   ⟨"clang-tidy-enable-check-profile", .boolean false⟩,
   ⟨"clang-tidy-checks", .string (some "")⟩,
   ⟨"clang-tidy-config", .string (some "")⟩,
   ⟨"clang-tidy-config-file", .string (some "")⟩,
   ⟨"clang-tidy-header-filter", .string (some "")⟩,
   ⟨"clang-tidy-line-filter", .string (some "")⟩]

/-- `creator::create_option`. -/
def createOption (host : Host) (vars : VariablesMap) : Except Fault Options := do
  let option : Options := {}
  let enabled ← asBool vars "enable-clang-tidy"
  if !enabled then return option
  else
    let enabledFastlyExit ← boolOr vars "enable-clang-tidy-fastly-exit" option.enabledFastlyExit
    let binary ← chooseBinary host "clang-tidy" vars
    let version ← getVersion host "clang-tidy" binary
    let fileFilterIregex ← stringOr vars "clang-tidy-file-iregex" option.fileFilterIregex
    let database ← stringOr vars "clang-tidy-database" option.database
    let allowNoChecks ← boolOr vars "clang-tidy-allow-no-checks" option.allowNoChecks
    let enableCheckProfile ←
      boolOr vars "clang-tidy-enable-check-profile" option.enableCheckProfile
    let checks ← stringOr vars "clang-tidy-checks" option.checks
    let config ← stringOr vars "clang-tidy-config" option.config
    let configFile ← stringOr vars "clang-tidy-config-file" option.configFile
    let headerFilter ← stringOr vars "clang-tidy-header-filter" option.headerFilter
    let lineFilter ← stringOr vars "clang-tidy-line-filter" option.lineFilter
    return {
      enabled := true
      enabledFastlyExit := enabledFastlyExit
      version := version
      binary := binary
      fileFilterIregex := fileFilterIregex
      allowNoChecks := allowNoChecks
      enableCheckProfile := enableCheckProfile
      checks := checks
      config := config
      configFile := configFile
      database := database
      headerFilter := headerFilter
      lineFilter := lineFilter }

/-- `creator::create_tool`. -/
def createTool (host : Host) (vars : VariablesMap) :
    Except Fault (Option ClangTidyGeneral) := do
  let option ← createOption host vars
  if option.enabled then return some { option := option } else return none

end CppLint.ClangTidy
