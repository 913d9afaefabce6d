/-
CppLint.Action — the command line the action builds from its inputs
(`action.yml`, the step that runs the program on Linux).

The text of an input is put into the script before the shell reads it, each
time between double quotes: in the test that asks whether it is there, in
the assignment that appends it to `options`, or in an argument of the
program. What the shell makes of a text at such a place is not part of the
source, so it is a parameter: a `Shell` gives the characters the text stands
for, or nothing if the text does not keep to its word, and then the script
is another one. The listing of the git directory at log level trace is left
out.
-/
import CppLint.Main

namespace CppLint.Action

open CppLint.ProgramOptions

/-- Where the script has the text of an input. -/
inductive Place where
  | test
  | append
  | argument
deriving DecidableEq, Repr

/-- What the shell makes of the text of an input at a place. -/
structure Shell where
  read : Place → (input : String) → (text : String) → Option String

/-- The inputs the script appends to `options`, in its order. -/
def gatheredInputs : List String :=
  ["clang-format-version", "clang-format-binary", "clang-format-file-iregex",
   "clang-tidy-version", "clang-tidy-binary", "clang-tidy-file-iregex", "clang-tidy-database",
   "clang-tidy-checks", "clang-tidy-config", "clang-tidy-config-file", "clang-tidy-header-filter",
   "clang-tidy-line-filter"]

/-- The inputs the script passes as options of the same name, in its
order. -/
def namedInputs : List String :=
  ["log-level", "target-revision", "enable-comment-on-issue", "enable-pull-request-review",
   "enable-step-summary", "enable-action-output", "enable-clang-format",
   "enable-clang-format-fastly-exit", "enable-clang-tidy", "enable-clang-tidy-fastly-exit",
   "clang-tidy-enable-check-profile", "clang-tidy-allow-no-checks"]

variable (shell : Shell) (inputs : String → String)

/-- One `if [ -n … ]` of the script: the text alone is appended. -/
def gatherInput (options : String) (input : String) : Option String := do
  let tested ← shell.read .test input (inputs input)
  if tested = "" then return options
  else
    let text ← shell.read .append input (inputs input)
    return options ++ " " ++ text

/-- The value of `options` in the end. -/
def gatherOptions : Option String := gatheredInputs.foldlM (gatherInput shell inputs) " "

/-- The words after the program's name. -/
def argv : Option (List String) := do
  let options ← gatherOptions shell inputs
  let words ← namedInputs.mapM (fun input =>
    (shell.read .argument input (inputs input)).map (longWord input))
  return words ++ [options]

end CppLint.Action
