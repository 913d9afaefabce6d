/-
CppLint.ProgramOptions — the options of the command line
(`src/program_options.h`, `src/program_options.cpp`).

`boost::program_options` is modelled as far as the program uses it: long
names, no short ones, no positional description, the default style. `parse`
is `parse_command_line` on the words after the program's name
(`parseWords`), then `store`, which converts the values in order
(`storeOption`) and gives every described option that is still absent its
default (`applyDefaults`). The exceptions of boost are kept by their names.
-/
import CppLint.Context
import CppLint.Utils.Text

namespace CppLint.ProgramOptions

open CppLint.Lib

/-! ## Descriptions -/

/-- The value of an option in a `variables_map`. -/
inductive OptionValue where
  | boolean (b : Bool)
  | string (s : String)
deriving DecidableEq, Repr

/-- What an option is described with: no value, or a `value<bool>()` or a
`value<std::string>()` with the default it is given. -/
inductive ValueSemantic where
  | untyped
  | boolean (byDefault : Bool)
  | string (byDefault : Option String)
deriving DecidableEq, Repr

/-- `option_description`. -/
structure OptionDescription where
  name : String
  semantic : ValueSemantic
deriving DecidableEq, Repr

/-- `options_description`. -/
abbrev OptionsDescription : Type := List OptionDescription

/-- `variables_map`. -/
abbrev VariablesMap : Type := UMap String OptionValue

/-- The value a described option has when the command line does not name
it. -/
def ValueSemantic.applyDefault : ValueSemantic → Option OptionValue
  | .untyped => none
  | .boolean byDefault => some (.boolean byDefault)
  | .string byDefault => byDefault.map .string

/-- `create_desc`. -/
def createDesc : OptionsDescription :=
  [⟨"help", .untyped⟩,
   ⟨"version", .untyped⟩,
   ⟨"log-level", .string (some "info")⟩,
   ⟨"target-revision", .string none⟩,
   ⟨"enable-comment-on-issue", .boolean true⟩,
   ⟨"enable-pull-request-review", .boolean false⟩,
   ⟨"enable-step-summary", .boolean true⟩,
   ⟨"enable-action-output", .boolean true⟩]

/-- `options_description::find_nothrow`: a name stands for the option of that
name, or, if `approx`, for the only one it is a prefix of. -/
def findNothrow (desc : OptionsDescription) (name : String) (approx : Bool) :
    Except Fault (Option OptionDescription) :=
  match desc.filter (fun d => d.name = name) with
  | [d] => .ok (some d)
  | _ :: _ :: _ => .error (.thirdParty "ambiguous_option")
  | [] =>
      if approx then
        match desc.filter (fun d => name.toList.isPrefixOf d.name.toList) with
        | [] => .ok none
        | [d] => .ok (some d)
        | _ => .error (.thirdParty "ambiguous_option")
      else .ok none

/-! ## Reading the command line -/

/-- `--name=value`. -/
def longWord (name value : String) : String := "--" ++ name ++ "=" ++ value

/-- What the style parsers see in a word. -/
inductive Word where
  | long (name : String) (adjacent : Option String)
  | short
  | terminator
  | positional
deriving DecidableEq, Repr

/-- `parse_long_option`, `parse_short_option` and `parse_terminator` on one
word: `--name=` without a value is an error. -/
def readWord (tok : String) : Except Fault Word :=
  match tok.toList with
  | ['-', '-'] => .ok .terminator
  | '-' :: '-' :: rest =>
      let name := String.ofList (rest.takeWhile (· ≠ '='))
      match rest.dropWhile (· ≠ '=') with
      | [] => .ok (.long name none)
      | [_] => .error (.thirdParty "empty_adjacent_parameter")
      | _ :: adjacent => .ok (.long name (some (String.ofList adjacent)))
  | '-' :: _ :: _ => .ok .short
  | _ => .ok .positional

/-- Whether an option takes a value from the command line. -/
def ValueSemantic.takesValue : ValueSemantic → Bool
  | .untyped => false
  | .boolean _ => true
  | .string _ => true

/-- `parse_command_line`: the options in order, by their full names. No
option has a short name. Words without a name are positional, and `store`
passes over them. -/
def parseWords (desc : OptionsDescription) :
    List String → Except Fault (List (String × Option String))
  | [] => .ok []
  | tok :: args => do
      match ← readWord tok with
      | .positional => parseWords desc args
      | .terminator => return []
      | .short => .error (.thirdParty "unknown_option")
      | .long name adjacent =>
          if name = "" then parseWords desc args
          else
            match ← findNothrow desc name true with
            | none => .error (.thirdParty "unknown_option")
            | some d =>
                match d.semantic.takesValue, adjacent with
                | false, none => return (d.name, none) :: (← parseWords desc args)
                | false, some _ => .error (.thirdParty "extra_parameter")
                | true, some value => return (d.name, some value) :: (← parseWords desc args)
                | true, none =>
                    match args with
                    | [] => .error (.thirdParty "missing_parameter")
                    | value :: args =>
                        -- the next word is looked at as an option, and taken as the value
                        let _ ← readWord value
                        return (d.name, some value) :: (← parseWords desc args)

/-! ## Storing the values -/

/-- `validate` for `bool`. -/
def parseBool (value : String) : Except Fault Bool :=
  let lower := String.ofList (value.toList.map Char.toLower)
  if lower ∈ ["", "on", "yes", "1", "true"] then .ok true
  else if lower ∈ ["off", "no", "0", "false"] then .ok false
  else .error (.thirdParty "invalid_bool_value")

/-- `value_semantic::parse`. -/
def ValueSemantic.parse (semantic : ValueSemantic) (value : Option String) :
    Except Fault OptionValue :=
  match semantic with
  | .untyped => .ok (.string (value.getD ""))
  | .boolean _ => (parseBool (value.getD "")).map .boolean
  | .string _ =>
      match value with
      | some s => .ok (.string s)
      | none => .error (.thirdParty "at_least_one_value_required")

/-- The loop body of `store`: an option given twice is an error. -/
def storeOption (desc : OptionsDescription) (vars : VariablesMap)
    (opt : String × Option String) : Except Fault VariablesMap := do
  match ← findNothrow desc opt.1 false with
  | none => .error (.thirdParty "unknown_option")
  | some d =>
      if opt.1 ∈ vars then .error (.thirdParty "multiple_occurrences")
      else
        let value ← d.semantic.parse opt.2
        return AList.insert opt.1 value vars

/-- The options that have a default, with it. -/
def defaults (desc : OptionsDescription) : List (String × OptionValue) :=
  desc.filterMap (fun d => d.semantic.applyDefault.map (fun value => (d.name, value)))

/-- The second loop of `store`. -/
def applyDefaults (desc : OptionsDescription) (vars : VariablesMap) : VariablesMap :=
  UMap.fillFirst Prod.fst Prod.snd vars (defaults desc)

/-- `parse`, on the words after the program's name. -/
def parse (args : List String) (desc : OptionsDescription) : Except Fault VariablesMap := do
  let options ← parseWords desc args
  let vars ← options.foldlM (storeOption desc) ∅
  return applyDefaults desc vars

/-! ## Reading the values -/

/-- `variables[option].as<bool>()`. -/
def asBool (vars : VariablesMap) (option : String) : Except Fault Bool :=
  match vars.lookup option with
  | some (.boolean b) => .ok b
  | _ => .error (.thirdParty "bad_any_cast")

/-- `variables[option].as<std::string>()`. -/
def asString (vars : VariablesMap) (option : String) : Except Fault String :=
  match vars.lookup option with
  | some (.string s) => .ok s
  | _ => .error (.thirdParty "bad_any_cast")

/-- `if (variables.contains(option)) member = variables[option].as<bool>()`. -/
def boolOr (vars : VariablesMap) (option : String) (member : Bool) : Except Fault Bool :=
  if option ∈ vars then asBool vars option else .ok member

/-- `if (variables.contains(option)) member = variables[option].as<std::string>()`. -/
def stringOr (vars : VariablesMap) (option : String) (member : String) :
    Except Fault String :=
  if option ∈ vars then asString vars option else .ok member

/-- `must_specify`. -/
def mustSpecify (condition : String) (vars : VariablesMap) (options : List String) :
    Except Fault Unit :=
  let lacks := options.filter (fun option => option ∉ vars)
  throwUnless lacks.isEmpty ("must specify " ++ concat lacks ',' ++ " when " ++ condition)

/-- `must_not_specify`. -/
def mustNotSpecify (condition : String) (vars : VariablesMap) (options : List String) :
    Except Fault Unit :=
  let forbidden := options.filter (fun option => option ∈ vars)
  throwUnless forbidden.isEmpty
    ("must not specify " ++ concat forbidden ',' ++ " when " ++ condition)

/-- `fill_context`. -/
def fillContext (vars : VariablesMap) (ctx : RuntimeContext) :
    Except Fault RuntimeContext := do
  mustSpecify "using CppLintAction" vars ["target-revision"]
  let target ← asString vars "target-revision"
  let enableStepSummary ← boolOr vars "enable-step-summary" ctx.enableStepSummary
  let enableCommentOnIssue ← boolOr vars "enable-comment-on-issue" ctx.enableCommentOnIssue
  let enablePullRequestReview ←
    boolOr vars "enable-pull-request-review" ctx.enablePullRequestReview
  let enableActionOutput ← boolOr vars "enable-action-output" ctx.enableActionOutput
  return { ctx with
    target := target
    enableStepSummary := enableStepSummary
    enableCommentOnIssue := enableCommentOnIssue
    enablePullRequestReview := enablePullRequestReview
    enableActionOutput := enableActionOutput }

end CppLint.ProgramOptions
