/-
CppLint.ClangFormat.Impl — running clang-format on the changed files
(`src/tools/clang_format/general/{option.h, result.h, impl.h, impl.cpp}`).

`enable_warning_as_error` and `formatted_source_code` are left out: nothing
reads the first or fills the second. The `int` and `std::uint32_t`
arithmetic of `get_position` is kept modulo `2 ^ 32`.
-/
import CppLint.Tool.Base

namespace CppLint.ClangFormat

open CppLint.Lib CppLint.Tool

/-! ## Options and results -/

/-- `option_t`. -/
abbrev Options : Type := OptionBase

/-- `replacement_t`. -/
structure Replacement where
  offset : Int := 0
  length : Int := 0
  data : String := ""
  row : Int := 0
  col : Int := 0
deriving DecidableEq, Repr

/-- `replacements_t`: the replacements of each row. -/
abbrev Replacements : Type := UMap Nat (List Replacement)

/-- `per_file_result`. -/
structure PerFileResult extends PerFileResultBase where
  replacements : Replacements := ∅

/-! ## Positions -/

/-- The lines `std::getline` reads one by one: a final newline is followed
by no further line. -/
def getlines (content : List Char) : List (List Char) :=
  let lines := content.splitOn '\n'
  if lines.getLast? = some [] then lines.dropLast else lines

/-- A value converted to `std::uint32_t`. -/
def toU32 (n : Int) : Int := n % 2 ^ 32

/-- A `std::uint32_t` converted to `std::int32_t`. -/
def toI32 (n : Int) : Int := if n < 2 ^ 31 then n else n - 2 ^ 32

/-- `get_line_lens`: the length of each line, with one for its newline. -/
def getLineLens (host : Host) (filePath : String) : Except Fault (List Int) :=
  match host.readFile filePath with
  | none => .error (.runtimeError ("open file " ++ filePath ++ " error"))
  | some content => .ok ((getlines content.toList).map (fun line => toU32 (line.length + 1)))

/-- The loop of `get_position`: `i` lines of `curOffset` bytes are behind. -/
def getPositionFrom (offset : Int) : Int → Int → List Int → Int × Int
  | _, _, [] => (-1, -1)
  | i, curOffset, len :: lens =>
      -- `i < lens.size()` compares as `std::size_t`s, so an `i` that has
      -- overflowed ends the loop.
      if i < 0 then (-1, -1)
      else if toU32 offset ≥ curOffset && toU32 offset < toU32 (curOffset + len) then
        (toI32 (toU32 (i + 1)), toI32 (toU32 (toU32 offset - curOffset + 1)))
      else getPositionFrom offset (toI32 (toU32 (i + 1))) (toU32 (curOffset + len)) lens

/-- `get_position`. -/
def getPosition (lens : List Int) (offset : Int) : Int × Int := getPositionFrom offset 0 0 lens

/-! ## Replacements -/

/-- The body of the loop over `<replacement>` elements. -/
def addReplacement (lens : List Int) (replacements : Replacements) (ele : XmlNode) :
    Replacements :=
  let offset := ele.queryIntAttribute "offset" 0
  let length := ele.queryIntAttribute "length" 0
  let data := ele.getText.getD ""
  let (row, col) := getPosition lens offset
  let replacement : Replacement :=
    { offset := offset, length := length, data := data, row := row, col := col }
  let replacements := replacements.tryInsert (sizeT row) []
  AList.insert (sizeT row) ((replacements.lookup (sizeT row)).getD [] ++ [replacement])
    replacements

/-- `parse_replacements_xml`. The text ends at its first NUL for the
parser, which is given `data.data()`. -/
def parseReplacementsXml (host : Host) (ctx : RuntimeContext) (data file : String) :
    Except Fault Replacements :=
  match host.parseXml (String.ofList (data.toList.takeWhile (· ≠ '\x00'))) with
  | .error err => .error (.runtimeError ("Parse replacements xml failed since: " ++ err))
  | .ok doc => do
      throwIf doc.isEmpty "Parse replacements xml failed since no children in replacements xml"
      match (childElements "replacements" doc).head? with
      | none =>
          .error (.runtimeError "Parse replacements xml failed since no child names 'replacements'")
      | some replacementsEle => do
          let lens ← getLineLens host (ctx.repoPath ++ "/" ++ file)
          return (childElements "replacement" replacementsEle.children).foldl
            (addReplacement lens) ∅

/-! ## Running the tool -/

/-- `make_replacements_options`. -/
def makeReplacementsOptions (file : String) : List String := ["--output-replacements-xml", file]

/-- `execute`: the result of the run, and the arguments joined by spaces. -/
def execute (host : Host) (opt : Options) (repo file : String) :
    Except Fault (Shell.Result × String) := do
  let toolOpt := makeReplacementsOptions file
  let toolOptStr := concat toolOpt ' '
  let res ← external (host.execute opt.binary toolOpt repo)
  return (res, toolOptStr)

/-- `clang_format_general::check_single_file`. -/
def checkSingleFile (host : Host) (option : Options) (context : RuntimeContext)
    (rootDir file : String) : Except Fault PerFileResult := do
  let (xmlRes, fileOpt) ← execute host option rootDir file
  let result : PerFileResult := {
    filePath := file
    toolStdout := xmlRes.stdOut
    toolStderr := xmlRes.stdErr
    fileOption := fileOpt }
  if xmlRes.exitCode ≠ 0 then
    return { result with passed := false }
  else
    let replacements ← parseReplacementsXml host context xmlRes.stdOut file
    return { result with passed := replacements.isEmpty, replacements := replacements }

/-- `clang_format_general`; the subclasses for single versions differ in
what `version()` returns only. -/
structure ClangFormatGeneral where
  option : Options
  result : MultiFilesResult PerFileResult := {}

/-- What `check` of clang-format puts into the shared loop. -/
def checker (host : Host) (option : Options) : Checker PerFileResult where
  option := option
  commandName := "clang-format"
  base := PerFileResult.toPerFileResultBase
  checkSingleFile := checkSingleFile host option

/-- `clang_format_general::check`. -/
def check (host : Host) (tool : ClangFormatGeneral) (context : RuntimeContext) :
    Except Fault ClangFormatGeneral := do
  let result ← runCheck host (checker host tool.option) context tool.result
  return { tool with result := result }

end CppLint.ClangFormat
