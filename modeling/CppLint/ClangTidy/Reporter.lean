/-
CppLint.ClangTidy.Reporter — the reports made from clang-tidy's results
(`src/tools/clang_tidy/general/reporter.h`).

A reporter holds a copy of the tool's options and result. Both reports walk
the map of failed files; `ord` is the order in which the map is walked.
-/
import CppLint.ClangTidy.Impl
import CppLint.Github.Json

namespace CppLint.ClangTidy

open CppLint.Lib CppLint.Git CppLint.Tool CppLint.Github

/-- `reporter_t`. -/
structure Reporter where
  option : Options
  result : MultiFilesResult PerFileResult

/-- `clang_tidy_general::get_reporter`. -/
def ClangTidyGeneral.getReporter (tool : ClangTidyGeneral) : Reporter :=
  ⟨tool.option, tool.result⟩

/-- The bullet `make_brief` writes for a diagnostic of the file `name`. -/
def briefBullet (name : String) (diag : Diagnostic) : String :=
  "- **" ++ name ++ ":" ++ diag.header.rowIdx ++ ":" ++ diag.header.colIdx ++ ":** "
    ++ diag.header.serverity ++ ": [" ++ diag.header.diagnosticType ++ "]\n  > "
    ++ diag.header.brief ++ "\n"

/-- `make_brief`. -/
def Reporter.makeBrief (ord : Enumeration String) (r : Reporter) : String :=
  (ord.toList r.result.fails).foldl (fun ret entry =>
    entry.2.diags.foldl (fun ret diag => ret ++ briefBullet entry.1 diag) ret) ""

/-- The body of the loop over hunks in `make_review_comment`; the state is
`pos` and `comments`. -/
def visitHunk (file : String) (patch : Patch) (diag : Diagnostic) (row : Int)
    (state : Nat × List ReviewComment) (hunkIdx : Nat) :
    Except Fault (Nat × List ReviewComment) := do
  let (hunk, numLines) ← getHunk patch hunkIdx
  if !isRowInHunk hunk row then
    return (sizeT (state.1 + numLines), state.2)
  else
    let comment : ReviewComment := {
      path := file
      position := sizeT (state.1 + row - hunk.newStart + 1)
      body := diag.header.brief ++ diag.header.diagnosticType }
    return (state.1, state.2 ++ [comment])

/-- The body of the loop over diagnostics: the two conversions, then the
hunks. The column is converted and not used. -/
def visitDiagnostic (file : String) (patch : Patch) (comments : List ReviewComment)
    (diag : Diagnostic) : Except Fault (List ReviewComment) := do
  let row ← stoi diag.header.rowIdx
  let _col ← stoi diag.header.colIdx
  let (_pos, comments) ← (List.range (numHunks patch)).foldlM
    (visitHunk file patch diag row) (0, comments)
  return comments

/-- The body of the loop over failed files. -/
def visitFile (context : RuntimeContext) (comments : List ReviewComment)
    (entry : String × PerFileResult) : Except Fault (List ReviewComment) := do
  let (file, perFileResult) := entry
  assertThat .makeReviewComment (perFileResult.filePath = file) "per_file_result.file_path == file"
  assertThat .makeReviewComment (context.patches.lookup file).isSome "context.patches.contains(file)"
  let patch ← mapAt context.patches file
  perFileResult.diags.foldlM (visitDiagnostic file patch) comments

/-- `make_review_comment`. -/
def Reporter.makeReviewComment (ord : Enumeration String) (r : Reporter)
    (context : RuntimeContext) : Except Fault (List ReviewComment) :=
  (ord.toList r.result.fails).foldlM (visitFile context) []

end CppLint.ClangTidy
