/-
CppLint.ClangFormat.Reporter — the report made from clang-format's results
(`src/tools/clang_format/general/reporter.h`).

Of a failed file only its name is reported, and there are no review
comments.
-/
import CppLint.ClangFormat.Impl

namespace CppLint.ClangFormat

open CppLint.Lib CppLint.Tool

/-- `reporter_t`. -/
structure Reporter where
  option : Options
  result : MultiFilesResult PerFileResult

/-- `clang_format_general::get_reporter`. -/
def ClangFormatGeneral.getReporter (tool : ClangFormatGeneral) : Reporter :=
  ⟨tool.option, tool.result⟩

/-- `make_brief_result`. -/
def Reporter.makeBriefResult (ord : Enumeration String) (r : Reporter) : String :=
  (ord.toList r.result.fails).foldl (fun content entry => content ++ ("- " ++ entry.1 ++ "\n")) ""

end CppLint.ClangFormat
