/-
CppLint.Tools — tools and their reporters
(`src/tools/base_tool.h`, `src/tools/base_reporter.h`).

`tool_base` and `reporter_base` are abstract classes with two
implementations each; here they are the two-constructor types of those
implementations, and a virtual function is a definition by cases. The
members that differ by tool are kept apart, those that only read the common
part of the result go through `briefResultOf`.

Each tool runs on the machine as it finds it: `runTools` takes the tools
with their hosts, so two instances may see different outcomes.
-/
import CppLint.ClangFormat.Reporter
import CppLint.ClangTidy.Reporter

namespace CppLint

open CppLint.Lib CppLint.Tool CppLint.Github

/-! ## Reporters -/

/-- `reporter_base`. -/
inductive ReporterBase where
  | clangTidy (r : ClangTidy.Reporter)
  | clangFormat (r : ClangFormat.Reporter)

/-- What `get_brief_result` returns. -/
structure BriefResult where
  isPassed : Bool
  successed : Nat
  failed : Nat
  ignored : Nat
deriving DecidableEq, Repr

/-- The brief result of a result. -/
def briefResultOf {ρ : Type} (result : MultiFilesResult ρ) : BriefResult where
  isPassed := result.finalPassed
  successed := result.passes.size
  failed := result.fails.size
  ignored := result.ignored.length

namespace ReporterBase

/-- `get_brief_result`. -/
def getBriefResult : ReporterBase → BriefResult
  | .clangTidy r => briefResultOf r.result
  | .clangFormat r => briefResultOf r.result

/-- `get_failed_commands`. -/
def getFailedCommands : ReporterBase → List String
  | .clangTidy r => r.result.failedCommands
  | .clangFormat r => r.result.failedCommands

/-- The last field of a path between slashes; `check` does not run without a
binary, so there is one. -/
def lastPart (binary : String) : String :=
  String.ofList (((splitFields binary.toList '/').getLast?).getD [])

/-- `tool_name`. -/
def toolName : ReporterBase → String
  | .clangTidy r => lastPart r.option.binary
  | .clangFormat r => lastPart r.option.binary

/-- `make_issue_comment`. -/
def makeIssueComment (ord : Enumeration String) : ReporterBase → String
  | .clangTidy r => r.makeBrief ord
  | .clangFormat r => r.makeBriefResult ord

/-- `make_review_comment`. -/
def makeReviewComment (ord : Enumeration String) (context : RuntimeContext) :
    ReporterBase → Except Fault (List ReviewComment)
  | .clangTidy r => r.makeReviewComment ord context
  | .clangFormat _ => .ok []

end ReporterBase

/-- `all_passed`. -/
def allPassed (reporters : List ReporterBase) : Bool :=
  reporters.all (fun reporter => reporter.getBriefResult.isPassed)

/-! ## Tools -/

/-- `tool_base`. -/
inductive ToolBase where
  | clangTidy (tool : ClangTidy.ClangTidyGeneral)
  | clangFormat (tool : ClangFormat.ClangFormatGeneral)

namespace ToolBase

/-- `check`. -/
def check (host : Host) (context : RuntimeContext) : ToolBase → Except Fault ToolBase
  | .clangTidy tool => (ClangTidy.check host tool context).map .clangTidy
  | .clangFormat tool => (ClangFormat.check host tool context).map .clangFormat

/-- `get_reporter`. -/
def getReporter : ToolBase → ReporterBase
  | .clangTidy tool => .clangTidy tool.getReporter
  | .clangFormat tool => .clangFormat tool.getReporter

end ToolBase

/-- `run_tools`: the tools one by one, and their reporters in order. -/
def runTools (tools : List (Host × ToolBase)) (context : RuntimeContext) :
    Except Fault (List ReporterBase) :=
  tools.foldlM (fun ret entry => do
    let tool ← entry.2.check entry.1 context
    return ret ++ [tool.getReporter]) []

/-- What `main` returns. -/
def exitStatus (reporters : List ReporterBase) : Nat := if allPassed reporters then 0 else 1

end CppLint
