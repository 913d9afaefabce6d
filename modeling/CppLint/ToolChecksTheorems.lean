/-
CppLint.ToolChecksTheorems — what `check` of either tool leaves behind.

The two copies of `check` share one loop, and what is proved about the loop
for any checker is stated here for both tools: with fast exit a check is the
check without, cut off at the first failing file (`check_truncates`), and a
completed check has sorted the files into passed, failed and ignored
(`check_sortsFiles`).
-/
import CppLint.ReportTheorems
import CppLint.Tool.PartitionTheorems
import CppLint.Tool.TruncationTheorems

namespace CppLint

open CppLint.Lib CppLint.Git CppLint.Tool

/-- With fast exit, either tool's check is the check without, cut off at the
first failing file. -/
theorem check_truncates (host : Host) (context : RuntimeContext) (tidy : ClangTidy.Options)
    (format : ClangFormat.Options) :
    Truncates
        ((ClangTidy.check host ⟨{ tidy with enabledFastlyExit := true }, {}⟩ context).map
          ClangTidy.ClangTidyGeneral.result)
        ((ClangTidy.check host ⟨{ tidy with enabledFastlyExit := false }, {}⟩ context).map
          ClangTidy.ClangTidyGeneral.result)
        (runUpTo host (ClangTidy.checker host { tidy with enabledFastlyExit := false }) context)
        (Fails host (ClangTidy.checker host tidy) context) context.changedFiles ∧
      Truncates
        ((ClangFormat.check host ⟨{ format with enabledFastlyExit := true }, {}⟩ context).map
          ClangFormat.ClangFormatGeneral.result)
        ((ClangFormat.check host ⟨{ format with enabledFastlyExit := false }, {}⟩ context).map
          ClangFormat.ClangFormatGeneral.result)
        (runUpTo host (ClangFormat.checker host { format with enabledFastlyExit := false }) context)
        (Fails host (ClangFormat.checker host format) context) context.changedFiles := by
  constructor
  · simp only [ClangTidy.check_result]
    exact runCheck_truncates host (ClangTidy.checker host tidy) context
  · simp only [ClangFormat.check_result]
    exact runCheck_truncates host (ClangFormat.checker host format) context

/-- Neither the filter nor the check of a single file throws. -/
def Returns {ρ : Type} (host : Host) (checker : Checker ρ) (context : RuntimeContext) : Prop :=
  ∀ file ∈ context.changedFiles,
    (∃ filtered, filterFile host checker.option.fileFilterIregex file = .ok filtered) ∧
      ∃ res, checker.checkSingleFile context context.repoPath file = .ok res

/-- The check `run` sorts the files, and it completes if its assertions hold
and no file throws. -/
structure SortsFiles {ρ : Type} (host : Host) (checker : Checker ρ) (context : RuntimeContext)
    (run : Except Fault (MultiFilesResult ρ)) : Prop where
  partitioned : ∀ r, run = .ok r → Partitioned host checker context r
  completes : checker.option.binary ≠ "" → context.repoPath ≠ "" → Returns host checker context →
    ∃ r, run = .ok r

theorem runCheck_sortsFiles {ρ : Type} {host : Host} {checker : Checker ρ}
    {context : RuntimeContext} (hnodup : context.changedFiles.Nodup)
    (hdeltas : ∀ file ∈ context.changedFiles, ∃ delta, context.deltas.lookup file = some delta)
    (hrecords : RecordsFile checker context) :
    SortsFiles host checker context (runCheck host checker context {}) where
  partitioned _ hrun := runCheck_partitioned hnodup
    (fun file _ hres => (hrecords file).of_ok hres) hrun
  completes hbinary hpath hreturns := runCheck_completes hbinary hpath (fun file hfile =>
    exists_verdict (hdeltas file hfile) (hreturns file hfile).1 (hreturns file hfile).2)

/-- On distinct changed files that all have a delta, either tool's check
sorts the files. -/
theorem check_sortsFiles (host : Host) (context : RuntimeContext) (tidy : ClangTidy.Options)
    (format : ClangFormat.Options) (hnodup : context.changedFiles.Nodup)
    (hdeltas : ∀ file ∈ context.changedFiles, ∃ delta, context.deltas.lookup file = some delta) :
    SortsFiles host (ClangTidy.checker host tidy) context
        ((ClangTidy.check host ⟨tidy, {}⟩ context).map ClangTidy.ClangTidyGeneral.result) ∧
      SortsFiles host (ClangFormat.checker host format) context
        ((ClangFormat.check host ⟨format, {}⟩ context).map
          ClangFormat.ClangFormatGeneral.result) := by
  rw [ClangTidy.check_result, ClangFormat.check_result]
  exact ⟨runCheck_sortsFiles hnodup hdeltas (ClangTidy.recordsFile host tidy context),
    runCheck_sortsFiles hnodup hdeltas (ClangFormat.recordsFile host format context)⟩

theorem check_sortsFiles_oneFile :
    SortsFiles (quietHost 1) (ClangTidy.checker (quietHost 1) { binary := "clang-tidy" })
        oneFileContext
        ((ClangTidy.check (quietHost 1) ⟨{ binary := "clang-tidy" }, {}⟩ oneFileContext).map
          ClangTidy.ClangTidyGeneral.result) ∧
      SortsFiles (quietHost 1) (ClangFormat.checker (quietHost 1) { binary := "clang-format" })
        oneFileContext
        ((ClangFormat.check (quietHost 1) ⟨{ binary := "clang-format" }, {}⟩ oneFileContext).map
          ClangFormat.ClangFormatGeneral.result) := by
  refine check_sortsFiles (quietHost 1) oneFileContext _ _ (by decide) ?_
  intro file hfile
  rw [List.mem_singleton.mp (show file ∈ ["a.cpp"] from hfile)]
  exact ⟨_, rfl⟩

end CppLint
