/-
CppLint.ReproduceTheorems — the commands that are printed to reproduce a
failure.

For each failed file a check records the name of the tool and the arguments
joined by spaces (`failedCommands_eq`), and `make_reproduce_spec` writes each
such command as a line (`writtenBy_of_mem`). Nothing is quoted,
so a shell reads the arguments back exactly when each of them is a plain word
for it (`failedCommands_standFor_iff`).
-/
import CppLint.Lib.ShellWords
import CppLint.ReportTheorems
import CppLint.Tool.PartitionTheorems

namespace CppLint

open CppLint.Lib CppLint.Git CppLint.Tool

/-! ## What is run and what is recorded -/

namespace ToolBase

/-- The arguments the tool is run with on a file. -/
def arguments : ToolBase → String → List String
  | .clangTidy tool, file => ClangTidy.executeOpts tool.option file
  | .clangFormat _, file => ClangFormat.makeReplacementsOptions file

/-- The name a command starts with. -/
def commandName : ToolBase → String
  | .clangTidy _ => "clang-tidy"
  | .clangFormat _ => "clang-format"

/-- The command of a file. -/
def command (tool : ToolBase) (file : String) : String :=
  tool.commandName ++ " " ++ concat (tool.arguments file) ' '

end ToolBase

/-- The shell reads the arguments of the command as those the tool was run
with on the file. -/
def StandsFor (sh : Shell) (tool : ToolBase) (file command : String) : Prop :=
  ∃ argStr, command = tool.commandName ++ " " ++ argStr ∧
    sh.words argStr.toList = some ((tool.arguments file).map String.toList)

/-- The command is a line of what `make_reproduce_spec` writes. -/
def WrittenBy (reporter : ReporterBase) (command : String) : Prop :=
  ∀ reporters, reporter ∈ reporters →
    ∃ before after, makeReproduceSpec reporters = before ++ "\n" ++ command ++ "\n" ++ after

/-- Every argument of the tool on the file is a plain word. -/
def PlainArguments (sh : Shell) (tool : ToolBase) (file : String) : Prop :=
  ∀ arg ∈ tool.arguments file, sh.PlainWord arg.toList

instance (sh : Shell) (tool : ToolBase) (file : String) :
    Decidable (PlainArguments sh tool file) :=
  inferInstanceAs (Decidable (∀ arg ∈ tool.arguments file, sh.PlainWord arg.toList))

/-! ## The lines of the spec -/

theorem exists_after_commands (commands : List String) (content : String) :
    ∃ after, commands.foldl (fun content command => content ++ command ++ "\n") content =
      content ++ after := by
  induction commands generalizing content with
  | nil => exact ⟨"", by simp⟩
  | cons command commands ih =>
      obtain ⟨after, hafter⟩ := ih (content ++ command ++ "\n")
      refine ⟨command ++ "\n" ++ after, ?_⟩
      rw [List.foldl_cons, hafter]
      simp only [String.append_assoc]

theorem exists_line_commands {commands : List String} {command : String}
    (h : command ∈ commands) (content : String) :
    ∃ before after, commands.foldl (fun content command => content ++ command ++ "\n")
      (content ++ "\n") = before ++ "\n" ++ command ++ "\n" ++ after := by
  induction commands generalizing content with
  | nil => cases h
  | cons command' commands ih =>
      rcases List.mem_cons.mp h with rfl | h
      · obtain ⟨after, hafter⟩ := exists_after_commands commands (content ++ "\n" ++ command ++ "\n")
        exact ⟨content, after, hafter⟩
      · exact ih h (content ++ "\n" ++ command')

theorem exists_after_reporters (reporters : List ReporterBase) (state : Nat × String) :
    ∃ after, (reporters.foldl reproduceStep state).2 = state.2 ++ after := by
  induction reporters generalizing state with
  | nil => exact ⟨"", by simp⟩
  | cons reporter reporters ih =>
      obtain ⟨after, hafter⟩ := ih (reproduceStep state reporter)
      rw [List.foldl_cons, hafter]
      unfold reproduceStep
      dsimp only
      split
      · exact ⟨after, rfl⟩
      · dsimp only
        obtain ⟨commands, hcommands⟩ := exists_after_commands reporter.getFailedCommands
          (state.2 ++ "\n# " ++ toString state.1 ++ ". Reproduce " ++ reporter.toolName ++ "\n")
        refine ⟨"\n# " ++ toString state.1 ++ ". Reproduce " ++ reporter.toolName ++ "\n" ++
          commands ++ after, ?_⟩
        rw [hcommands]
        simp only [String.append_assoc]

theorem exists_line_reporters {reporters : List ReporterBase} {reporter : ReporterBase}
    (h : reporter ∈ reporters) {command : String} (hcommand : command ∈ reporter.getFailedCommands)
    (state : Nat × String) :
    ∃ before after, (reporters.foldl reproduceStep state).2 =
      before ++ "\n" ++ command ++ "\n" ++ after := by
  induction reporters generalizing state with
  | nil => cases h
  | cons reporter' reporters ih =>
      rcases List.mem_cons.mp h with rfl | h
      · obtain ⟨rest, hrest⟩ := exists_after_reporters reporters (reproduceStep state reporter)
        have hne : reporter.getFailedCommands.isEmpty = false := by
          cases hcommands : reporter.getFailedCommands with
          | nil => simp [hcommands] at hcommand
          | cons c cs => rfl
        obtain ⟨before, after, hline⟩ := exists_line_commands hcommand
          (state.2 ++ "\n# " ++ toString state.1 ++ ". Reproduce " ++ reporter.toolName)
        refine ⟨before, after ++ rest, ?_⟩
        rw [List.foldl_cons, hrest, reproduceStep]
        simp only [hne, Bool.false_eq_true, if_false]
        rw [hline, String.append_assoc]
      · exact ih h (reproduceStep state reporter')

theorem writtenBy_of_mem {reporter : ReporterBase} {command : String}
    (h : command ∈ reporter.getFailedCommands) : WrittenBy reporter command := by
  intro reporters hreporter
  obtain ⟨before, after, hline⟩ := exists_line_reporters hreporter h
    (2, "```shell\n# 1. Enter your local repository\ncd /path/to/your/repository\n")
  refine ⟨before, after ++ "\n```", ?_⟩
  unfold makeReproduceSpec
  simp only [hline, String.append_assoc]

/-! ## The recorded commands -/

theorem ClangTidy.fileOption_eq {host : Host} {option : ClangTidy.Options}
    {context : RuntimeContext} {rootDir file : String} {r : ClangTidy.PerFileResult}
    (h : ClangTidy.checkSingleFile host option context rootDir file = .ok r) :
    r.fileOption = concat (ClangTidy.executeOpts option file) ' ' ∧
      ∃ res, host.execute option.binary (ClangTidy.executeOpts option file) rootDir = .ok res := by
  obtain ⟨⟨res, argStr⟩, hexec, h⟩ := bind_eq_ok.mp h
  obtain ⟨res', hres, hpure⟩ := bind_eq_ok.mp hexec
  cases hpure
  cases h
  exact ⟨rfl, res, external_eq_ok.mp hres⟩

theorem ClangFormat.fileOption_eq {host : Host} {option : ClangFormat.Options}
    {context : RuntimeContext} {rootDir file : String} {r : ClangFormat.PerFileResult}
    (h : ClangFormat.checkSingleFile host option context rootDir file = .ok r) :
    r.fileOption = concat (ClangFormat.makeReplacementsOptions file) ' ' ∧
      ∃ res, host.execute option.binary (ClangFormat.makeReplacementsOptions file) rootDir =
        .ok res := by
  obtain ⟨⟨res, argStr⟩, hexec, h⟩ := bind_eq_ok.mp h
  obtain ⟨res', hres, hpure⟩ := bind_eq_ok.mp hexec
  cases hpure
  refine ⟨?_, res, external_eq_ok.mp hres⟩
  dsimp only at h
  split at h
  · cases h
    rfl
  · obtain ⟨replacements, -, h⟩ := bind_eq_ok.mp h
    cases h
    rfl

/-- The tool has run on the file, with these arguments in the repository. -/
def RanOn (host : Host) (context : RuntimeContext) (tool : ToolBase) (file : String) : Prop :=
  ∃ res, host.execute tool.optionBase.binary (tool.arguments file) context.repoPath = .ok res

/-- **The commands** of a completed check are those of files on which the tool
has run, in their order. -/
theorem failedCommands_eq {host : Host} {context : RuntimeContext} {tool tool' : ToolBase}
    (hfresh : tool.Fresh) (h : tool.check host context = .ok tool') :
    ∃ failed : List String, failed.Sublist context.changedFiles ∧
      (∀ file ∈ failed, RanOn host context tool file) ∧
      tool'.getReporter.getFailedCommands = failed.map tool.command := by
  cases tool with
  | clangTidy tool =>
      obtain ⟨_, hcheck, rfl⟩ := map_eq_ok.mp h
      obtain ⟨result, hrun, hpure⟩ := bind_eq_ok.mp hcheck
      cases hpure
      rw [show tool.result = {} from hfresh] at hrun
      exact runCheck_commands (fun file res hfile => ClangTidy.fileOption_eq
        (show ClangTidy.checkSingleFile host tool.option context context.repoPath file = .ok res
          from hfile)) hrun
  | clangFormat tool =>
      obtain ⟨_, hcheck, rfl⟩ := map_eq_ok.mp h
      obtain ⟨result, hrun, hpure⟩ := bind_eq_ok.mp hcheck
      cases hpure
      rw [show tool.result = {} from hfresh] at hrun
      exact runCheck_commands (fun _ _ hfile => ClangFormat.fileOption_eq hfile) hrun

theorem arguments_ne_nil (tool : ToolBase) (file : String) :
    (tool.arguments file).map String.toList ≠ [] := by
  cases tool with
  | clangTidy tool => simp [ToolBase.arguments, ClangTidy.executeOpts]
  | clangFormat tool => simp [ToolBase.arguments, ClangFormat.makeReplacementsOptions]

theorem toList_concat_arguments (tool : ToolBase) (file : String) :
    (concat (tool.arguments file) ' ').toList =
      [' '].intercalate ((tool.arguments file).map String.toList) := by
  rw [concat, String.toList_ofList]

/-- The name and the arguments of a command. -/
theorem command_inj {name args args' : String} (h : name ++ " " ++ args = name ++ " " ++ args') :
    args = args' := by
  rw [← String.toList_inj, String.toList_append, String.toList_append (s := name ++ " ")] at h
  exact String.toList_injective (List.append_cancel_left h)

/-- The commands of the two tools are different. -/
theorem commandName_ne (args args' : String) :
    "clang-tidy" ++ " " ++ args ≠ "clang-format" ++ " " ++ args' := by
  intro h
  rw [← String.toList_inj] at h
  simp at h

theorem standsFor_command_iff (sh : Shell) (tool : ToolBase) (file : String) :
    StandsFor sh tool file (tool.command file) ↔ PlainArguments sh tool file := by
  have hread : StandsFor sh tool file (tool.command file) ↔
      sh.words ([' '].intercalate ((tool.arguments file).map String.toList)) =
        some ((tool.arguments file).map String.toList) := by
    rw [← toList_concat_arguments]
    constructor
    · rintro ⟨argStr, hcommand, hwords⟩
      rwa [command_inj hcommand]
    · intro hwords
      exact ⟨_, rfl, hwords⟩
  rw [hread, Shell.words_joined_iff (arguments_ne_nil tool file)]
  simp [PlainArguments]

/-- Two commands with plain arguments that are the same have the same
arguments. -/
theorem command_injective {sh : Shell} {tool tool' : ToolBase} {file file' : String}
    (h : PlainArguments sh tool file) (h' : PlainArguments sh tool' file')
    (heq : tool.command file = tool'.command file') :
    tool.arguments file = tool'.arguments file' := by
  have hargs : concat (tool.arguments file) ' ' = concat (tool'.arguments file') ' ' := by
    cases tool with
    | clangTidy tool =>
        cases tool' with
        | clangTidy tool' => exact command_inj heq
        | clangFormat tool' => exact absurd heq (commandName_ne _ _)
    | clangFormat tool =>
        cases tool' with
        | clangTidy tool' => exact absurd heq.symm (commandName_ne _ _)
        | clangFormat tool' => exact command_inj heq
  rw [← String.toList_inj, toList_concat_arguments, toList_concat_arguments] at hargs
  have hwords : ∀ word ∈ (tool.arguments file).map String.toList, sh.PlainWord word := by
    simpa [PlainArguments] using h
  have hwords' : ∀ word ∈ (tool'.arguments file').map String.toList, sh.PlainWord word := by
    simpa [PlainArguments] using h'
  have heqWords := Shell.joined_injective (arguments_ne_nil tool file)
    (arguments_ne_nil tool' file') hwords hwords' hargs
  exact List.map_injective_iff.mpr (fun _ _ hsame => String.toList_injective hsame) heqWords

/-- A recorded command stands for the run on its file exactly when every
argument is a plain word: not empty, and without blanks, newlines, quotes,
backslashes and what else has a meaning for the shell. -/
theorem failedCommands_standFor_iff {host : Host} {context : RuntimeContext}
    {tool tool' : ToolBase} (hfresh : tool.Fresh) (hcheck : tool.check host context = .ok tool')
    (sh : Shell) :
    (∃ failed : List String, failed.Sublist context.changedFiles ∧
      List.Forall₂ (fun file command => RanOn host context tool file ∧
        command = tool.command file ∧ WrittenBy tool'.getReporter command ∧
        (StandsFor sh tool file command ↔ PlainArguments sh tool file))
        failed tool'.getReporter.getFailedCommands) ∧
      ∀ tool₁ tool₂ file₁ file₂, PlainArguments sh tool₁ file₁ → PlainArguments sh tool₂ file₂ →
        tool₁.command file₁ = tool₂.command file₂ →
        tool₁.arguments file₁ = tool₂.arguments file₂ := by
  obtain ⟨failed, hsub, hran, hcommands⟩ := failedCommands_eq hfresh hcheck
  refine ⟨⟨failed, hsub, ?_⟩, fun _ _ _ _ => command_injective⟩
  have hwritten : ∀ command ∈ tool'.getReporter.getFailedCommands,
      WrittenBy tool'.getReporter command := fun command => writtenBy_of_mem
  rw [hcommands] at hwritten ⊢
  rw [List.forall₂_map_right_iff, List.forall₂_same]
  intro file hfile
  exact ⟨hran file hfile, rfl, hwritten _ (List.mem_map.mpr ⟨file, hfile, rfl⟩),
    standsFor_command_iff sh tool file⟩

/-- A shell for which no further characters have a meaning. -/
def plainShell : Shell where
  special _ := false
  expands _ := false

/-- A machine on which every tool fails and every file is checked. -/
def failingHost : Host where
  execute _ _ _ := .ok { exitCode := 1, stdOut := "", stdErr := "" }
  regexMatch _ _ := .ok true
  readFile _ := none
  parseXml _ := .ok []

def formatTool : ToolBase := .clangFormat ⟨{ binary := "clang-format" }, {}⟩

/-- One changed file, which fails. -/
def changedFile (file : String) : RuntimeContext := filledContext [⟨⟨.modified, file⟩, []⟩]

theorem failedCommands_standFor_iff_oneFile :
    ∃ tool', formatTool.check failingHost (changedFile "a.cpp") = .ok tool' ∧
      tool'.getReporter.getFailedCommands = ["clang-format --output-replacements-xml a.cpp"] ∧
      StandsFor plainShell formatTool "a.cpp" "clang-format --output-replacements-xml a.cpp" := by
  have hfresh : formatTool.Fresh := rfl
  have hcheck : (formatTool.check failingHost (changedFile "a.cpp")).map
      (fun tool' => tool'.getReporter.getFailedCommands) =
        .ok ["clang-format --output-replacements-xml a.cpp"] := rfl
  obtain ⟨tool', htool', hcommands⟩ := map_eq_ok.mp hcheck
  refine ⟨tool', htool', hcommands, ?_⟩
  obtain ⟨⟨failed, hsub, hall⟩, -⟩ := failedCommands_standFor_iff hfresh htool' plainShell
  rw [hcommands] at hall
  obtain ⟨file, _, hfile, _, rfl⟩ := List.forall₂_cons_right_iff.mp hall
  have hname : file ∈ ["a.cpp"] := hsub.subset List.mem_cons_self
  rw [List.mem_singleton.mp hname] at hfile
  refine hfile.2.2.2.mpr fun arg harg => ?_
  have hargs : arg = "--output-replacements-xml" ∨ arg = "a.cpp" := by
    simpa [formatTool, ToolBase.arguments, ClangFormat.makeReplacementsOptions] using harg
  rcases hargs with rfl | rfl <;> simp [Shell.PlainWord, Shell.isPlain, isWordBlank, plainShell]

/-- The options of clang-tidy with these checks. -/
def tidyTool (checks : String) (allowNoChecks : Bool) : ToolBase :=
  .clangTidy ⟨{ binary := "clang-tidy", checks := checks, allowNoChecks := allowNoChecks }, {}⟩

/-- The command of a file with a space in its name does not stand for its run,
and two different runs record one command. -/
theorem not_standsFor_space :
    (∃ tool', formatTool.check failingHost (changedFile "a b.cpp") = .ok tool' ∧
      tool'.getReporter.getFailedCommands = ["clang-format --output-replacements-xml a b.cpp"]) ∧
      (∀ sh, ¬ StandsFor sh formatTool "a b.cpp"
        "clang-format --output-replacements-xml a b.cpp") ∧
      (tidyTool "x --allow-no-checks" false).command "a.cpp" =
        (tidyTool "x" true).command "a.cpp" ∧
      (tidyTool "x --allow-no-checks" false).arguments "a.cpp" ≠
        (tidyTool "x" true).arguments "a.cpp" := by
  refine ⟨⟨_, rfl, rfl⟩, ?_, by decide, by decide⟩
  intro sh hstands
  have hplain := (standsFor_command_iff sh formatTool "a b.cpp").mp hstands
  have hfile := hplain "a b.cpp" (by decide)
  have hspace := hfile.2 ' ' (by decide)
  cases hspace

end CppLint
