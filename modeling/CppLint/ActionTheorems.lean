/-
CppLint.ActionTheorems — which inputs of the action reach the program.

Twelve inputs are passed as options of the same name, and have their values
(`lookup_named`). The other twelve are appended to one more word, without
the names of their options; that word begins with a blank
(`head?_gatherOptions`), so it is positional, and their options keep their
defaults (`lookup_gathered`). `forwardsInputs_iff` says for which inputs
this goes unnoticed.
-/
import CppLint.Action
import CppLint.ProgramOptionsTheorems

namespace CppLint.Action

open CppLint.Lib CppLint.ProgramOptions

/-- Every gathered input that is not empty is the value of its option, and
the option of every other one has its default. -/
def ForwardsInputs (inputs : String → String) (vars : VariablesMap) : Prop :=
  ∀ name ∈ gatheredInputs,
    vars.lookup name =
      if inputs name = "" then defaultOf allOptions name else some (.string (inputs name))

variable {shell : Shell} {inputs : String → String}

/-! ## The word the inputs are gathered in -/

theorem head?_gatherInput {options options' input : String}
    (h : gatherInput shell inputs options input = some options')
    (hhead : options.toList.head? = some ' ') : options'.toList.head? = some ' ' := by
  unfold gatherInput at h
  simp only [Option.bind_eq_bind, Option.bind_eq_some_iff] at h
  obtain ⟨tested, -, h⟩ := h
  split at h
  · cases h
    exact hhead
  · obtain ⟨text, -, h⟩ := Option.bind_eq_some_iff.mp h
    cases h
    simp [hhead]

theorem head?_gatherInputs :
    ∀ {names : List String} {options options' : String},
      names.foldlM (gatherInput shell inputs) options = some options' →
      options.toList.head? = some ' ' → options'.toList.head? = some ' '
  | [], options, options', h, hhead => by
      cases h
      exact hhead
  | name :: names, options, options', h, hhead => by
      rw [List.foldlM_cons] at h
      obtain ⟨next, hnext, hrest⟩ := Option.bind_eq_some_iff.mp h
      exact head?_gatherInputs hrest (head?_gatherInput hnext hhead)

/-- `options` begins with the blank it is initialised with. -/
theorem head?_gatherOptions {options : String} (h : gatherOptions shell inputs = some options) :
    options.toList.head? = some ' ' := head?_gatherInputs h rfl

/-! ## The command line -/

/-- The arguments made from inputs are options of their names, with what the
shell reads. -/
theorem mapM_longWord :
    ∀ {names words : List String},
      names.mapM (fun input =>
        (shell.read .argument input (inputs input)).map (longWord input)) = some words →
      ∃ named : List (String × String),
        words = named.map (fun w => longWord w.1 w.2) ∧ named.map Prod.fst = names ∧
          ∀ w ∈ named, shell.read .argument w.1 (inputs w.1) = some w.2
  | [], words, h => by
      cases h
      exact ⟨[], rfl, rfl, by simp⟩
  | name :: names, words, h => by
      rw [List.mapM_cons] at h
      obtain ⟨word, hword, h⟩ := Option.bind_eq_some_iff.mp h
      obtain ⟨rest, hrest, h⟩ := Option.bind_eq_some_iff.mp h
      obtain ⟨value, hvalue, rfl⟩ := Option.map_eq_some_iff.mp hword
      obtain ⟨named, rfl, hnames, hread⟩ := mapM_longWord hrest
      cases h
      exact ⟨(name, value) :: named, rfl, by simp [hnames], by simpa [hvalue] using hread⟩

/-- The command line is the named inputs, each with its text, and one
positional word. -/
theorem argv_eq_some {words : List String} (h : argv shell inputs = some words) :
    ∃ (named : List (String × String)) (options : String),
      words = named.map (fun w => longWord w.1 w.2) ++ [options] ∧
        named.map Prod.fst = namedInputs ∧
        (∀ w ∈ named, shell.read .argument w.1 (inputs w.1) = some w.2) ∧
        readWord options = .ok .positional := by
  unfold argv at h
  obtain ⟨options, hoptions, h⟩ := Option.bind_eq_some_iff.mp h
  obtain ⟨words', hwords, h⟩ := Option.bind_eq_some_iff.mp h
  obtain ⟨named, rfl, hnames, hread⟩ := mapM_longWord hwords
  cases h
  refine ⟨named, options, rfl, hnames, hread, readWord_positional ?_⟩
  simp [head?_gatherOptions hoptions]

theorem described_of_mem_namedInputs : ∀ name ∈ namedInputs, Described allOptions name := by
  decide

theorem described_of_map_fst {named : List (String × String)}
    (hnames : named.map Prod.fst = namedInputs) : ∀ w ∈ named, Described allOptions w.1 := by
  intro w hw
  refine described_of_mem_namedInputs w.1 ?_
  rw [← hnames]
  exact List.mem_map_of_mem hw

section Reach

variable {words : List String} {vars : VariablesMap}

/-- A named input reaches the program: its option has the value of what the
shell reads. -/
theorem lookup_named (hwords : argv shell inputs = some words)
    (hvars : parse words allOptions = .ok vars) {name : String} (hname : name ∈ namedInputs) :
    ∃ text d value, shell.read .argument name (inputs name) = some text ∧
      findNothrow allOptions name false = .ok (some d) ∧
      d.semantic.parse (some text) = .ok value ∧ vars.lookup name = some value := by
  obtain ⟨named, options, rfl, hnames, hread, hoptions⟩ := argv_eq_some hwords
  rw [← hnames] at hname
  obtain ⟨w, hw, rfl⟩ := List.mem_map.mp hname
  obtain ⟨d, value, hparsed⟩ :=
    lookup_parse_of_named (described_of_map_fst hnames) hoptions hvars hw
  exact ⟨w.2, d, value, hread w hw, hparsed⟩

/-- No gathered input reaches the program. -/
theorem lookup_gathered (hwords : argv shell inputs = some words)
    (hvars : parse words allOptions = .ok vars) {name : String} (hname : name ∈ gatheredInputs) :
    vars.lookup name = defaultOf allOptions name := by
  obtain ⟨named, options, rfl, hnames, -, hoptions⟩ := argv_eq_some hwords
  have hdisjoint : ∀ name ∈ gatheredInputs, name ∉ namedInputs := by decide
  refine lookup_parse_of_not_named (described_of_map_fst hnames) hoptions hvars ?_
  rw [hnames]
  exact hdisjoint name hname

end Reach

/-- A shell on texts that have nothing in them it would expand. -/
def plainShell : Shell := ⟨fun _ _ text => some text⟩

/-- The inputs with their defaults, and one set of checks. -/
def checksInputs : String → String
  | "log-level" => "info"
  | "target-revision" => "main"
  | "enable-comment-on-issue" => "true"
  | "enable-pull-request-review" => "false"
  | "enable-step-summary" => "true"
  | "enable-action-output" => "true"
  | "enable-clang-format" => "true"
  | "enable-clang-format-fastly-exit" => "false"
  | "enable-clang-tidy" => "true"
  | "enable-clang-tidy-fastly-exit" => "false"
  | "clang-tidy-enable-check-profile" => "false"
  | "clang-tidy-allow-no-checks" => "false"
  | "clang-tidy-checks" => "-*,bugprone-*"
  | _ => ""

/-- The command line of `checksInputs`. -/
def checksWords : List String :=
  namedInputs.map (fun input => longWord input (checksInputs input)) ++ ["  -*,bugprone-*"]

theorem argv_checksInputs : argv plainShell checksInputs = some checksWords := by decide

theorem exists_parse_checksWords : ∃ vars, parse checksWords allOptions = .ok vars :=
  exists_ok_of_isOk (by decide +kernel)

end CppLint.Action
