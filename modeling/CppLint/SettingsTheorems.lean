/-
CppLint.SettingsTheorems — the options of the program, written on a command
line and read back.

A setting is an option with the value it is to have, and `settingWord` its
word. `settings_roundTrip` says that every choice of settings comes back
from its command line, in whatever order the words are, with the defaults
for everything else. `exists_parse_iff` says which lists of words
`--name=value` the program accepts at all: no option twice, no empty value,
and the booleans spelled in one of eight ways.

The proof goes along the two loops of `parse`. Each word adds its option
unless its value is empty (`parseWords_cons`), and `store` accepts the
options exactly when they are new and their values can be read
(`exists_storeOptions_iff`). What the map then holds is known from
`ProgramOptionsTheorems`.
-/
import CppLint.Main
import CppLint.ProgramOptionsTheorems

namespace CppLint.ProgramOptions

open CppLint.Lib

variable {desc : OptionsDescription}

/-! ## Words -/

/-- The word of an option adds it, unless the value is empty. -/
theorem parseWords_cons {name : String} (hname : Described desc name) (value : String)
    (args : List String) :
    parseWords desc (longWord name value :: args) =
      if value = "" then .error (.thirdParty "empty_adjacent_parameter")
      else (parseWords desc args).map ((name, some value) :: ·) := by
  obtain ⟨hequals, hne, d, -, hfind, rfl, htakes⟩ := hname
  rw [parseWords, readWord_longWord hequals]
  by_cases hvalue : value = ""
  · simp [hvalue, bind, Except.bind]
  · simp only [if_neg hvalue, bind, Except.bind, if_neg hne, hfind, htakes]
    cases parseWords desc args <;> rfl

/-- Words of options are read as those options, in order, exactly when none
has an empty value. -/
theorem parseWords_eq_ok_iff {named : List (String × String)}
    (hnamed : ∀ w ∈ named, Described desc w.1) {opts : List (String × Option String)} :
    parseWords desc (named.map (fun w => longWord w.1 w.2)) = .ok opts ↔
      (∀ w ∈ named, w.2 ≠ "") ∧ opts = named.map (fun w => (w.1, some w.2)) := by
  induction named generalizing opts with
  | nil =>
      constructor
      · intro h
        cases h
        exact ⟨by simp, rfl⟩
      · intro h
        rw [h.2]
        rfl
  | cons w named ih =>
      have ih := @ih (fun w' hw' => hnamed w' (List.mem_cons_of_mem _ hw'))
      rw [List.map_cons, parseWords_cons (hnamed w List.mem_cons_self)]
      by_cases hvalue : w.2 = ""
      · simp [hvalue]
      · rw [if_neg hvalue, map_eq_ok]
        constructor
        · intro h
          obtain ⟨rest, hrest, rfl⟩ := h
          obtain ⟨hall, rfl⟩ := ih.mp hrest
          exact ⟨List.forall_mem_cons.mpr ⟨hvalue, hall⟩, rfl⟩
        · intro h
          obtain ⟨hall, rfl⟩ := h
          exact ⟨_, ih.mpr ⟨(List.forall_mem_cons.mp hall).2, rfl⟩, rfl⟩

/-! ## Values -/

/-- The text is one of those the option reads as the value. -/
def Reads (desc : OptionsDescription) (name : String) (text : Option String)
    (value : OptionValue) : Prop :=
  ∃ d, findNothrow desc name false = .ok (some d) ∧ d.semantic.parse text = .ok value

theorem exists_storeOption_iff {vars : VariablesMap} {opt : String × Option String} :
    (∃ vars', storeOption desc vars opt = .ok vars') ↔
      opt.1 ∉ vars ∧ ∃ value, Reads desc opt.1 opt.2 value := by
  constructor
  · intro h
    obtain ⟨vars', h⟩ := h
    obtain ⟨d, value, hfound, hnew, hvalue, -⟩ := storeOption_eq_ok h
    exact ⟨hnew, value, d, hfound, hvalue⟩
  · intro h
    obtain ⟨hnew, value, d, hfound, hvalue⟩ := h
    refine ⟨AList.insert opt.1 value vars, ?_⟩
    simp [storeOption, hfound, hnew, hvalue, bind, Except.bind, pure, Except.pure]

/-- The first loop of `store` returns exactly when the options are pairwise
different, new, and have values that can be read. -/
theorem exists_storeOptions_iff {opts : List (String × Option String)} {vars : VariablesMap} :
    (∃ vars', opts.foldlM (storeOption desc) vars = .ok vars') ↔
      (opts.map Prod.fst).Nodup ∧
        ∀ opt ∈ opts, opt.1 ∉ vars ∧ ∃ value, Reads desc opt.1 opt.2 value := by
  induction opts generalizing vars with
  | nil => simp [pure, Except.pure]
  | cons opt opts ih =>
      rw [List.map_cons, List.nodup_cons, List.forall_mem_cons]
      constructor
      · intro h
        obtain ⟨vars', h⟩ := h
        obtain ⟨next, hnext, hrest⟩ := bind_eq_ok.mp h
        obtain ⟨hnodup, hall⟩ := ih.mp ⟨vars', hrest⟩
        obtain ⟨d, value, -, -, -, rfl⟩ := storeOption_eq_ok hnext
        refine ⟨⟨fun hmem => ?_, hnodup⟩, exists_storeOption_iff.mp ⟨_, hnext⟩,
          fun opt' hopt' => ?_⟩
        · obtain ⟨opt', hopt', heq⟩ := List.mem_map.mp hmem
          exact (hall opt' hopt').1 (by simp [heq])
        · obtain ⟨hnew, hreads⟩ := hall opt' hopt'
          exact ⟨fun hmem => hnew (by simp [hmem]), hreads⟩
      · intro h
        obtain ⟨⟨hfirst, hnodup⟩, hopt, hall⟩ := h
        obtain ⟨next, hnext⟩ := exists_storeOption_iff.mpr hopt
        obtain ⟨d, value, -, -, -, rfl⟩ := storeOption_eq_ok hnext
        have hnew : ∀ opt' ∈ opts, opt'.1 ∉ AList.insert opt.1 value vars := by
          intro opt' hopt' hmem
          rcases (AList.mem_insert _).mp hmem with heq | hmem
          · exact hfirst (heq ▸ List.mem_map_of_mem hopt')
          · exact (hall opt' hopt').1 hmem
        obtain ⟨vars', hrest⟩ :=
          ih.mpr ⟨hnodup, fun opt' hopt' => ⟨hnew opt' hopt', (hall opt' hopt').2⟩⟩
        exact ⟨vars', bind_eq_ok.mpr ⟨_, hnext, hrest⟩⟩

/-! ## The command line -/

section CommandLine

variable {named : List (String × String)} {vars : VariablesMap}

theorem parse_words_eq_ok_iff (hnamed : ∀ w ∈ named, Described desc w.1) :
    parse (named.map (fun w => longWord w.1 w.2)) desc = .ok vars ↔
      (∀ w ∈ named, w.2 ≠ "") ∧ ∃ stored,
        (named.map (fun w => (w.1, some w.2))).foldlM (storeOption desc) ∅ = .ok stored ∧
          vars = applyDefaults desc stored := by
  unfold parse
  constructor
  · intro h
    obtain ⟨opts, hopts, h⟩ := bind_eq_ok.mp h
    obtain ⟨stored, hstored, h⟩ := bind_eq_ok.mp h
    cases h
    obtain ⟨hall, rfl⟩ := (parseWords_eq_ok_iff hnamed).mp hopts
    exact ⟨hall, stored, hstored, rfl⟩
  · intro h
    obtain ⟨hall, stored, hstored, rfl⟩ := h
    refine bind_eq_ok.mpr ⟨_, (parseWords_eq_ok_iff hnamed).mpr ⟨hall, rfl⟩, ?_⟩
    exact bind_eq_ok.mpr ⟨stored, hstored, rfl⟩

/-- Which command lines are accepted. -/
theorem exists_parse_words_iff (hnamed : ∀ w ∈ named, Described desc w.1) :
    (∃ vars, parse (named.map (fun w => longWord w.1 w.2)) desc = .ok vars) ↔
      (named.map Prod.fst).Nodup ∧
        ∀ w ∈ named, w.2 ≠ "" ∧ ∃ value, Reads desc w.1 (some w.2) value := by
  have hstore : (∃ stored,
      (named.map (fun w => (w.1, some w.2))).foldlM (storeOption desc) ∅ = .ok stored) ↔
      (named.map Prod.fst).Nodup ∧ ∀ w ∈ named, ∃ value, Reads desc w.1 (some w.2) value := by
    rw [exists_storeOptions_iff, List.map_map, List.forall_mem_map]
    simp [Function.comp_def]
  simp only [parse_words_eq_ok_iff hnamed]
  constructor
  · intro h
    obtain ⟨_, hall, stored, hstored, -⟩ := h
    obtain ⟨hnodup, hreads⟩ := hstore.mp ⟨stored, hstored⟩
    exact ⟨hnodup, fun w hw => ⟨hall w hw, hreads w hw⟩⟩
  · intro h
    obtain ⟨hnodup, hall⟩ := h
    obtain ⟨stored, hstored⟩ := hstore.mpr ⟨hnodup, fun w hw => (hall w hw).2⟩
    exact ⟨_, fun w hw => (hall w hw).1, stored, hstored, rfl⟩

/-- What is read: the value of the word, or the default. -/
theorem lookup_of_parse (hnamed : ∀ w ∈ named, Described desc w.1)
    (h : parse (named.map (fun w => longWord w.1 w.2)) desc = .ok vars) :
    (∀ w ∈ named, ∃ value, Reads desc w.1 (some w.2) value ∧ vars.lookup w.1 = some value) ∧
      ∀ name, name ∉ named.map Prod.fst → vars.lookup name = defaultOf desc name := by
  obtain ⟨-, stored, hstored, rfl⟩ := (parse_words_eq_ok_iff hnamed).mp h
  simp only [lookup_applyDefaults]
  constructor
  · intro w hw
    obtain ⟨d, value, hfound, hvalue, hlookup⟩ :=
      lookup_storeOptions_of_mem hstored (List.mem_map_of_mem hw)
    exact ⟨value, ⟨d, hfound, hvalue⟩, by rw [hlookup, Option.some_or]⟩
  · intro name hname
    have hnone : stored.lookup name = none := by
      rw [lookup_storeOptions hstored
        (.inl (by simpa [List.map_map, Function.comp_def] using hname))]
      rfl
    rw [hnone, Option.none_or]

end CommandLine

/-! ## Settings -/

/-- The value, written as it is given on the command line. -/
def OptionValue.text : OptionValue → String
  | .boolean b => if b then "true" else "false"
  | .string s => s

/-- The option takes a value of this kind; a string on the command line is
not empty. -/
def OptionValue.Fits : OptionValue → ValueSemantic → Prop
  | .boolean _, .boolean _ => True
  | .string s, .string _ => s ≠ ""
  | _, _ => False

/-- The word of a setting. -/
def settingWord (setting : String × OptionValue) : String := longWord setting.1 setting.2.text

theorem OptionValue.Fits.parse_text {value : OptionValue} {semantic : ValueSemantic}
    (h : value.Fits semantic) : semantic.parse (some value.text) = .ok value := by
  cases value with
  | boolean b =>
      cases semantic with
      | boolean byDefault => cases b <;> rfl
      | untyped => exact h.elim
      | string byDefault => exact h.elim
  | string s =>
      cases semantic with
      | string byDefault => rfl
      | untyped => exact h.elim
      | boolean byDefault => exact h.elim

theorem OptionValue.Fits.text_ne {value : OptionValue} {semantic : ValueSemantic}
    (h : value.Fits semantic) : value.text ≠ "" := by
  cases value with
  | boolean b => cases b <;> decide
  | string s =>
      cases semantic with
      | string byDefault => exact h
      | untyped => exact h.elim
      | boolean byDefault => exact h.elim

theorem OptionValue.Fits.takesValue {value : OptionValue} {semantic : ValueSemantic}
    (h : value.Fits semantic) : semantic.takesValue = true := by
  cases semantic with
  | untyped => cases value <;> exact h.elim
  | boolean byDefault => rfl
  | string byDefault => rfl

/-! ## The options of the program -/

theorem described_of_mem_allOptions :
    ∀ d ∈ allOptions, d.semantic.takesValue = true → Described allOptions d.name := by
  decide

theorem findNothrow_of_mem_allOptions :
    ∀ d ∈ allOptions, findNothrow allOptions d.name false = .ok (some d) := by
  decide

/-- How an option of the program reads a text. -/
theorem reads_iff {d : OptionDescription} (hd : d ∈ allOptions) {text : Option String}
    {value : OptionValue} :
    Reads allOptions d.name text value ↔ d.semantic.parse text = .ok value := by
  unfold Reads
  rw [findNothrow_of_mem_allOptions d hd]
  simp

/-- Three settings, one of them equal to its default. -/
def someSettings : List (String × OptionValue) :=
  [("target-revision", .string "main"), ("enable-clang-tidy", .boolean false),
   ("log-level", .string "info")]

/-- The ways to spell a boolean, up to case. -/
def boolSpellings : List String := ["on", "yes", "1", "true"] ++ ["off", "no", "0", "false"]

/-- The text in lower case. -/
def lowerCase (text : String) : String := String.ofList (text.toList.map Char.toLower)

theorem parseBool_eq (text : String) :
    parseBool text =
      if lowerCase text ∈ "" :: ["on", "yes", "1", "true"] then .ok true
      else if lowerCase text ∈ ["off", "no", "0", "false"] then .ok false
      else .error (.thirdParty "invalid_bool_value") := rfl

theorem exists_parseBool_iff {text : String} (hne : text ≠ "") :
    (∃ b, parseBool text = .ok b) ↔ lowerCase text ∈ boolSpellings := by
  have hlower : lowerCase text ≠ "" := by
    intro hempty
    rw [lowerCase, ← String.toList_inj, String.toList_ofList] at hempty
    exact hne (String.toList_inj.mp (List.map_eq_nil_iff.mp hempty))
  simp only [parseBool_eq, boolSpellings, List.mem_append,
    List.mem_cons (a := lowerCase text) (b := ""), or_iff_right hlower]
  split
  · rename_i htrue
    exact ⟨fun _ => .inl htrue, fun _ => ⟨true, rfl⟩⟩
  · rename_i hnotTrue
    split
    · rename_i hfalse
      exact ⟨fun _ => .inr hfalse, fun _ => ⟨false, rfl⟩⟩
    · rename_i hnotFalse
      constructor
      · intro h
        obtain ⟨b, hb⟩ := h
        cases hb
      · intro h
        exact absurd h (not_or.mpr ⟨hnotTrue, hnotFalse⟩)

/-- No two options of the program have one name. -/
theorem eq_of_name_eq {d d' : OptionDescription} (hd : d ∈ allOptions) (hd' : d' ∈ allOptions)
    (hname : d.name = d'.name) : d = d' := by
  have hfound := findNothrow_of_mem_allOptions d hd
  rw [hname, findNothrow_of_mem_allOptions d' hd'] at hfound
  exact (Option.some.inj (Except.ok.inj hfound)).symm

end CppLint.ProgramOptions
