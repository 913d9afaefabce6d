/-
CppLint.ProgramOptionsTheorems — what `parse` makes of a command line.

The words `--name=value` of described options come through in order with
their values (`parseWords_longWords`), `store` converts those
(`lookup_storeOptions_of_mem`) and leaves every other option alone
(`lookup_storeOptions`), and an option that is still absent has its default
in the end (`lookup_applyDefaults`). Together: an option has the value of
its word (`lookup_parse_of_named`), or its default if no word names it
(`lookup_parse_of_not_named`).
-/
import CppLint.ProgramOptions

namespace CppLint.ProgramOptions

open CppLint.Lib

variable {desc : OptionsDescription}

/-! ## Words -/

/-- A string is cut at the first delimiter. -/
theorem takeWhile_delimiter {c : Char} {before after : List Char} (h : c ∉ before) :
    (before ++ c :: after).takeWhile (· ≠ c) = before := by
  rw [List.takeWhile_append_of_pos]
  · simp
  · intro b hb
    simpa using fun heq : b = c => h (heq ▸ hb)

theorem dropWhile_delimiter {c : Char} {before after : List Char} (h : c ∉ before) :
    (before ++ c :: after).dropWhile (· ≠ c) = c :: after := by
  rw [List.dropWhile_append_of_pos]
  · simp
  · intro b hb
    simpa using fun heq : b = c => h (heq ▸ hb)

/-- A word `--name=value` is an option with an adjacent value, unless the
value is empty. -/
theorem readWord_longWord {name value : String} (hname : '=' ∉ name.toList) :
    readWord (longWord name value) =
      if value = "" then .error (.thirdParty "empty_adjacent_parameter")
      else .ok (.long name (some value)) := by
  have hword : (longWord name value).toList = '-' :: '-' :: (name.toList ++ '=' :: value.toList) := by
    simp [longWord]
  unfold readWord
  rw [hword]
  split
  · rename_i hempty
    simp at hempty
  · rename_i rest _ hrest
    simp only [List.cons.injEq, true_and] at hrest
    subst hrest
    rw [takeWhile_delimiter hname, dropWhile_delimiter hname]
    by_cases hvalue : value = ""
    · simp [hvalue]
    · have hne : value.toList ≠ [] := by simpa using hvalue
      obtain ⟨c, cs, hcs⟩ := List.exists_cons_of_ne_nil hne
      rw [if_neg hvalue, hcs]
      show Except.ok (Word.long (String.ofList name.toList) (some (String.ofList (c :: cs)))) = _
      rw [← hcs, String.ofList_toList, String.ofList_toList]
  · rename_i hnotLong heq
    injection heq with _ heq
    injection heq with hdash
    exact absurd hdash.symm hnotLong
  · rename_i hnotLong _
    exact absurd rfl (hnotLong _)

/-- A word that does not begin with a dash is positional. -/
theorem readWord_positional {tok : String} (h : tok.toList.head? ≠ some '-') :
    readWord tok = .ok .positional := by
  unfold readWord
  split <;> first | rfl | (rename_i heq; exact absurd (congrArg List.head? heq) h)

/-- The name is that of an option that takes a value, and can be written
before an equals sign. -/
def Described (desc : OptionsDescription) (name : String) : Prop :=
  '=' ∉ name.toList ∧ name ≠ "" ∧
    ∃ d ∈ desc, findNothrow desc name true = .ok (some d) ∧ d.name = name ∧
      d.semantic.takesValue = true

instance (desc : OptionsDescription) (name : String) : Decidable (Described desc name) :=
  inferInstanceAs (Decidable ('=' ∉ name.toList ∧ name ≠ "" ∧
    ∃ d ∈ desc, findNothrow desc name true = .ok (some d) ∧ d.name = name ∧
      d.semantic.takesValue = true))

/-- A word `--name=value` that is read at all adds its option. -/
theorem parseWords_cons_longWord {name value : String} {args : List String}
    {opts : List (String × Option String)} (hname : Described desc name)
    (h : parseWords desc (longWord name value :: args) = .ok opts) :
    ∃ rest, parseWords desc args = .ok rest ∧ opts = (name, some value) :: rest := by
  obtain ⟨hequals, hne, d, -, hfind, rfl, htakes⟩ := hname
  rw [parseWords, readWord_longWord hequals] at h
  by_cases hvalue : value = ""
  · rw [if_pos hvalue] at h
    cases h
  · rw [if_neg hvalue] at h
    simp only [bind, Except.bind, if_neg hne, hfind, htakes] at h
    cases hrest : parseWords desc args with
    | error f =>
        rw [hrest] at h
        cases h
    | ok rest =>
        rw [hrest] at h
        cases h
        exact ⟨rest, rfl, rfl⟩

/-- Words `--name=value` of described options and a positional word after
them are read as those options, in order, with those values. -/
theorem parseWords_longWords {last : String} (hlast : readWord last = .ok .positional) :
    ∀ {named : List (String × String)} {opts : List (String × Option String)},
      (∀ w ∈ named, Described desc w.1) →
      parseWords desc (named.map (fun w => longWord w.1 w.2) ++ [last]) = .ok opts →
      opts = named.map (fun w => (w.1, some w.2))
  | [], opts, _, h => by
      simp only [List.map_nil, List.nil_append, parseWords, hlast, bind, Except.bind] at h
      cases h
      rfl
  | w :: named, opts, hnamed, h => by
      rw [List.map_cons, List.cons_append] at h
      obtain ⟨rest, hrest, rfl⟩ := parseWords_cons_longWord (hnamed w (by simp)) h
      rw [parseWords_longWords hlast (fun w' hw' => hnamed w' (by simp [hw'])) hrest,
        List.map_cons]

/-! ## Values -/

/-- A value that is stored is that of a described option, which had none. -/
theorem storeOption_eq_ok {vars vars' : VariablesMap} {opt : String × Option String}
    (h : storeOption desc vars opt = .ok vars') :
    ∃ d value, findNothrow desc opt.1 false = .ok (some d) ∧ opt.1 ∉ vars ∧
      d.semantic.parse opt.2 = .ok value ∧ vars' = AList.insert opt.1 value vars := by
  unfold storeOption at h
  obtain ⟨found, hfound, h⟩ := bind_eq_ok.mp h
  cases found with
  | none => cases h
  | some d =>
      dsimp only at h
      split at h
      · cases h
      · rename_i hnew
        obtain ⟨value, hvalue, h⟩ := bind_eq_ok.mp h
        cases h
        exact ⟨d, value, hfound, hnew, hvalue, rfl⟩

/-- The first loop of `store` leaves alone what the command line does not
name, and what has a value. -/
theorem lookup_storeOptions {name : String} :
    ∀ {opts : List (String × Option String)} {vars vars' : VariablesMap},
      opts.foldlM (storeOption desc) vars = .ok vars' → name ∉ opts.map Prod.fst ∨ name ∈ vars →
      vars'.lookup name = vars.lookup name
  | [], vars, vars', h, _ => by
      cases h
      rfl
  | opt :: opts, vars, vars', h, hname => by
      rw [List.foldlM_cons] at h
      obtain ⟨vars₁, hstep, hrest⟩ := bind_eq_ok.mp h
      obtain ⟨d, value, -, hnew, -, rfl⟩ := storeOption_eq_ok hstep
      have hne : name ≠ opt.1 := by
        rintro rfl
        simp [hnew] at hname
      have hname' : name ∉ opts.map Prod.fst ∨ name ∈ AList.insert opt.1 value vars := by
        simpa [hne] using hname
      rw [lookup_storeOptions hrest hname', AList.lookup_insert_ne hne]

/-- And gives every option of the command line the value of its word. -/
theorem lookup_storeOptions_of_mem {opt : String × Option String} :
    ∀ {opts : List (String × Option String)} {vars vars' : VariablesMap},
      opts.foldlM (storeOption desc) vars = .ok vars' → opt ∈ opts →
      ∃ d value, findNothrow desc opt.1 false = .ok (some d) ∧
        d.semantic.parse opt.2 = .ok value ∧ vars'.lookup opt.1 = some value
  | [], _, _, _, hopt => by simp at hopt
  | opt' :: opts, vars, vars', h, hopt => by
      rw [List.foldlM_cons] at h
      obtain ⟨vars₁, hstep, hrest⟩ := bind_eq_ok.mp h
      rcases List.mem_cons.mp hopt with rfl | hopt
      · obtain ⟨d, value, hfound, -, hvalue, rfl⟩ := storeOption_eq_ok hstep
        refine ⟨d, value, hfound, hvalue, ?_⟩
        rw [lookup_storeOptions hrest (.inr (by simp)), AList.lookup_insert]
      · exact lookup_storeOptions_of_mem hrest hopt

/-- The default of an option. -/
def defaultOf (desc : OptionsDescription) (name : String) : Option OptionValue :=
  ((defaults desc).find? (fun entry => entry.1 = name)).map Prod.snd

/-- The second loop gives the options that are still absent their
defaults. -/
theorem lookup_applyDefaults (desc : OptionsDescription) (vars : VariablesMap) (name : String) :
    (applyDefaults desc vars).lookup name = (vars.lookup name).or (defaultOf desc name) :=
  UMap.lookup_fillFirst Prod.fst Prod.snd name (defaults desc) vars

section CommandLine

variable {named : List (String × String)} {last : String} {vars : VariablesMap}

/-- The two loops of `store` on such a command line. -/
theorem parse_eq_ok (hnamed : ∀ w ∈ named, Described desc w.1)
    (hlast : readWord last = .ok .positional)
    (h : parse (named.map (fun w => longWord w.1 w.2) ++ [last]) desc = .ok vars) :
    ∃ stored, (named.map (fun w => (w.1, some w.2))).foldlM (storeOption desc) ∅ = .ok stored ∧
      vars = applyDefaults desc stored := by
  unfold parse at h
  obtain ⟨opts, hopts, h⟩ := bind_eq_ok.mp h
  obtain ⟨stored, hstored, h⟩ := bind_eq_ok.mp h
  cases h
  rw [parseWords_longWords hlast hnamed hopts] at hstored
  exact ⟨stored, hstored, rfl⟩

/-- An option that no word of the command line names has its default. -/
theorem lookup_parse_of_not_named (hnamed : ∀ w ∈ named, Described desc w.1)
    (hlast : readWord last = .ok .positional)
    (h : parse (named.map (fun w => longWord w.1 w.2) ++ [last]) desc = .ok vars) {name : String}
    (hname : name ∉ named.map Prod.fst) : vars.lookup name = defaultOf desc name := by
  obtain ⟨stored, hstored, rfl⟩ := parse_eq_ok hnamed hlast h
  have hnone : stored.lookup name = none := by
    rw [lookup_storeOptions hstored]
    · rfl
    · rw [List.map_map]
      exact .inl hname
  rw [lookup_applyDefaults, hnone, Option.none_or]

/-- An option that a word names has the value of the word. -/
theorem lookup_parse_of_named (hnamed : ∀ w ∈ named, Described desc w.1)
    (hlast : readWord last = .ok .positional)
    (h : parse (named.map (fun w => longWord w.1 w.2) ++ [last]) desc = .ok vars)
    {w : String × String} (hw : w ∈ named) :
    ∃ d value, findNothrow desc w.1 false = .ok (some d) ∧
      d.semantic.parse (some w.2) = .ok value ∧ vars.lookup w.1 = some value := by
  obtain ⟨stored, hstored, rfl⟩ := parse_eq_ok hnamed hlast h
  obtain ⟨d, value, hfound, hvalue, hlookup⟩ :=
    lookup_storeOptions_of_mem hstored (List.mem_map_of_mem hw)
  refine ⟨d, value, hfound, hvalue, ?_⟩
  rw [lookup_applyDefaults, hlookup, Option.some_or]

end CommandLine

end CppLint.ProgramOptions
