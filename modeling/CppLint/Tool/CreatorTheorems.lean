/-
CppLint.Tool.CreatorTheorems — what is trimmed from the path of a tool.

`trim` removes the blanks around a string that has something else in it
(`exists_trim`), and returns a string of blanks as it is (`trim_of_blank`).
`find_clang_tool` compares the trimmed output of `which` with the empty
string, so a blank line passes for a path (`trims_and_findsPath_iff`).
-/
import CppLint.Tool.Creator

namespace CppLint.Tool

open CppLint.Lib

/-- The string has characters other than blanks. -/
def HasText (str : String) : Prop := ∃ c ∈ str.toList, isBlank c = false

instance (str : String) : Decidable (HasText str) :=
  inferInstanceAs (Decidable (∃ c ∈ str.toList, isBlank c = false))

/-- No blank at either end. -/
def NoOuterBlank (str : String) : Prop :=
  (∀ c ∈ str.toList.head?, isBlank c = false) ∧ (∀ c ∈ str.toList.getLast?, isBlank c = false)

/-- `trim` removes the blanks at the ends, and nothing else. -/
structure Trims (str : String) : Prop where
  parts : ∃ left right, (∀ c ∈ left, isBlank c = true) ∧ (∀ c ∈ right, isBlank c = true) ∧
    str.toList = left ++ (trim str).toList ++ right
  noOuterBlank : NoOuterBlank (trim str)
  empty : ¬ HasText str → trim str = ""
  idempotent : trim (trim str) = trim str

/-- `find_clang_tool` fails, or returns a path without blanks around it. -/
def FindsPath (host : Host) (tool version : String) : Prop :=
  (∃ f, findClangTool host tool version = .error f) ∨
    ∃ path, findClangTool host tool version = .ok path ∧ path ≠ "" ∧ NoOuterBlank path

/-! ## Trimming -/

theorem trim_of_blank {str : String} (h : ¬ HasText str) : trim str = str := by
  have hblank : ∀ c ∈ str.toList, isBlank c = true := by
    simpa [HasText] using h
  unfold trim
  rw [trimLeft_of_blank hblank, trimRight_of_blank hblank, String.ofList_toList]

/-- The first character that is no blank. -/
theorem exists_firstText {str : List Char} (h : ∃ c ∈ str, isBlank c = false) :
    ∃ left c rest, str = left ++ c :: rest ∧ (∀ b ∈ left, isBlank b = true) ∧
      isBlank c = false := by
  induction str with
  | nil => simp at h
  | cons d str ih =>
      by_cases hd : isBlank d = true
      · have hstr : ∃ c ∈ str, isBlank c = false := by simpa [hd] using h
        obtain ⟨left, c, rest, rfl, hleft, hc⟩ := ih hstr
        exact ⟨d :: left, c, rest, rfl, by simpa [hd] using hleft, hc⟩
      · exact ⟨[], d, str, rfl, by simp, by simpa using hd⟩

/-- The last one. -/
theorem exists_lastText {str : List Char} (h : ∃ c ∈ str, isBlank c = false) :
    ∃ init d right, str = init ++ d :: right ∧ (∀ b ∈ right, isBlank b = true) ∧
      isBlank d = false := by
  have hreverse : ∃ c ∈ str.reverse, isBlank c = false := by simpa using h
  obtain ⟨left, c, rest, hstr, hleft, hc⟩ := exists_firstText hreverse
  refine ⟨rest.reverse, c, left.reverse, ?_, by simpa using hleft, hc⟩
  rw [← List.reverse_reverse str, hstr]
  simp

/-- What `trim` returns for a string that has text, and what it removes. -/
theorem exists_trim {str : String} (h : HasText str) :
    ∃ left right, (∀ c ∈ left, isBlank c = true) ∧ (∀ c ∈ right, isBlank c = true) ∧
      str.toList = left ++ (trim str).toList ++ right ∧ HasText (trim str) ∧
      NoOuterBlank (trim str) := by
  obtain ⟨left, c, rest, hstr, hleft, hc⟩ := exists_firstText h
  have hlast : ∃ b ∈ c :: rest, isBlank b = false := ⟨c, by simp, hc⟩
  obtain ⟨init, d, right, hrest, hright, hd⟩ := exists_lastText hlast
  have htrim : (trim str).toList = init ++ [d] := by
    rw [trim, String.toList_ofList, hstr, trimLeft_append hleft hc, hrest,
      trimRight_append hright hd]
  have hhead : (init ++ [d]).head? = some c := by
    cases init <;> simp_all
  refine ⟨left, right, hleft, hright, ?_, ⟨d, by simp [htrim], hd⟩, ?_, ?_⟩
  · rw [htrim, hstr, hrest]
    simp
  · rw [htrim, hhead]
    simpa using hc
  · rw [htrim]
    simpa using hd

/-- A string without blanks at its ends is not touched. -/
theorem trim_of_noOuterBlank {str : String} (h : HasText str) (hends : NoOuterBlank str) :
    trim str = str := by
  obtain ⟨left, right, hleft, hright, hstr, -, -⟩ := exists_trim h
  have hnoLeft : left = [] := by
    cases left with
    | nil => rfl
    | cons b left =>
        have hb := hends.1 b (by simp [hstr])
        rw [hleft b (by simp)] at hb
        cases hb
  have hnoRight : right = [] := by
    rcases List.eq_nil_or_concat right with rfl | ⟨init, b, rfl⟩
    · rfl
    · have hb := hends.2 b (by rw [hstr, List.concat_eq_append, ← List.append_assoc]; simp)
      rw [hright b (by simp)] at hb
      cases hb
  rw [hnoLeft, hnoRight, List.nil_append, List.append_nil] at hstr
  exact String.toList_injective hstr.symm

theorem not_noOuterBlank {str : String} (h : ¬ HasText str) (hne : str ≠ "") :
    ¬ NoOuterBlank str := by
  intro hends
  obtain ⟨c, cs, hstr⟩ := List.exists_cons_of_ne_nil (l := str.toList) (by simpa using hne)
  exact h ⟨c, by simp [hstr], hends.1 c (by simp [hstr])⟩

/-- The empty string and the strings with text are trimmed. -/
theorem trims_iff (str : String) : Trims str ↔ str = "" ∨ HasText str := by
  constructor
  · intro h
    by_cases htext : HasText str
    · exact .inr htext
    · exact .inl ((trim_of_blank htext).symm.trans (h.empty htext))
  · rintro (rfl | htext)
    · exact ⟨⟨[], [], by simp, by simp, rfl⟩, by simp [NoOuterBlank, trim, trimLeft, trimRight],
        fun _ => rfl, rfl⟩
    · obtain ⟨left, right, hleft, hright, hstr, htrim, hends⟩ := exists_trim htext
      exact ⟨⟨left, right, hleft, hright, hstr⟩, hends, absurd htext,
        trim_of_noOuterBlank htrim hends⟩

/-! ## The path of a tool -/

/-- `find_clang_tool` returns what `which` prints, trimmed, unless that is
empty. -/
theorem findClangTool_eq_ok_iff {host : Host} {tool version path : String} :
    findClangTool host tool version = .ok path ↔
      ∃ res, host.execute "/usr/bin/which" [tool ++ "-" ++ version] "." = .ok res ∧
        res.exitCode = 0 ∧ trim (trim res.stdOut) = path ∧ path ≠ "" := by
  unfold findClangTool which
  constructor
  · intro h
    obtain ⟨res', hwhich, h⟩ := bind_eq_ok.mp h
    obtain ⟨res, hrun, hres⟩ := bind_eq_ok.mp hwhich
    cases hres
    obtain ⟨_, hexit, h⟩ := bind_eq_ok.mp h
    obtain ⟨_, hne, h⟩ := bind_eq_ok.mp h
    have hpath : trim (trim res.stdOut) = path := Except.ok.inj h
    have hne' := throwIf_eq_ok.mp hne
    rw [hpath] at hne'
    exact ⟨res, external_eq_ok.mp hrun, by simpa using throwIf_eq_ok.mp hexit, hpath,
      by simpa using hne'⟩
  · rintro ⟨res, hrun, hexit, rfl, hne⟩
    have hexit' : throwIf (res.exitCode ≠ 0)
        ("find " ++ tool ++ "-" ++ version ++ " failed, error message: " ++ res.stdErr) = .ok () :=
      throwIf_eq_ok.mpr (by simpa using hexit)
    have hne' : throwIf (trim (trim res.stdOut) = "") "got empty clang tool path" = .ok () :=
      throwIf_eq_ok.mpr (by simpa using hne)
    exact bind_eq_ok.mpr ⟨_, bind_eq_ok.mpr ⟨res, external_eq_ok.mpr hrun, rfl⟩,
      bind_eq_ok.mpr ⟨(), hexit', bind_eq_ok.mpr ⟨(), hne', rfl⟩⟩⟩

/-- What `which` has to print for `find_clang_tool` to be right: if it
succeeds, nothing at all or something else than blanks. -/
def PrintsPath (host : Host) (tool version : String) : Prop :=
  ∀ res, host.execute "/usr/bin/which" [tool ++ "-" ++ version] "." = .ok res →
    res.exitCode = 0 → res.stdOut = "" ∨ HasText res.stdOut

theorem findsPath_iff (host : Host) (tool version : String) :
    FindsPath host tool version ↔ PrintsPath host tool version := by
  constructor
  · intro h res hrun hexit
    by_contra hblank
    obtain ⟨hne, htext⟩ := not_or.mp hblank
    have htrim : trim (trim res.stdOut) = res.stdOut := by
      rw [trim_of_blank htext, trim_of_blank htext]
    have hfind := findClangTool_eq_ok_iff.mpr ⟨res, hrun, hexit, htrim, hne⟩
    rcases h with ⟨f, hf⟩ | ⟨path, hpath, -, hends⟩
    · rw [hfind] at hf
      cases hf
    · rw [hfind] at hpath
      cases hpath
      exact not_noOuterBlank htext hne hends
  · intro h
    cases hfind : findClangTool host tool version with
    | error f => exact .inl ⟨f, hfind⟩
    | ok path =>
        obtain ⟨res, hrun, hexit, htrim, hne⟩ := findClangTool_eq_ok_iff.mp hfind
        have htrims := (trims_iff res.stdOut).mpr (h res hrun hexit)
        rw [htrims.idempotent] at htrim
        exact .inr ⟨path, hfind, hne, htrim ▸ htrims.noOuterBlank⟩

/-- `trim` does what it should exactly on the empty string and the strings
with something else than blanks, and so does `find_clang_tool` with the
output of `which`. -/
theorem trims_and_findsPath_iff (str : String) (host : Host) (tool version : String) :
    (Trims str ↔ str = "" ∨ HasText str) ∧
      (FindsPath host tool version ↔ PrintsPath host tool version) :=
  ⟨trims_iff str, findsPath_iff host tool version⟩

/-- A machine on which every program succeeds and prints an empty line. -/
def emptyLineHost : Host where
  execute _ _ _ := .ok { exitCode := 0, stdOut := "\n", stdErr := "" }
  regexMatch _ _ := .ok false
  readFile _ := none
  parseXml _ := .ok []

/-- A blank is not trimmed away, and an empty line passes for a path. -/
theorem blank_not_trimmed : ¬ Trims " " ∧ ¬ FindsPath emptyLineHost "clang-tidy" "18" := by
  constructor
  · intro h
    exact absurd (h.empty (by simp [HasText, isBlank])) (by decide)
  · rintro (⟨f, hf⟩ | ⟨path, hpath, -, hends⟩)
    · have hfind : findClangTool emptyLineHost "clang-tidy" "18" = .ok "\n" := rfl
      rw [hfind] at hf
      cases hf
    · have hfind : findClangTool emptyLineHost "clang-tidy" "18" = .ok "\n" := rfl
      rw [hfind] at hpath
      cases hpath
      exact absurd (hends.1 '\n' rfl) (by decide)

end CppLint.Tool
