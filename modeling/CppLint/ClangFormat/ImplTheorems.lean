/-
CppLint.ClangFormat.ImplTheorems — when a file passes clang-format.

The check of a file passes when the map of replacements is empty, and each
`<replacement>` element leaves an entry in that map, whatever row its offset
is in. So a file passes exactly when the run exits with 0 and the document
it prints has a `<replacements>` element without `<replacement>` children
(`passed_iff`).
-/
import Mathlib.Data.List.Induction
import CppLint.ClangFormat.Impl

namespace CppLint.ClangFormat

open CppLint.Lib CppLint.Tool

/-- The document read from the output has no `<replacement>` element. -/
def NoReplacement (host : Host) (data : String) : Prop :=
  ∃ doc root, host.parseXml (String.ofList (data.toList.takeWhile (· ≠ '\x00'))) = .ok doc ∧
    (childElements "replacements" doc).head? = some root ∧
    childElements "replacement" root.children = []

/-- Every `<replacement>` element leaves an entry. -/
theorem foldl_addReplacement_isEmpty (lens : List Int) (eles : List XmlNode) :
    (eles.foldl (addReplacement lens) ∅).isEmpty = true ↔ eles = [] := by
  induction eles using List.reverseRecOn with
  | nil => simp
  | append_singleton eles ele _ =>
      rw [List.foldl_append, List.foldl_cons, List.foldl_nil, addReplacement]
      simp

/-- What a returning `parse_replacements_xml` says about the document. -/
theorem parseReplacementsXml_isEmpty {host : Host} {ctx : RuntimeContext} {data file : String}
    {replacements : Replacements}
    (h : parseReplacementsXml host ctx data file = .ok replacements) :
    replacements.isEmpty = true ↔ NoReplacement host data := by
  unfold parseReplacementsXml at h
  unfold NoReplacement
  cases hdoc : host.parseXml (String.ofList (data.toList.takeWhile (· ≠ '\x00'))) with
  | error e =>
      rw [hdoc] at h
      cases h
  | ok doc =>
      rw [hdoc] at h
      obtain ⟨_, _, h⟩ := bind_eq_ok.mp h
      cases hroot : (childElements "replacements" doc).head? with
      | none =>
          rw [hroot] at h
          cases h
      | some root =>
          rw [hroot] at h
          obtain ⟨lens, _, h⟩ := bind_eq_ok.mp h
          cases h
          rw [foldl_addReplacement_isEmpty]
          constructor
          · intro hnil
            exact ⟨doc, root, rfl, hroot, hnil⟩
          · intro hex
            obtain ⟨doc', root', hdoc', hroot', hnil⟩ := hex
            cases hdoc'
            rw [hroot] at hroot'
            cases hroot'
            exact hnil

/-- A completed check of a file passes exactly when clang-format exits with
0 and asks for no replacement. -/
theorem passed_iff {host : Host} {option : Options} {context : RuntimeContext}
    {rootDir file : String} {r : PerFileResult}
    (h : checkSingleFile host option context rootDir file = .ok r) :
    r.passed = true ↔ ∃ res, host.execute option.binary (makeReplacementsOptions file) rootDir
      = .ok res ∧ res.exitCode = 0 ∧ NoReplacement host res.stdOut := by
  obtain ⟨⟨res, fileOpt⟩, hexec, h⟩ := bind_eq_ok.mp h
  obtain ⟨res', hres, hpure⟩ := bind_eq_ok.mp hexec
  cases hpure
  rw [external_eq_ok.mp hres]
  dsimp only at h
  by_cases hexit : res.exitCode = 0
  · rw [if_neg (by simpa using hexit)] at h
    obtain ⟨replacements, hparse, h⟩ := bind_eq_ok.mp h
    cases h
    rw [parseReplacementsXml_isEmpty hparse]
    simp [hexit]
  · rw [if_pos hexit] at h
    cases h
    simp [hexit]

end CppLint.ClangFormat
