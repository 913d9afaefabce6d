/-
CppLint.ClangFormat.GroupingTheorems — where a replacement is kept.

`parse_replacements_xml` puts the elements of the document into buckets, each
under the row of its offset (`foldl_addReplacement`). An element is in the
bucket of its own row exactly when its offset is located (`rowKey_eq_iff`), so
the map is a grouping into the lines of the file exactly when all offsets are
(`groups_iff`). An insertion behind a final newline is on no line.
-/
import CppLint.ClangFormat.ImplTheorems
import CppLint.ClangFormat.PositionTheorems

namespace CppLint.ClangFormat

open CppLint.Lib CppLint.Tool

/-! ## The elements -/

/-- The offset of a `<replacement>` element. -/
def offsetOf (ele : XmlNode) : Int := ele.queryIntAttribute "offset" 0

/-- Its length. -/
def lengthOf (ele : XmlNode) : Int := ele.queryIntAttribute "length" 0

/-- Its text. -/
def textOf (ele : XmlNode) : String := ele.getText.getD ""

/-- The element replaces bytes of the content, and its offset is an `int`. -/
structure Inside (content : List Char) (ele : XmlNode) : Prop where
  offset_nonneg : 0 ≤ offsetOf ele
  offset_lt : offsetOf ele < 2 ^ 31
  length_nonneg : 0 ≤ lengthOf ele
  within : offsetOf ele + lengthOf ele ≤ content.length

/-- The row an element is in. -/
def ownRow (content : List Char) (ele : XmlNode) : Nat := rowAt '\n' content (offsetOf ele).toNat

/-- Each element is in the bucket of its row, in the order of the document,
and each bucket is that of a line. -/
structure Groups (content : List Char) (eles : List XmlNode) (replacements : Replacements) :
    Prop where
  buckets : ∀ k, ((replacements.lookup k).getD []).map (fun r => (r.offset, r.length, r.data)) =
    (eles.filter (fun ele => ownRow content ele = k)).map
      (fun ele => (offsetOf ele, lengthOf ele, textOf ele))
  rows : ∀ k ∈ replacements, 1 ≤ k ∧ k ≤ content.count '\n' + 1

/-! ## The map -/

/-- The key an element is kept under. -/
def rowKey (lens : List Int) (ele : XmlNode) : Nat := sizeT (getPosition lens (offsetOf ele)).1

/-- What is kept of it. -/
def replacementOf (lens : List Int) (ele : XmlNode) : Replacement where
  offset := offsetOf ele
  length := lengthOf ele
  data := textOf ele
  row := (getPosition lens (offsetOf ele)).1
  col := (getPosition lens (offsetOf ele)).2

theorem foldl_addReplacement (lens : List Int) (eles : List XmlNode) (m : Replacements) :
    eles.foldl (addReplacement lens) m =
      m.fillBuckets (rowKey lens) (replacementOf lens) eles := rfl

/-- An element is kept under its own row exactly when its offset is located. -/
theorem rowKey_eq_iff {content : List Char} {ele : XmlNode} (h : Inside content ele) :
    rowKey (lineLens content) ele = ownRow content ele ↔
      Located content (offsetOf ele).toNat := by
  obtain ⟨o, hoffset⟩ := Int.eq_ofNat_of_zero_le h.offset_nonneg
  have ho : o < 2 ^ 31 := by
    have hlt := h.offset_lt
    omega
  unfold rowKey ownRow
  rw [hoffset, Int.toNat_natCast]
  have hbounds := rowAt_bounds (d := '\n') content o
  constructor
  · intro hkey
    by_contra hnot
    have hlt := getPosition_lt (lineLens content) o
    unfold sizeT at hkey
    rcases getPosition_not_located ho hnot with (hrow | hrow) | hrow
    · rw [hrow] at hkey
      omega
    · rw [hrow] at hkey
      omega
    · omega
  · intro hlocated
    rw [getPosition_located ho hlocated]
    exact sizeT_natCast_of_lt (by omega)

/-- In a right grouping every element is kept under its own row. -/
theorem rowKey_of_groups {content : List Char} {eles : List XmlNode}
    (h : Groups content eles (eles.foldl (addReplacement (lineLens content)) ∅)) {ele : XmlNode}
    (hele : ele ∈ eles) : rowKey (lineLens content) ele = ownRow content ele := by
  -- The bucket `ele` is in has an element of that row with the same offset.
  have hbucket := h.buckets (rowKey (lineLens content) ele)
  rw [foldl_addReplacement, UMap.getD_lookup_fillBuckets] at hbucket
  have hmem : (offsetOf ele, lengthOf ele, textOf ele) ∈
      (eles.filter (fun e => ownRow content e = rowKey (lineLens content) ele)).map
        (fun e => (offsetOf e, lengthOf e, textOf e)) := by
    rw [← hbucket]
    simp only [AList.lookup_empty, Option.getD_none, List.nil_append, List.map_map,
      List.mem_map, List.mem_filter, decide_eq_true_eq]
    exact ⟨ele, ⟨hele, rfl⟩, rfl⟩
  obtain ⟨ele', hele', hsame⟩ := List.mem_map.mp hmem
  have hrow : ownRow content ele' = rowKey (lineLens content) ele := by
    simpa using (List.mem_filter.mp hele').2
  have hoffset : offsetOf ele' = offsetOf ele := (Prod.mk.inj hsame).1
  rw [← hrow, ownRow, ownRow, hoffset]

/-- If all elements are kept under their own rows, the grouping is right. -/
theorem groups_of_rowKey {content : List Char} {eles : List XmlNode}
    (hkey : ∀ ele ∈ eles, rowKey (lineLens content) ele = ownRow content ele) :
    Groups content eles (eles.foldl (addReplacement (lineLens content)) ∅) := by
  rw [foldl_addReplacement]
  refine ⟨?_, ?_⟩
  · intro k
    have hfilter : eles.filter (fun ele => rowKey (lineLens content) ele = k) =
        eles.filter (fun ele => ownRow content ele = k) := by
      apply List.filter_congr
      intro ele hele
      rw [hkey ele hele]
    rw [UMap.getD_lookup_fillBuckets, hfilter]
    simp [replacementOf, Function.comp_def]
  · intro k hk
    rw [UMap.mem_fillBuckets_iff] at hk
    obtain hk | ⟨ele, hele, rfl⟩ := hk
    · exact absurd hk (AList.notMem_empty k)
    · rw [hkey ele hele]
      have hbounds := rowAt_bounds (d := '\n') content (offsetOf ele).toNat
      exact ⟨hbounds.1, hbounds.2.2⟩

/-- **The grouping** is right exactly when every offset is located. -/
theorem groups_iff {content : List Char} {eles : List XmlNode}
    (hinside : ∀ ele ∈ eles, Inside content ele) :
    Groups content eles (eles.foldl (addReplacement (lineLens content)) ∅) ↔
      ∀ ele ∈ eles, Located content (offsetOf ele).toNat := by
  constructor
  · intro h ele hele
    exact (rowKey_eq_iff (hinside ele hele)).mp (rowKey_of_groups h hele)
  · intro hlocated
    exact groups_of_rowKey fun ele hele => (rowKey_eq_iff (hinside ele hele)).mpr (hlocated ele hele)

/-! ## The document -/

/-- The map of the document is a grouping of its elements, and a check with
that document passes exactly when clang-format exits with 0 and there are
none. -/
def GroupsReplacements (host : Host) (ctx : RuntimeContext) (data file : String)
    (content : List Char) (eles : List XmlNode) : Prop :=
  (∃ replacements, parseReplacementsXml host ctx data file = .ok replacements ∧
    Groups content eles replacements) ∧
  ∀ option rootDir res,
    host.execute option.binary (makeReplacementsOptions file) rootDir = .ok res →
    res.stdOut = data →
    ∃ r, checkSingleFile host option ctx rootDir file = .ok r ∧
      (r.passed = true ↔ res.exitCode = 0 ∧ eles = [])

section

variable {host : Host} {ctx : RuntimeContext} {data file content : String} {doc : List XmlNode}
  {root : XmlNode}

theorem parseReplacementsXml_eq
    (hdoc : host.parseXml (String.ofList (data.toList.takeWhile (· ≠ '\x00'))) = .ok doc)
    (hroot : (childElements "replacements" doc).head? = some root)
    (hread : host.readFile (ctx.repoPath ++ "/" ++ file) = some content) :
    parseReplacementsXml host ctx data file =
      .ok ((childElements "replacement" root.children).foldl
        (addReplacement (lineLens content.toList)) ∅) := by
  have hne : doc.isEmpty = false := by
    cases doc with
    | nil => cases hroot
    | cons node doc => rfl
  unfold parseReplacementsXml
  simp only [hdoc, hne, hroot, getLineLens_of_readFile hread, throwIf]
  rfl

theorem checkSingleFile_passed
    (hdoc : host.parseXml (String.ofList (data.toList.takeWhile (· ≠ '\x00'))) = .ok doc)
    (hroot : (childElements "replacements" doc).head? = some root)
    (hread : host.readFile (ctx.repoPath ++ "/" ++ file) = some content) (option : Options)
    {rootDir : String} {res : Shell.Result}
    (hrun : host.execute option.binary (makeReplacementsOptions file) rootDir = .ok res)
    (hdata : res.stdOut = data) :
    ∃ r, checkSingleFile host option ctx rootDir file = .ok r ∧
      (r.passed = true ↔ res.exitCode = 0 ∧ childElements "replacement" root.children = []) := by
  have hparse := parseReplacementsXml_eq hdoc hroot hread
  have hexec : execute host option rootDir file =
      .ok (res, concat (makeReplacementsOptions file) ' ') :=
    bind_eq_ok.mpr ⟨res, external_eq_ok.mpr hrun, rfl⟩
  have hreturns : ∃ r, checkSingleFile host option ctx rootDir file = .ok r := by
    unfold checkSingleFile
    rw [hexec]
    by_cases hexit : res.exitCode = 0
    · simp [bind, Except.bind, pure, Except.pure, hexit, hdata, hparse]
    · simp [bind, Except.bind, pure, Except.pure, hexit]
  obtain ⟨r, hr⟩ := hreturns
  have hnone : NoReplacement host data ↔ childElements "replacement" root.children = [] := by
    rw [← parseReplacementsXml_isEmpty hparse, foldl_addReplacement_isEmpty]
  refine ⟨r, hr, ?_⟩
  rw [passed_iff hr, ← hnone, ← hdata]
  constructor
  · rintro ⟨res', hrun', hpassed⟩
    rw [hrun] at hrun'
    cases hrun'
    exact hpassed
  · intro hpassed
    exact ⟨res, hrun, hpassed⟩

/-- Every replacement is kept under its own line exactly when every offset is
located: it is that of a byte, or the end of a last line without newline,
and neither the end of its line nor its row wraps. -/
theorem groupsReplacements_iff
    (hdoc : host.parseXml (String.ofList (data.toList.takeWhile (· ≠ '\x00'))) = .ok doc)
    (hroot : (childElements "replacements" doc).head? = some root)
    (hread : host.readFile (ctx.repoPath ++ "/" ++ file) = some content)
    (hinside : ∀ ele ∈ childElements "replacement" root.children, Inside content.toList ele) :
    GroupsReplacements host ctx data file content.toList
        (childElements "replacement" root.children) ↔
      ∀ ele ∈ childElements "replacement" root.children,
        Located content.toList (offsetOf ele).toNat := by
  have hparse := parseReplacementsXml_eq hdoc hroot hread
  rw [← groups_iff hinside]
  constructor
  · rintro ⟨⟨replacements, hreplacements, hgroups⟩, -⟩
    rw [hparse] at hreplacements
    cases hreplacements
    exact hgroups
  · intro hgroups
    exact ⟨⟨_, hparse, hgroups⟩, fun option _ _ hrun hdata =>
      checkSingleFile_passed hdoc hroot hread option hrun hdata⟩

end

/-- The insertion of a newline. -/
def insertion (offset : Int) : XmlNode :=
  .element "replacement" [("offset", offset), ("length", 0)] (some "\n") []

/-- A machine with one file, for which clang-format asks for an insertion. -/
def insertionHost (content : String) (offset : Int) : Host where
  execute _ _ _ := .ok { exitCode := 0, stdOut := "<replacements/>", stdErr := "" }
  regexMatch _ _ := .ok false
  readFile _ := some content
  parseXml _ := .ok [.element "replacements" [] none [insertion offset]]

/-- What the machine reads from its document. -/
theorem readsInsertion (content : String) (offset : Int) :
    ∃ doc root, (insertionHost content offset).parseXml (String.ofList
        ("<replacements/>".toList.takeWhile (· ≠ '\x00'))) = .ok doc ∧
      (childElements "replacements" doc).head? = some root ∧
      childElements "replacement" root.children = [insertion offset] :=
  ⟨_, _, rfl, rfl, rfl⟩

theorem inside_insertion {content : List Char} {offset : Int} (hpos : 0 ≤ offset)
    (hlt : offset < 2 ^ 31) (hle : offset ≤ content.length) :
    ∀ ele ∈ [insertion offset], Inside content ele := by
  intro ele hele
  rw [List.mem_singleton] at hele
  subst hele
  have hoffset : offsetOf (insertion offset) = offset := rfl
  have hlength : lengthOf (insertion offset) = 0 := rfl
  exact ⟨by omega, by omega, by omega, by omega⟩

/-- A newline at the end of a file that has none there. -/
theorem groupsReplacements_iff_unterminated :
    GroupsReplacements (insertionHost "int n;" 6) {} "<replacements/>" "a.cpp" "int n;".toList
      [insertion 6] := by
  obtain ⟨doc, root, hdoc, hroot, heles⟩ := readsInsertion "int n;" 6
  have hread : (insertionHost "int n;" 6).readFile (({} : RuntimeContext).repoPath ++ "/" ++
      "a.cpp") = some "int n;" := rfl
  have hinside : ∀ ele ∈ [insertion 6], Inside "int n;".toList ele :=
    inside_insertion (by decide) (by decide) (by decide)
  rw [← heles] at hinside ⊢
  refine (groupsReplacements_iff hdoc hroot hread hinside).mpr ?_
  rw [heles]
  intro ele hele
  rw [List.mem_singleton.mp hele]
  exact ⟨by decide, by decide, by decide⟩

/-- A newline behind the final newline: its bucket is that of no line. -/
theorem not_groupsReplacements_terminated :
    (∀ ele ∈ [insertion 7], Inside "int n;\n".toList ele) ∧
      ¬ GroupsReplacements (insertionHost "int n;\n" 7) {} "<replacements/>" "a.cpp"
        "int n;\n".toList [insertion 7] := by
  have hinside : ∀ ele ∈ [insertion 7], Inside "int n;\n".toList ele :=
    inside_insertion (by decide) (by decide) (by decide)
  refine ⟨hinside, ?_⟩
  rintro ⟨⟨replacements, hparse, hgroups⟩, -⟩
  obtain ⟨doc, root, hdoc, hroot, heles⟩ := readsInsertion "int n;\n" 7
  have hread : (insertionHost "int n;\n" 7).readFile (({} : RuntimeContext).repoPath ++ "/" ++
      "a.cpp") = some "int n;\n" := rfl
  rw [parseReplacementsXml_eq hdoc hroot hread, heles] at hparse
  cases hparse
  have hlocated := (groups_iff hinside).mp hgroups (insertion 7) (by simp)
  exact absurd hlocated.onLine (by decide)

end CppLint.ClangFormat
