/-
CppLint.ClangFormat.PositionTheorems — where `get_position` finds an offset.

`get_position` goes through the lines and takes the first one that the
offset is in front of the end of. It counts in `int` and `std::uint32_t`, so
it takes the line the offset is on exactly when neither the end of the line
nor its number wraps (`getPositionFrom_located`); what it returns otherwise is
a later line, or no line at all (`getPositionFrom_not_located`).

In a file of less than `2 ^ 31` bytes nothing wraps but the column behind a
single line of `2 ^ 31 - 1` bytes (`getPosition_getLineLens`).
-/
import Mathlib.Algebra.Ring.Int.Defs
import CppLint.ClangFormat.Impl
import CppLint.Lib.Lines

namespace CppLint.ClangFormat

open CppLint.Lib CppLint.Tool

/-- The lines `std::getline` reads, with one added for each newline. -/
def lineLens (content : List Char) : List Int :=
  (lines '\n' content).map (fun line => toU32 (line.length + 1))

/-- What is returned for no line. -/
def NoRow (row : Int) : Prop := row = -1 ∨ row = -2 ^ 31

/-- Behind `i` lines of `c` bytes, the offset is on a line of the content. The
end of that line, as a `std::uint32_t`, is behind the offset, and its number
is an `int`. -/
structure LocatedFrom (i c : Nat) (content : List Char) (o : Nat) : Prop where
  onLine : OnLine '\n' content o
  endBehind : c + o < (c + lineEnd '\n' content o + 1) % 2 ^ 32
  row_lt : i + rowAt '\n' content o < 2 ^ 31

/-! ## One line -/

theorem toU32_natCast (n : Nat) : toU32 n = (n % 2 ^ 32 : Nat) := by
  simp [toU32]

theorem toI32_of_lt {n : Int} (hlt : n < 2 ^ 31) : toI32 n = n := if_pos hlt

/-- The number of the next line is one below all rows when it wraps. -/
theorem nextRow {i : Int} (hpos : 0 ≤ i) (hlt : i < 2 ^ 31) :
    toI32 (toU32 (i + 1)) = if i + 1 < 2 ^ 31 then i + 1 else -2 ^ 31 := by
  unfold toI32 toU32
  split <;> split <;> omega

/-- The search at a line of length `n`. -/
theorem getPositionFrom_line {c o : Nat} (hlt : c + o < 2 ^ 31) (i n : Nat) (lens : List Int) :
    getPositionFrom (c + o : Nat) i c (toU32 (n + 1) :: lens) =
      if c + o < (c + n + 1) % 2 ^ 32 then (toI32 (toU32 (i + 1)), toI32 (o + 1))
      else getPositionFrom (c + o : Nat) (toI32 (toU32 (i + 1))) ((c + n + 1) % 2 ^ 32 : Nat)
        lens := by
  have hoffset : toU32 (c + o : Nat) = (c + o : Nat) := by
    rw [toU32_natCast, Nat.mod_eq_of_lt (by omega)]
  have hend : toU32 (c + toU32 (n + 1)) = ((c + n + 1) % 2 ^ 32 : Nat) := by
    unfold toU32
    omega
  have hcol : toU32 (((c + o : Nat) : Int) - c + 1) = o + 1 := by
    unfold toU32
    omega
  have hcounter : ¬ (i : Int) < 0 := by omega
  have hfrom : ((c + o : Nat) : Int) ≥ c := by omega
  rw [getPositionFrom, if_neg hcounter, hoffset, hend, hcol]
  simp only [hfrom, decide_true, Bool.true_and, decide_eq_true_eq, Int.ofNat_lt]

theorem getPositionFrom_of_neg {i : Int} (hneg : i < 0) (offset curOffset : Int)
    (lens : List Int) : getPositionFrom offset i curOffset lens = (-1, -1) := by
  cases lens with
  | nil => rfl
  | cons len lens => rw [getPositionFrom, if_pos hneg]

/-- Whatever the lengths are, a row that is found is not behind. -/
theorem getPositionFrom_row (offset : Int) (lens : List Int) {i : Int} (hlt : i < 2 ^ 31)
    (curOffset : Int) :
    NoRow (getPositionFrom offset i curOffset lens).1 ∨
      i < (getPositionFrom offset i curOffset lens).1 := by
  induction lens generalizing i curOffset with
  | nil => exact .inl (.inl rfl)
  | cons len lens ih =>
      by_cases hneg : i < 0
      · rw [getPositionFrom_of_neg hneg]
        exact .inl (.inl rfl)
      rw [getPositionFrom, if_neg hneg, nextRow (by omega) hlt]
      by_cases hnext : i + 1 < 2 ^ 31
      · rw [if_pos hnext]
        split
        · right
          dsimp only
          omega
        · rcases ih hnext (toU32 (curOffset + len)) with h | h
          · exact .inl h
          · right
            omega
      · rw [if_neg hnext, getPositionFrom_of_neg (by decide)]
        split
        · exact .inl (.inr rfl)
        · exact .inl (.inl rfl)

theorem getPositionFrom_lt (offset i curOffset : Int) (lens : List Int) :
    (getPositionFrom offset i curOffset lens).1 < 2 ^ 31 := by
  induction lens generalizing i curOffset with
  | nil => exact (by decide : (-1 : Int) < 2 ^ 31)
  | cons len lens ih =>
      rw [getPositionFrom]
      split
      · exact (by decide : (-1 : Int) < 2 ^ 31)
      · split
        · show toI32 (toU32 (i + 1)) < 2 ^ 31
          unfold toI32 toU32
          split <;> omega
        · exact ih _ _

/-! ## The search -/

/-- The line is taken for that of the offset. -/
theorem getPositionFrom_hit {i c o n : Nat} (hend : c + o < (c + n + 1) % 2 ^ 32)
    (hlt : c + o < 2 ^ 31) (hrow : i + 1 < 2 ^ 31) (lens : List Int) :
    getPositionFrom (c + o : Nat) i c (toU32 (n + 1) :: lens) =
      (((i + 1 : Nat) : Int), toI32 (o + 1)) := by
  rw [getPositionFrom_line hlt, if_pos hend, nextRow (by omega) (by omega), if_pos (by omega)]
  simp

/-- The line is not taken, or its number wraps. -/
theorem getPositionFrom_missed {i c o n : Nat} (hic : i ≤ c) (hlt : c + o < 2 ^ 31)
    (h : ¬ (c + o < (c + n + 1) % 2 ^ 32 ∧ i + 1 < 2 ^ 31)) (lens : List Int) :
    NoRow (getPositionFrom (c + o : Nat) i c (toU32 (n + 1) :: lens)).1 ∨
      ((i + 1 : Nat) : Int) < (getPositionFrom (c + o : Nat) i c (toU32 (n + 1) :: lens)).1 := by
  rw [getPositionFrom_line hlt, nextRow (by omega) (by omega)]
  by_cases hrow : (i : Int) + 1 < 2 ^ 31
  · have hend : ¬ c + o < (c + n + 1) % 2 ^ 32 := fun hend => h ⟨hend, by omega⟩
    rw [if_neg hend, if_pos hrow]
    exact getPositionFrom_row (c + o : Nat) lens hrow ((c + n + 1) % 2 ^ 32 : Nat)
  · left
    rw [if_neg hrow, getPositionFrom_of_neg (by decide)]
    split
    · exact .inr rfl
    · exact .inl rfl

/-- A line in front of the offset is passed. -/
theorem getPositionFrom_behind {i c n k : Nat} (hic : i ≤ c) (hlt : c + (n + 1 + k) < 2 ^ 31)
    (lens : List Int) :
    getPositionFrom (c + (n + 1 + k) : Nat) i c (toU32 (n + 1) :: lens) =
      getPositionFrom (c + n + 1 + k : Nat) (i + 1 : Nat) (c + n + 1 : Nat) lens := by
  have hrow : toI32 (toU32 (i + 1)) = (i + 1 : Nat) := by
    rw [nextRow (by omega) (by omega), if_pos (by omega)]
    omega
  have hbehind : ¬ c + (n + 1 + k) < (c + n + 1) % 2 ^ 32 := by omega
  have hend : (c + n + 1) % 2 ^ 32 = c + n + 1 := by omega
  have hoffset : c + (n + 1 + k) = c + n + 1 + k := by omega
  rw [getPositionFrom_line hlt, if_neg hbehind, hrow, hend, hoffset]

theorem locatedFrom_behind {i c k : Nat} {l : List Char} (hl : '\n' ∉ l) (t : List Char) :
    LocatedFrom i c (l ++ '\n' :: t) (l.length + 1 + k) ↔
      LocatedFrom (i + 1) (c + l.length + 1) t k := by
  constructor
  · rintro ⟨hon, hend, hrow⟩
    rw [lineEnd_behind] at hend
    rw [rowAt_behind hl] at hrow
    exact ⟨(onLine_behind l t k).mp hon, by omega, by omega⟩
  · rintro ⟨hon, hend, hrow⟩
    refine ⟨(onLine_behind l t k).mpr hon, ?_, ?_⟩
    · rw [lineEnd_behind]
      omega
    · rw [rowAt_behind hl]
      omega

/-- The line of the offset is found. -/
theorem getPositionFrom_located {content : List Char} {i c o : Nat} (hic : i ≤ c)
    (hlt : c + o < 2 ^ 31) (h : LocatedFrom i c content o) :
    getPositionFrom (c + o : Nat) i c (lineLens content) =
      (((i + rowAt '\n' content o : Nat) : Int), toI32 (colAt '\n' content o)) := by
  induction content using lines_induction (d := '\n') generalizing i c o with
  | nil => simpa [OnLine] using h.onLine
  | last l hne hl =>
      have ho := (onLine_last hne hl).mp h.onLine
      have hrow := rowAt_first hl ho []
      have hcol := colAt_first hl ho []
      have hend := h.endBehind
      have hrow_lt := h.row_lt
      rw [List.append_nil] at hrow hcol
      rw [lineEnd_last hl ho] at hend
      rw [hrow] at hrow_lt ⊢
      rw [hcol, lineLens, lines_last hne hl]
      exact getPositionFrom_hit hend hlt hrow_lt []
  | line l t hl ih =>
      by_cases ho : o ≤ l.length
      · have hend := h.endBehind
        have hrow_lt := h.row_lt
        rw [lineEnd_first hl ho] at hend
        rw [rowAt_first hl ho] at hrow_lt ⊢
        rw [colAt_first hl ho, lineLens, lines_line hl]
        exact getPositionFrom_hit hend hlt hrow_lt _
      · obtain ⟨k, rfl⟩ : ∃ k, o = l.length + 1 + k := ⟨o - (l.length + 1), by omega⟩
        have hbehind := ih (by omega) (by omega) ((locatedFrom_behind hl t).mp h)
        rw [rowAt_behind hl, colAt_behind, lineLens, lines_line hl]
        refine (getPositionFrom_behind hic hlt _).trans (hbehind.trans ?_)
        congr 2
        omega

/-- An offset whose line is not found is given a later one, or none. -/
theorem getPositionFrom_not_located {content : List Char} {i c o : Nat} (hic : i ≤ c)
    (hlt : c + o < 2 ^ 31) (h : ¬ LocatedFrom i c content o) :
    NoRow (getPositionFrom (c + o : Nat) i c (lineLens content)).1 ∨
      ((i + rowAt '\n' content o : Nat) : Int) <
        (getPositionFrom (c + o : Nat) i c (lineLens content)).1 := by
  induction content using lines_induction (d := '\n') generalizing i c o with
  | nil => exact .inl (.inl (by simp [lineLens, getPositionFrom]))
  | last l hne hl =>
      rw [lineLens, lines_last hne hl]
      by_cases ho : o ≤ l.length
      · have hrow := rowAt_first hl ho []
        rw [List.append_nil] at hrow
        rw [hrow]
        refine getPositionFrom_missed hic hlt ?_ []
        rintro ⟨hend, hrow_lt⟩
        exact h ⟨(onLine_last hne hl).mpr ho, by rwa [lineEnd_last hl ho], by rwa [hrow]⟩
      · obtain ⟨k, rfl⟩ : ∃ k, o = l.length + 1 + k := ⟨o - (l.length + 1), by omega⟩
        left
        left
        exact congrArg Prod.fst (getPositionFrom_behind hic hlt [])
  | line l t hl ih =>
      rw [lineLens, lines_line hl]
      by_cases ho : o ≤ l.length
      · rw [rowAt_first hl ho]
        refine getPositionFrom_missed hic hlt ?_ _
        rintro ⟨hend, hrow_lt⟩
        exact h ⟨onLine_first ho t, by rwa [lineEnd_first hl ho], by rwa [rowAt_first hl ho]⟩
      · obtain ⟨k, rfl⟩ : ∃ k, o = l.length + 1 + k := ⟨o - (l.length + 1), by omega⟩
        have hbehind := ih (by omega) (by omega) (mt (locatedFrom_behind hl t).mpr h)
        rw [lineLens] at hbehind
        have hrow : i + (rowAt '\n' t k + 1) = i + 1 + rowAt '\n' t k := by omega
        rw [List.map_cons, getPositionFrom_behind hic hlt, rowAt_behind hl, hrow]
        exact hbehind

/-! ## Offsets in a file -/

/-- The offset is on a line of the content. The end of that line, as a
`std::uint32_t`, is behind the offset, and its number is an `int`. -/
structure Located (content : List Char) (o : Nat) : Prop where
  onLine : OnLine '\n' content o
  endBehind : o < (lineEnd '\n' content o + 1) % 2 ^ 32
  row_lt : rowAt '\n' content o < 2 ^ 31

theorem located_iff {content : List Char} {o : Nat} :
    Located content o ↔ LocatedFrom 0 0 content o := by
  constructor
  · rintro ⟨hon, hend, hrow⟩
    exact ⟨hon, by simpa using hend, by simpa using hrow⟩
  · rintro ⟨hon, hend, hrow⟩
    exact ⟨hon, by simpa using hend, by simpa using hrow⟩

theorem getPosition_located {content : List Char} {o : Nat} (ho : o < 2 ^ 31)
    (h : Located content o) :
    getPosition (lineLens content) o =
      ((rowAt '\n' content o : Int), toI32 (colAt '\n' content o)) := by
  simpa [getPosition] using
    getPositionFrom_located (Nat.le_refl 0) (by simpa using ho) (located_iff.mp h)

theorem getPosition_not_located {content : List Char} {o : Nat} (ho : o < 2 ^ 31)
    (h : ¬ Located content o) :
    NoRow (getPosition (lineLens content) o).1 ∨
      (rowAt '\n' content o : Int) < (getPosition (lineLens content) o).1 := by
  simpa [getPosition] using
    getPositionFrom_not_located (Nat.le_refl 0) (by simpa using ho) (mt located_iff.mpr h)

theorem getPosition_lt (lens : List Int) (offset : Int) : (getPosition lens offset).1 < 2 ^ 31 :=
  getPositionFrom_lt offset 0 0 lens

theorem getLineLens_of_readFile {host : Host} {filePath content : String}
    (hread : host.readFile filePath = some content) :
    getLineLens host filePath = .ok (lineLens content.toList) := by
  unfold getLineLens
  rw [hread]
  rfl

/-- Every offset on a line of a file of less than `2 ^ 31` bytes is located. -/
theorem located_of_onLine {content : List Char} (hsize : content.length < 2 ^ 31) {o : Nat}
    (ho : OnLine '\n' content o) : Located content o := by
  have hle := ho.le_length
  have hend := lineEnd_le (d := '\n') hle
  have hfrom := le_lineEnd (d := '\n') content o
  have hrow := rowAt_le ho
  exact ⟨ho, by omega, by omega⟩

/-- `get_position` on the lengths of the lines of the file agrees with the
content: the row, the column, and the way back to the offset. -/
def PositionRight (host : Host) (filePath content : String) (o : Nat) : Prop :=
  ∃ lens row col, getLineLens host filePath = .ok lens ∧ getPosition lens o = (row, col) ∧
    row = rowAt '\n' content.toList o ∧ col = colAt '\n' content.toList o ∧
    (o : Int) = (lens.take (row - 1).toNat).sum + col - 1

/-- The lengths of lines that are short enough add up. -/
theorem sum_lens {ls : List (List Char)} (hsize : ∀ l ∈ ls, l.length < 2 ^ 31) :
    (ls.map (fun l => toU32 (l.length + 1))).sum = ((ls.map (·.length + 1)).sum : Nat) := by
  induction ls with
  | nil => rfl
  | cons l ls ih =>
      have hl := hsize l (by simp)
      have hlen : toU32 (l.length + 1) = l.length + 1 := by
        unfold toU32
        omega
      rw [List.map_cons, List.sum_cons, List.map_cons, List.sum_cons, hlen,
        ih fun l' hl' => hsize l' (by simp [hl'])]
      omega

/-- **Positions.** In a file of less than `2 ^ 31` bytes every offset on a
line has the right row, and the right column unless the column is `2 ^ 31`:
behind a file of one line of `2 ^ 31 - 1` bytes. -/
theorem getPosition_getLineLens {host : Host} {filePath content : String} {o : Nat}
    (hread : host.readFile filePath = some content) (hsize : content.toList.length < 2 ^ 31)
    (ho : OnLine '\n' content.toList o) :
    (∃ lens col, getLineLens host filePath = .ok lens ∧
      getPosition lens o = ((rowAt '\n' content.toList o : Int), col)) ∧
      ((o = 2 ^ 31 - 1 → '\n' ∈ content.toList) → PositionRight host filePath content o) := by
  have hle : o ≤ content.toList.length := ho.le_length
  have hlens := getLineLens_of_readFile hread
  have hposition := getPosition_located (by omega) (located_of_onLine hsize ho)
  refine ⟨⟨_, _, hlens, hposition⟩, ?_⟩
  intro hline
  have hcol_lt : colAt '\n' content.toList o < 2 ^ 31 := by
    by_cases hmax : o = 2 ^ 31 - 1
    · have htake : '\n' ∈ content.toList.take o := by
        rw [List.take_of_length_le (by omega)]
        exact hline hmax
      have hcol := colAt_le_of_mem htake
      omega
    · have hcol := colAt_le (d := '\n') content.toList o
      omega
  have hcol : toI32 (colAt '\n' content.toList o) = colAt '\n' content.toList o :=
    toI32_of_lt (by omega)
  refine ⟨_, _, _, hlens, hposition, rfl, hcol, ?_⟩
  have hrow : ((rowAt '\n' content.toList o : Int) - 1).toNat = rowAt '\n' content.toList o - 1 := by
    omega
  have hsum := offset_eq ho
  have hsizes : ∀ l ∈ (lines '\n' content.toList).take (rowAt '\n' content.toList o - 1),
      l.length < 2 ^ 31 := by
    intro l hl
    have hlength := length_le_of_mem_lines (List.mem_of_mem_take hl)
    omega
  rw [hrow, hcol, lineLens, ← List.map_take, sum_lens hsizes]
  omega

/-- A machine whose files all have the same content. -/
def contentHost (content : String) : Host where
  execute _ _ _ := .ok { exitCode := 0, stdOut := "", stdErr := "" }
  regexMatch _ _ := .ok false
  readFile _ := some content
  parseXml _ := .ok []

/-- The `-` of the second line. -/
theorem getPosition_getLineLens_secondLine :
    PositionRight (contentHost "int a;\n-b") "a.cpp" "int a;\n-b" 7 := by
  have hread : (contentHost "int a;\n-b").readFile "a.cpp" = some "int a;\n-b" := rfl
  exact (getPosition_getLineLens hread (by decide) (by decide)).2 (by decide)

theorem not_positionRight_longLine {host : Host} {filePath content : String}
    (hread : host.readFile filePath = some content) (hsize : content.toList.length = 2 ^ 31 - 1)
    (hno : '\n' ∉ content.toList) : ¬ PositionRight host filePath content (2 ^ 31 - 1) := by
  rintro ⟨lens, row, col, hlens, hposition, -, hcol, -⟩
  have hne : content.toList ≠ [] := by
    intro hnil
    rw [hnil] at hsize
    cases hsize
  have hon := (onLine_last hne hno).mpr hsize.ge
  have hfirst := colAt_first hno hsize.ge []
  rw [List.append_nil] at hfirst
  rw [getLineLens_of_readFile hread] at hlens
  cases hlens
  rw [getPosition_located (by decide) (located_of_onLine (by omega) hon), hfirst] at hposition
  rw [hfirst] at hcol
  have heq := (Prod.mk.inj hposition).2.trans hcol
  exact absurd heq (by decide)

/-- Behind one line of `2 ^ 31 - 1` bytes the column is not an `int`. -/
theorem longLine_column_wraps :
    (List.replicate (2 ^ 31 - 1) 'a').length < 2 ^ 31 ∧
      OnLine '\n' (List.replicate (2 ^ 31 - 1) 'a') (2 ^ 31 - 1) ∧
      ¬ PositionRight (contentHost (String.ofList (List.replicate (2 ^ 31 - 1) 'a'))) "a.cpp"
        (String.ofList (List.replicate (2 ^ 31 - 1) 'a')) (2 ^ 31 - 1) := by
  generalize hcontent : List.replicate (2 ^ 31 - 1) 'a' = content
  have hsize : content.length = 2 ^ 31 - 1 := hcontent ▸ List.length_replicate
  have hno : '\n' ∉ content := by
    intro hmem
    rw [← hcontent] at hmem
    exact absurd (List.eq_of_mem_replicate hmem) (by decide)
  have hne : content ≠ [] := by
    intro hnil
    rw [hnil] at hsize
    cases hsize
  refine ⟨by omega, (onLine_last hne hno).mpr hsize.ge, ?_⟩
  exact not_positionRight_longLine rfl (by rwa [String.toList_ofList])
    (by rwa [String.toList_ofList])

end CppLint.ClangFormat
