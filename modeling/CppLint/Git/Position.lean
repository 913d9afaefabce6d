/-
CppLint.Git.Position — what a position in a diff designates.

A review comment names a line of a pull request by its `position`: the
number of lines down from the first `@@` header of the file, the line just
below that header being 1, and every context, addition and deletion line
and every later `@@` header counted on the way. This module is that
definition, over hunks as libgit2 delivers them, and knows nothing of the
code that computes positions.

`rowsOf` lists the rows of a file's diff, headers included, so that the
position of a row is its index. A row of the new side carries its line
number; `numberLines_eq_some_iff` says where the line with a given number
stands: below it in its hunk are exactly the new-side lines counted from
`newStart`, so index and number drift apart by one with each deletion.
-/
import CppLint.Git.Diff

namespace CppLint.Git

/-! ## Rows and positions -/

/-- One row of the diff of a file. A line of the old side has no number on
the new side. -/
inductive DiffRow where
  | header
  | line (origin : LineOrigin) (newLineno : Option Nat)
deriving DecidableEq, Repr

/-- The lines of a hunk with their numbers on the new side, the next number
to give being `n`. -/
def numberLines : Nat → List DiffLine → List DiffRow
  | _, [] => []
  | n, l :: ls =>
      if l.onNewSide then .line l.origin (some n) :: numberLines (n + 1) ls
      else .line l.origin none :: numberLines n ls

/-- The rows of a hunk: its header, then its lines. -/
def Hunk.rows (h : Hunk) : List DiffRow := .header :: numberLines h.newStart h.lines

/-- The rows of a file's diff. -/
def rowsOf (hunks : List Hunk) : List DiffRow := hunks.flatMap Hunk.rows

/-- The position designates the line whose number on the new side is `row`. -/
def Designates (hunks : List Hunk) (position row : Nat) : Prop :=
  ∃ origin, (rowsOf hunks)[position]? = some (.line origin (some row))

/-- `row` is in the new-side range of the hunk. -/
def Hunk.Covers (h : Hunk) (row : Nat) : Prop :=
  h.newStart ≤ row ∧ row < h.newStart + h.newLines

instance (h : Hunk) (row : Nat) : Decidable (h.Covers row) :=
  inferInstanceAs (Decidable (_ ∧ _))

/-- `row` is the number of a new-side line the diff shows. -/
def Shows (hunks : List Hunk) (row : Nat) : Prop := ∃ h ∈ hunks, h.Covers row

instance (hunks : List Hunk) (row : Nat) : Decidable (Shows hunks row) :=
  inferInstanceAs (Decidable (∃ h ∈ hunks, h.Covers row))

/-- The hunks are in order and disjoint on the new side. -/
def Ordered (hunks : List Hunk) : Prop :=
  hunks.Pairwise (fun h k => h.newStart + h.newLines ≤ k.newStart)

instance (hunks : List Hunk) : Decidable (Ordered hunks) :=
  inferInstanceAs (Decidable (hunks.Pairwise _))

/-- The hunks are in order, disjoint and do not touch. -/
def Separated (hunks : List Hunk) : Prop :=
  hunks.Pairwise (fun h k => h.newStart + h.newLines < k.newStart)

instance (hunks : List Hunk) : Decidable (Separated hunks) :=
  inferInstanceAs (Decidable (hunks.Pairwise _))

/-! ## Where a numbered line stands -/

@[simp] theorem length_numberLines (n : Nat) (ls : List DiffLine) :
    (numberLines n ls).length = ls.length := by
  induction ls generalizing n with
  | nil => rfl
  | cons l ls ih =>
      rw [numberLines]
      cases l.onNewSide <;> simp [ih]

@[simp] theorem Hunk.length_rows (h : Hunk) : h.rows.length = h.lines.length + 1 := by
  simp [Hunk.rows]

theorem rowsOf_cons (h : Hunk) (hs : List Hunk) : rowsOf (h :: hs) = h.rows ++ rowsOf hs := rfl

/-- The line with number `row` has before it as many new-side lines as
`row` is past the first number. -/
theorem numberLines_eq_some_iff {origin : LineOrigin} {row : Nat} :
    ∀ {ls : List DiffLine} {n i : Nat},
      (numberLines n ls)[i]? = some (.line origin (some row)) ↔
        (∃ l, ls[i]? = some l ∧ l.origin = origin ∧ l.onNewSide = true) ∧
          row = n + (ls.take i).countP DiffLine.onNewSide := by
  intro ls
  induction ls with
  | nil => intro n i; simp [numberLines]
  | cons l ls ih =>
      intro n i
      rw [numberLines]
      cases hl : l.onNewSide with
      | true =>
          cases i with
          | zero => simp [hl, @eq_comm _ n row]
          | succ i =>
              rw [if_pos rfl, List.getElem?_cons_succ, ih, List.getElem?_cons_succ,
                List.take_succ_cons, List.countP_cons_of_pos hl]
              rw [Nat.add_right_comm, Nat.add_assoc]
      | false =>
          have hneg : ¬ l.onNewSide = true := by simp [hl]
          cases i with
          | zero => simp [hl]
          | succ i =>
              rw [if_neg (by simp), List.getElem?_cons_succ, ih, List.getElem?_cons_succ,
                List.take_succ_cons, List.countP_cons_of_neg hneg]

/-- The number of a hunk's line is in the hunk's range. -/
theorem Hunk.covers_of_numbered {h : Hunk} {origin : LineOrigin} {i row : Nat}
    (hrow : (numberLines h.newStart h.lines)[i]? = some (.line origin (some row))) :
    h.Covers row := by
  obtain ⟨⟨l, hl, -, hnew⟩, rfl⟩ := numberLines_eq_some_iff.mp hrow
  refine ⟨Nat.le_add_right _ _, ?_⟩
  obtain ⟨hlt, hget⟩ := List.getElem?_eq_some_iff.mp hl
  -- the line itself is counted in `newLines` and not among those before it
  have hsplit : h.lines = h.lines.take i ++ l :: h.lines.drop (i + 1) := by
    rw [← hget, List.getElem_cons_drop, List.take_append_drop]
  have hcount : h.newLines = h.lines.countP DiffLine.onNewSide :=
    List.countP_eq_length_filter.symm
  have hmore : h.newLines = (h.lines.take i).countP DiffLine.onNewSide
      + ((h.lines.drop (i + 1)).countP DiffLine.onNewSide + 1) := by
    rw [hcount, ← List.countP_cons_of_pos hnew, ← List.countP_append, ← hsplit]
  omega

/-- Every number of the range is given to a line. -/
theorem exists_numbered {row : Nat} :
    ∀ {ls : List DiffLine} {n : Nat}, n ≤ row → row < n + ls.countP DiffLine.onNewSide →
      ∃ (i : Nat) (origin : LineOrigin),
        (numberLines n ls)[i]? = some (.line origin (some row)) := by
  intro ls
  induction ls with
  | nil => intro n hle hlt; simp at hlt; omega
  | cons l ls ih =>
      intro n hle hlt
      cases hl : l.onNewSide with
      | true =>
          rw [List.countP_cons_of_pos hl] at hlt
          rw [numberLines, if_pos hl]
          by_cases hn : n = row
          · subst hn
            exact ⟨0, l.origin, rfl⟩
          · have hle' : n + 1 ≤ row := by omega
            obtain ⟨i, origin, hi⟩ := ih hle' (by omega)
            exact ⟨i + 1, origin, hi⟩
      | false =>
          have hneg : ¬ l.onNewSide = true := by simp [hl]
          rw [List.countP_cons_of_neg hneg] at hlt
          rw [numberLines, if_neg hneg]
          obtain ⟨i, origin, hi⟩ := ih hle hlt
          exact ⟨i + 1, origin, hi⟩

/-- The row a position designates is in the first hunk or in a later one. -/
theorem designates_cons {h : Hunk} {hs : List Hunk} {position row : Nat}
    (hpos : Designates (h :: hs) position row) :
    (∃ i origin, position = i + 1 ∧
        (numberLines h.newStart h.lines)[i]? = some (.line origin (some row))) ∨
      ∃ p, position = h.lines.length + 1 + p ∧ Designates hs p row := by
  obtain ⟨origin, hget⟩ := hpos
  rw [rowsOf_cons] at hget
  by_cases hlt : position < h.rows.length
  · rw [List.getElem?_append_left hlt] at hget
    cases position with
    | zero => simp [Hunk.rows] at hget
    | succ i => exact .inl ⟨i, origin, rfl, hget⟩
  · rw [Nat.not_lt] at hlt
    rw [List.getElem?_append_right hlt] at hget
    rw [Hunk.length_rows] at hlt hget
    exact .inr ⟨position - (h.lines.length + 1), by omega, origin, hget⟩

/-- No position designates a numbered row at a header. -/
theorem Designates.pos {hunks : List Hunk} {position row : Nat}
    (hpos : Designates hunks position row) : 0 < position := by
  cases hunks with
  | nil =>
      obtain ⟨origin, hget⟩ := hpos
      cases hget
  | cons h hs =>
      rcases designates_cons hpos with ⟨i, _, rfl, _⟩ | ⟨p, rfl, _⟩
      · omega
      · omega

/-- A row is shown exactly when some position designates it. -/
theorem shows_iff_designates {hunks : List Hunk} {row : Nat} :
    Shows hunks row ↔ ∃ position, Designates hunks position row := by
  induction hunks with
  | nil => simp [Shows, Designates, rowsOf]
  | cons h hs ih =>
      constructor
      · rintro ⟨k, hk, hcovers⟩
        rcases List.mem_cons.mp hk with rfl | hk
        · have hcount : k.newLines = k.lines.countP DiffLine.onNewSide :=
            List.countP_eq_length_filter.symm
          obtain ⟨i, origin, hi⟩ := exists_numbered hcovers.1 (hcount ▸ hcovers.2)
          have hlt : i + 1 < k.rows.length := by
            have := (List.getElem?_eq_some_iff.mp hi).1
            rw [length_numberLines] at this
            rw [Hunk.length_rows]
            omega
          refine ⟨i + 1, origin, ?_⟩
          rw [rowsOf_cons, List.getElem?_append_left hlt]
          exact hi
        · obtain ⟨p, origin, hp⟩ := ih.mp ⟨k, hk, hcovers⟩
          refine ⟨h.rows.length + p, origin, ?_⟩
          rw [rowsOf_cons, List.getElem?_append_right (by omega), Nat.add_sub_cancel_left]
          exact hp
      · rintro ⟨position, hpos⟩
        rcases designates_cons hpos with ⟨i, origin, _, hi⟩ | ⟨p, _, hp⟩
        · exact ⟨h, by simp, Hunk.covers_of_numbered hi⟩
        · obtain ⟨k, hk, hcovers⟩ := ih.mpr ⟨p, hp⟩
          exact ⟨k, by simp [hk], hcovers⟩

end CppLint.Git
