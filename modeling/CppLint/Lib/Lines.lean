/-
CppLint.Lib.Lines — rows and columns of the offsets in a text.

A text is a list, and one of its elements, `d`, ends a line. An offset has a
row, one more than the delimiters in front of it, and a column, counted from
the last of them. It is on a line of the text unless the text stops before
it, which the offset right behind a final delimiter is too (`OnLine`).

The texts are built from the back: nothing, a last line without delimiter,
or a line with its delimiter in front of a text (`lines_induction`). Each
definition has one lemma for an offset on the first line and one for an
offset behind it, and `lines` cuts the text the same way, so an algorithm
that goes through the lines is followed line by line.
-/
import Mathlib.Algebra.GroupWithZero.Nat
import Mathlib.Data.List.TakeWhile

namespace CppLint.Lib

variable {α : Type} [DecidableEq α] {d : α}

/-- The lines of a text; a final delimiter is followed by no further line. -/
def lines (d : α) (s : List α) : List (List α) :=
  let fields := s.splitOn d
  if fields.getLast? = some [] then fields.dropLast else fields

/-- The row of an offset, from 1. -/
def rowAt (d : α) (s : List α) (o : Nat) : Nat := (s.take o).count d + 1

/-- The column of an offset, from 1. -/
def colAt (d : α) (s : List α) (o : Nat) : Nat :=
  ((s.take o).reverse.takeWhile (· ≠ d)).length + 1

/-- Where the line of an offset ends. -/
def lineEnd (d : α) (s : List α) (o : Nat) : Nat := o + ((s.drop o).takeWhile (· ≠ d)).length

/-- The offset is that of an element, or of the end of a last line that has
no delimiter. -/
def OnLine (d : α) (s : List α) (o : Nat) : Prop :=
  o < s.length ∨ o = s.length ∧ ∃ c ∈ s.getLast?, c ≠ d

instance (s : List α) (o : Nat) : Decidable (OnLine d s o) :=
  inferInstanceAs (Decidable (_ ∨ _))

/-! ## The lines -/

/-- A text ends, or goes on behind a first delimiter. -/
theorem lines_induction {P : List α → Prop} (nil : P [])
    (last : ∀ l, l ≠ [] → d ∉ l → P l) (line : ∀ l t, d ∉ l → P t → P (l ++ d :: t)) :
    ∀ s, P s := by
  intro s
  induction hn : s.length using Nat.strong_induction_on generalizing s with
  | _ n ih =>
    by_cases hd : d ∈ s
    · obtain ⟨l, t, rfl, hl⟩ := List.eq_append_cons_of_mem hd
      have hlt : t.length < n := by
        rw [← hn, List.length_append, List.length_cons]
        omega
      exact line l t hl (ih t.length hlt t rfl)
    · by_cases hs : s = []
      · exact hs ▸ nil
      · exact last s hs hd

@[simp] theorem lines_nil : lines d [] = [] := by
  simp [lines]

theorem lines_last {l : List α} (hne : l ≠ []) (hl : d ∉ l) : lines d l = [l] := by
  simp [lines, List.splitOn_eq_singleton hl, hne]

theorem lines_line {l : List α} (hl : d ∉ l) (t : List α) :
    lines d (l ++ d :: t) = l :: lines d t := by
  have hne := List.splitOn_ne_nil d t
  simp only [lines, List.splitOn_append_cons_self_of_not_mem hl, List.getLast?_cons_of_ne_nil hne,
    List.dropLast_cons_of_ne_nil hne]
  split <;> rfl

/-! ## Offsets on the first line -/

theorem rowAt_first {l : List α} (hl : d ∉ l) {o : Nat} (ho : o ≤ l.length) (t : List α) :
    rowAt d (l ++ t) o = 1 := by
  have hcount : (l.take o).count d = 0 :=
    List.count_eq_zero.mpr fun hmem => hl (List.mem_of_mem_take hmem)
  simp [rowAt, List.take_append_of_le_length ho, hcount]

theorem takeWhile_of_not_mem {l : List α} (hl : d ∉ l) : l.takeWhile (· ≠ d) = l := by
  rw [List.takeWhile_eq_self_iff]
  intro c hc
  simpa using fun heq : c = d => hl (heq ▸ hc)

theorem colAt_first {l : List α} (hl : d ∉ l) {o : Nat} (ho : o ≤ l.length) (t : List α) :
    colAt d (l ++ t) o = o + 1 := by
  have htake : d ∉ (l.take o).reverse := by
    simpa using fun hmem => hl (List.mem_of_mem_take hmem)
  rw [colAt, List.take_append_of_le_length ho, takeWhile_of_not_mem htake]
  simp [ho]

theorem lineEnd_last {l : List α} (hl : d ∉ l) {o : Nat} (ho : o ≤ l.length) :
    lineEnd d l o = l.length := by
  have hdrop : d ∉ l.drop o := fun hmem => hl (List.mem_of_mem_drop hmem)
  rw [lineEnd, takeWhile_of_not_mem hdrop, List.length_drop]
  omega

theorem lineEnd_first {l : List α} (hl : d ∉ l) {o : Nat} (ho : o ≤ l.length) (t : List α) :
    lineEnd d (l ++ d :: t) o = l.length := by
  have hdrop : d ∉ l.drop o := fun hmem => hl (List.mem_of_mem_drop hmem)
  have hall : ∀ c ∈ l.drop o, decide (c ≠ d) = true :=
    List.takeWhile_eq_self_iff.mp (takeWhile_of_not_mem hdrop)
  rw [lineEnd, List.drop_append_of_le_length ho, List.takeWhile_append_of_pos hall]
  simp
  omega

omit [DecidableEq α] in
theorem onLine_last {l : List α} (hne : l ≠ []) (hl : d ∉ l) {o : Nat} :
    OnLine d l o ↔ o ≤ l.length := by
  have hlast : ∃ c ∈ l.getLast?, c ≠ d := by
    refine ⟨l.getLast hne, List.getLast?_eq_some_getLast hne, ?_⟩
    intro heq
    exact hl (heq ▸ List.getLast_mem hne)
  simp only [OnLine, hlast, and_true]
  omega

omit [DecidableEq α] in
theorem onLine_first {l : List α} {o : Nat} (ho : o ≤ l.length) (t : List α) :
    OnLine d (l ++ d :: t) o := by
  left
  simp
  omega

/-! ## Offsets behind it -/

omit [DecidableEq α] in
theorem take_behind (l t : List α) (o : Nat) :
    (l ++ d :: t).take (l.length + 1 + o) = l ++ d :: t.take o := by
  simpa using @List.take_length_add_append _ (l ++ [d]) t o

omit [DecidableEq α] in
theorem drop_behind (l t : List α) (o : Nat) :
    (l ++ d :: t).drop (l.length + 1 + o) = t.drop o := by
  simpa using @List.drop_length_add_append _ (l ++ [d]) t o

theorem rowAt_behind {l : List α} (hl : d ∉ l) (t : List α) (o : Nat) :
    rowAt d (l ++ d :: t) (l.length + 1 + o) = rowAt d t o + 1 := by
  simp [rowAt, take_behind, List.count_eq_zero.mpr hl]

theorem colAt_behind (l t : List α) (o : Nat) :
    colAt d (l ++ d :: t) (l.length + 1 + o) = colAt d t o := by
  rw [colAt, take_behind, List.reverse_append, List.reverse_cons, List.append_assoc,
    List.takeWhile_append]
  split
  · rename_i hall
    rw [colAt, hall]
    simp
  · rfl

theorem lineEnd_behind (l t : List α) (o : Nat) :
    lineEnd d (l ++ d :: t) (l.length + 1 + o) = l.length + 1 + lineEnd d t o := by
  rw [lineEnd, drop_behind, lineEnd]
  omega

omit [DecidableEq α] in
theorem onLine_behind (l t : List α) (o : Nat) :
    OnLine d (l ++ d :: t) (l.length + 1 + o) ↔ OnLine d t o := by
  cases t with
  | nil =>
      have hlen : ¬ l.length + 1 + o < l.length + 1 := by omega
      simp only [OnLine, List.length_append, List.length_singleton, hlen, false_or,
        List.getLast?_concat]
      simp
  | cons c t =>
      have hlast : (l ++ d :: c :: t).getLast? = (c :: t).getLast? := by
        simp [List.getLast?_cons]
      unfold OnLine
      rw [hlast, List.length_append, List.length_cons]
      exact or_congr (by omega) (and_congr_left' (by omega))

/-! ## Bounds -/

omit [DecidableEq α] in
theorem OnLine.le_length {s : List α} {o : Nat} (h : OnLine d s o) : o ≤ s.length := by
  unfold OnLine at h
  omega

theorem colAt_le (s : List α) (o : Nat) : colAt d s o ≤ o + 1 := by
  have hle := (List.takeWhile_sublist (l := (s.take o).reverse) (· ≠ d)).length_le
  rw [List.length_reverse, List.length_take] at hle
  unfold colAt
  omega

/-- A delimiter in front of the offset is not counted. -/
theorem colAt_le_of_mem {s : List α} {o : Nat} (h : d ∈ s.take o) : colAt d s o ≤ o := by
  by_contra hgt
  have hle := List.takeWhile_sublist (l := (s.take o).reverse) (· ≠ d)
  have hlength : (s.take o).reverse.length ≤ ((s.take o).reverse.takeWhile (· ≠ d)).length := by
    rw [List.length_reverse, List.length_take]
    unfold colAt at hgt
    omega
  have hall := List.takeWhile_eq_self_iff.mp (hle.eq_of_length_le hlength)
  simpa using hall d (by simpa using h)

/-- There are no more delimiters in front of an offset than elements, or than
in the whole text. -/
theorem rowAt_bounds (s : List α) (o : Nat) :
    1 ≤ rowAt d s o ∧ rowAt d s o ≤ o + 1 ∧ rowAt d s o ≤ s.count d + 1 := by
  have hcount : (s.take o).count d ≤ (s.take o).length := List.count_le_length
  have hwhole : (s.take o).count d ≤ s.count d := (List.take_sublist o s).count_le d
  rw [List.length_take] at hcount
  unfold rowAt
  omega

theorem le_lineEnd (s : List α) (o : Nat) : o ≤ lineEnd d s o := Nat.le_add_right ..

theorem lineEnd_le {s : List α} {o : Nat} (ho : o ≤ s.length) : lineEnd d s o ≤ s.length := by
  have hle := (List.takeWhile_sublist (l := s.drop o) (· ≠ d)).length_le
  rw [List.length_drop] at hle
  unfold lineEnd
  omega

/-- There are no more lines than elements. -/
theorem rowAt_le {s : List α} {o : Nat} (h : OnLine d s o) : rowAt d s o ≤ s.length := by
  induction s using lines_induction (d := d) generalizing o with
  | nil => simp [OnLine] at h
  | last l hne hl =>
      have hrow := rowAt_first hl ((onLine_last hne hl).mp h) []
      rw [List.append_nil] at hrow
      rw [hrow]
      exact List.length_pos_iff.mpr hne
  | line l t hl ih =>
      rw [List.length_append, List.length_cons]
      by_cases ho : o ≤ l.length
      · rw [rowAt_first hl ho]
        omega
      · obtain ⟨k, rfl⟩ : ∃ k, o = l.length + 1 + k := ⟨o - (l.length + 1), by omega⟩
        have hrow := ih ((onLine_behind l t k).mp h)
        rw [rowAt_behind hl]
        omega

theorem length_le_of_mem_lines {s l : List α} (h : l ∈ lines d s) : l.length ≤ s.length := by
  induction s using lines_induction (d := d) with
  | nil => simp at h
  | last l' hne hl =>
      rw [lines_last hne hl, List.mem_singleton] at h
      rw [h]
  | line l' t hl ih =>
      rw [List.length_append, List.length_cons]
      rw [lines_line hl, List.mem_cons] at h
      rcases h with rfl | h
      · omega
      · have hle := ih h
        omega

/-- An offset is found again from its row and its column. -/
theorem offset_eq {s : List α} {o : Nat} (h : OnLine d s o) :
    o + 1 = (((lines d s).take (rowAt d s o - 1)).map (·.length + 1)).sum + colAt d s o := by
  induction s using lines_induction (d := d) generalizing o with
  | nil => simp [OnLine] at h
  | last l hne hl =>
      have ho := (onLine_last hne hl).mp h
      have hrow := rowAt_first hl ho []
      have hcol := colAt_first hl ho []
      rw [List.append_nil] at hrow hcol
      simp [hrow, hcol]
  | line l t hl ih =>
      by_cases ho : o ≤ l.length
      · simp [rowAt_first hl ho, colAt_first hl ho]
      · obtain ⟨k, rfl⟩ : ∃ k, o = l.length + 1 + k := ⟨o - (l.length + 1), by omega⟩
        have hk := ih ((onLine_behind l t k).mp h)
        have hrow : rowAt d t k = rowAt d t k - 1 + 1 := by simp [rowAt]
        rw [rowAt_behind hl, colAt_behind, lines_line hl, Nat.add_sub_cancel, hrow,
          List.take_succ_cons, List.map_cons, List.sum_cons]
        omega

end CppLint.Lib
