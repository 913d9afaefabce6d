/-
CppLint.ClangTidy.PositionTheorems — what the positions of review comments
designate.

The loop over hunks advances its offset by the lines of a hunk and not by
its header, and adds the distance of two line numbers and not of their rows.
So a position it computes is never below the row it is meant for
(`le_of_designates`), stays strictly above it in every hunk but the first
(`lt_of_designates_later`), and is at it only where nothing separates the
two countings (`positionsFrom_designate_iff`).
-/
import CppLint.ClangTidy.ReviewTheorems

namespace CppLint.ClangTidy

open CppLint.Lib CppLint.Git CppLint.Tool CppLint.Github

/-! ## Computed and true positions -/

/-- When the row is a line of a later hunk, the header of that hunk is not
counted: the position stays below the row. `off` is the number of rows above
the first of these hunks, and `hle` what holds of the later ones. -/
theorem lt_of_designates_later {h : Hunk} {hs : List Hunk} {pos off q p row : Nat}
    (hle : ∀ pos' off', pos' ≤ off' → q ∈ positionsFrom row pos' hs → q ≤ off' + p)
    (hoff : pos ≤ off) (hq : q ∈ positionsFrom row pos (h :: hs)) (hp : 0 < p) :
    q < off + (h.lines.length + 1 + p) := by
  have hnew : h.newLines ≤ h.lines.length := List.length_filter_le _ _
  rw [positionsFrom] at hq
  by_cases hin : isRowInHunk ⟨h.newStart, h.newLines⟩ row = true
  · -- the row is also just past the end of the first hunk
    have hrange := isRowInHunk_iff.mp hin
    rw [if_pos hin, List.mem_cons, sizeT_position hrange.1] at hq
    rcases hq with rfl | hq
    · have hwrap := sizeT_natCast_le (pos + (row - h.newStart) + 1)
      omega
    · have hrest := hle pos off hoff hq
      omega
  · rw [if_neg hin] at hq
    have hwrap := sizeT_natCast_le (pos + h.lines.length)
    have hrest := hle _ (off + h.lines.length) (Nat.le_trans hwrap (by omega)) hq
    omega

/-- Of the lines above the `i`-th, at most `i` are on the new side. -/
theorem countP_take_le (ls : List DiffLine) (i : Nat) :
    (ls.take i).countP DiffLine.onNewSide ≤ i :=
  Nat.le_trans List.countP_le_length (List.length_take_le _ _)

/-- The offset never counts more than the rows passed, and two line numbers
are never further apart than their rows: no position computed is below the
row. -/
theorem le_of_designates {row : Nat} :
    ∀ {hunks : List Hunk} {pos off q p : Nat}, Ordered hunks → pos ≤ off →
      q ∈ positionsFrom row pos hunks → Designates hunks p row → q ≤ off + p := by
  intro hunks
  induction hunks with
  | nil => intro pos off q p _ _ hq _; simp [positionsFrom] at hq
  | cons h hs ih =>
      intro pos off q p hord hoff hq hp
      rcases designates_cons hp with ⟨i, origin, rfl, hi⟩ | ⟨p', rfl, hp'⟩
      · obtain ⟨-, hrow⟩ := numberLines_eq_some_iff.mp hi
        have hcount := countP_take_le h.lines i
        rw [positionsFrom_of_covers hord (Hunk.covers_of_numbered hi), List.mem_singleton] at hq
        have hwrap := sizeT_natCast_le (pos + (row - h.newStart) + 1)
        omega
      · have htail : Ordered hs := (List.pairwise_cons.mp hord).2
        exact Nat.le_of_lt (lt_of_designates_later
          (fun pos' off' hoff' hq' => ih htail hoff' hq' hp') hoff hq hp'.pos)

/-! ## When a position designates its row -/

/-- The row is a line of the first hunk, and no deletion stands above it
there. -/
def InCleanPrefix : List Hunk → Nat → Prop
  | [], _ => False
  | h :: _, row =>
      h.Covers row ∧ ∀ l ∈ h.lines.take (row - h.newStart + 1), l.onNewSide = true

/-- With no deletion above it, the line stands as far down as its number is
past the first. -/
theorem designates_of_inCleanPrefix {h : Hunk} {hs : List Hunk} {row : Nat}
    (hclean : InCleanPrefix (h :: hs) row) :
    Designates (h :: hs) (row - h.newStart + 1) row := by
  obtain ⟨hcov, hall⟩ := hclean
  have hnew : h.newLines ≤ h.lines.length := List.length_filter_le _ _
  have hlt : row - h.newStart < h.lines.length := by
    have := hcov.1
    have := hcov.2
    omega
  have hline := List.getElem?_eq_getElem hlt
  have hmem : h.lines[row - h.newStart] ∈ h.lines.take (row - h.newStart + 1) :=
    List.mem_take_iff_getElem.mpr ⟨row - h.newStart, by omega, rfl⟩
  have hcount : (h.lines.take (row - h.newStart)).countP DiffLine.onNewSide
      = row - h.newStart := by
    have hsub : ∀ l ∈ h.lines.take (row - h.newStart), l.onNewSide = true :=
      fun l hl => hall l ((List.take_subset_take_left _ (Nat.le_succ _)) hl)
    rw [List.countP_eq_length.mpr hsub, List.length_take]
    omega
  have hrow : row = h.newStart + (h.lines.take (row - h.newStart)).countP DiffLine.onNewSide := by
    rw [hcount]
    have := hcov.1
    omega
  refine ⟨h.lines[row - h.newStart].origin, ?_⟩
  rw [rowsOf_cons, List.getElem?_append_left (by rw [Hunk.length_rows]; omega)]
  exact numberLines_eq_some_iff.mpr ⟨⟨_, hline, rfl, hall _ hmem⟩, hrow⟩

/-- A position computed designates its row only there. -/
theorem inCleanPrefix_of_designates {hunks : List Hunk} {q row : Nat} (hord : Ordered hunks)
    (hq : q ∈ positionsFrom row 0 hunks) (hdes : Designates hunks q row) :
    InCleanPrefix hunks row := by
  cases hunks with
  | nil => simp [positionsFrom] at hq
  | cons h hs =>
      rcases designates_cons hdes with ⟨i, origin, rfl, hi⟩ | ⟨p, hp, hp'⟩
      · have hcov := Hunk.covers_of_numbered hi
        obtain ⟨⟨l, hl, -, hnew⟩, hrow⟩ := numberLines_eq_some_iff.mp hi
        have hcount := countP_take_le h.lines i
        rw [positionsFrom_of_covers hord hcov, List.mem_singleton] at hq
        have hwrap := sizeT_natCast_le (0 + (row - h.newStart) + 1)
        -- `hq` and `hwrap` bound `i` by the new-side lines above it
        have hi' : row - h.newStart = i := by omega
        have hlt : i < h.lines.length := (List.getElem?_eq_some_iff.mp hl).1
        have hlen : (h.lines.take i).length = i := by
          rw [List.length_take]
          omega
        have habove : ∀ l ∈ h.lines.take i, l.onNewSide = true := by
          rw [← List.countP_eq_length, hlen]
          omega
        refine ⟨hcov, fun k hk => ?_⟩
        rw [hi', List.take_add_one, hl] at hk
        rcases List.mem_append.mp hk with hk | hk
        · exact habove k hk
        · rw [Option.toList_some, List.mem_singleton] at hk
          exact hk ▸ hnew
      · exfalso
        have htail : Ordered hs := (List.pairwise_cons.mp hord).2
        have hlt : q < 0 + (h.lines.length + 1 + p) := lt_of_designates_later
          (fun pos' off' hoff' hq' => le_of_designates htail hoff' hq' hp')
          (Nat.le_refl 0) hq hp'.pos
        omega

/-- Row by row: the positions computed for a shown row all designate it
exactly in the clean prefix. -/
theorem positionsFrom_designate_iff {hunks : List Hunk} {row : Nat} (hord : Ordered hunks)
    (hrow : row < 2 ^ 31) (hne : positionsFrom row 0 hunks ≠ []) :
    (∀ q ∈ positionsFrom row 0 hunks, Designates hunks q row) ↔ InCleanPrefix hunks row := by
  constructor
  · intro h
    obtain ⟨q, hq⟩ := List.exists_mem_of_ne_nil _ hne
    exact inCleanPrefix_of_designates hord hq (h q hq)
  · intro hclean q hq
    cases hunks with
    | nil => exact absurd hclean (by simp [InCleanPrefix])
    | cons h hs =>
        rw [positionsFrom_of_covers hord hclean.1, List.mem_singleton,
          sizeT_natCast_of_lt (by omega), Nat.zero_add] at hq
        exact hq ▸ designates_of_inCleanPrefix hclean

/-- **Where the comments on a shown row point.** A diagnostic on a line the
diff shows has comments, and they carry the position of that line exactly
when the line is in the first hunk with no deletion above it. -/
theorem position_designates_iff {ord : Enumeration String} {r : Reporter}
    {context : RuntimeContext} {comments : List ReviewComment}
    (hrun : r.makeReviewComment ord context = .ok comments)
    {file : String} {diag : Diagnostic} (hdiag : r.Reported file diag)
    {patch : Patch} (hpatch : context.patches.lookup file = some patch)
    (hord : Ordered patch.hunks)
    {row : Nat} (hrow : stoi diag.header.rowIdx = .ok (row : Int))
    (hshown : ∃ position, Designates patch.hunks position row) :
    ∃ own, visitDiagnostic file patch [] diag = .ok own ∧ own <:+: comments ∧ own ≠ [] ∧
      ((∀ c ∈ own, Designates patch.hunks c.position row) ↔ InCleanPrefix patch.hunks row) := by
  obtain ⟨groups, hall, rfl⟩ :=
    (Reporter.makeReviewComment_eq_ok_iff (Reporter.attached_of_ok hrun)).mp hrun
  obtain ⟨own, hmem, hown⟩ := exists_of_forall₂ hall
    (Reporter.mem_walked_iff.mpr hdiag)
  rw [commentsOn_eq hpatch] at hown
  have hne : positionsFrom row 0 patch.hunks ≠ [] :=
    positionsFrom_ne_nil (shows_iff_designates.mpr hshown)
  obtain ⟨-, hpositions⟩ := (visitDiagnostic_eq_ok_iff hrow).mp hown
  have hlt : row < 2 ^ 31 := by
    have := (stoi_bounds hrow).2
    omega
  refine ⟨own, hown, List.infix_of_mem_flatten hmem, by simpa [hpositions] using hne, ?_⟩
  rw [← positionsFrom_designate_iff hord hlt hne, hpositions]
  simp [commentAt]

/-! ## A line replaced -/

/-- The first line of a file is replaced. -/
def replacedLine : List Hunk := [⟨1, [⟨.deletion, "int n;\n"⟩, ⟨.addition, "int m;\n"⟩]⟩]

theorem position_designates_iff_replacedLine :
    ∃ own, visitDiagnostic "a.cpp" ⟨⟨.modified, "a.cpp"⟩, replacedLine⟩ [] (diagAt "1") = .ok own ∧
      own <:+: [commentAt "a.cpp" (diagAt "1") 1] ∧ own ≠ [] ∧
      ((∀ c ∈ own, Designates replacedLine c.position 1) ↔ InCleanPrefix replacedLine 1) :=
  position_designates_iff
    (show (reporterOf [diagAt "1"]).makeReviewComment (.stored String) (contextWith replacedLine)
      = .ok [commentAt "a.cpp" (diagAt "1") 1] from rfl)
    (reported_reporterOf_iff.mpr ⟨rfl, by simp⟩) rfl (by decide) rfl ⟨2, .addition, by decide⟩

/-- The comment on the replaced line is attached to the deleted one: the
line is two rows below the header, and the position given is 1. -/
theorem position_misses_replacedLine :
    (reporterOf [diagAt "1"]).makeReviewComment (.stored String) (contextWith replacedLine)
        = .ok [commentAt "a.cpp" (diagAt "1") 1]
      ∧ Ordered replacedLine ∧ Designates replacedLine 2 1 ∧ ¬ Designates replacedLine 1 1 := by
  refine ⟨rfl, by decide, ⟨.addition, by decide⟩, fun h => ?_⟩
  obtain ⟨origin, hrow⟩ := h
  cases origin <;> exact absurd hrow (by decide)

end CppLint.ClangTidy
