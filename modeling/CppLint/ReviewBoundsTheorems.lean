/-
CppLint.ReviewBoundsTheorems — which reviews stay inside the diff.

GitHub counts the rows of a file's diff from the first `@@` header, and
takes a comment at a position that is one of them. `review_inDiff_iff` says
exactly when all comments of a review are: unless a diagnostic is on the row
just past the end of the only hunk of its file, and that hunk deletes
nothing. `is_row_in_hunk` counts that row in, and only there is no row left
to hold the comment.

A position is computed in some hunk, from the lines of the hunks passed
before it and the distance of the row from the first of the hunk
(`mem_positionsFrom_cons`). The lines passed leave out a header for every
hunk, so in a later hunk, or with a later hunk to come, the position is at
a row (`positionsFrom_le`, `position_lt_of_not_past`); a deletion leaves one
over as well.
-/
import CppLint.ClangTidy.ReviewTheorems
import CppLint.ReportTheorems

namespace CppLint

open CppLint.Lib CppLint.Git CppLint.Tool CppLint.Github

namespace ClangTidy

/-! ## The bounds of a position -/

/-- A position of a list of hunks is computed in the first one or in a later
one, with no more lines passed than that one has. -/
theorem mem_positionsFrom_cons {row : Int} {h : Hunk} {hs : List Hunk} {pos q : Nat}
    (hq : q ∈ positionsFrom row pos (h :: hs)) :
    (∃ d, d ≤ h.newLines ∧ row = (h.newStart + d : Nat) ∧ q = sizeT (pos + d + 1 : Nat)) ∨
      ∃ pos', pos' ≤ pos + h.lines.length ∧ q ∈ positionsFrom row pos' hs := by
  rw [positionsFrom] at hq
  split at hq
  case isTrue hin =>
    rcases List.mem_cons.mp hq with rfl | hq
    · simp only [isRowInHunk, Bool.and_eq_true, decide_eq_true_eq] at hin
      refine .inl ⟨(row - h.newStart).toNat, by omega, by omega, ?_⟩
      congr 1
      omega
    · exact .inr ⟨pos, Nat.le_add_right _ _, hq⟩
  case isFalse => exact .inr ⟨_, sizeT_natCast_le _, hq⟩

theorem newLines_le (h : Hunk) : h.newLines ≤ h.lines.length := List.length_filter_le _ _

/-- A hunk has as many rows as lines, and its header. -/
theorem length_rowsOf_cons (h : Hunk) (hs : List Hunk) :
    (rowsOf (h :: hs)).length = h.lines.length + 1 + (rowsOf hs).length := by
  rw [rowsOf_cons, List.length_append, Hunk.length_rows]

/-- No position is more than one past the rows. -/
theorem positionsFrom_le {row : Int} :
    ∀ {hunks : List Hunk} {pos q : Nat}, q ∈ positionsFrom row pos hunks →
      q ≤ pos + (rowsOf hunks).length
  | [], _, _, hq => nomatch hq
  | h :: hs, pos, q, hq => by
      rw [length_rowsOf_cons]
      rcases mem_positionsFrom_cons hq with ⟨d, hd, -, rfl⟩ | ⟨pos', hpos', hq⟩
      · have hwrap := sizeT_natCast_le (pos + d + 1)
        have hnew := newLines_le h
        omega
      · have hrest := positionsFrom_le hq
        omega

/-- As long as the rows can be counted, no position is at the header of the
first hunk or above. -/
theorem positionsFrom_pos {row : Int} :
    ∀ {hunks : List Hunk} {pos q : Nat}, pos + (rowsOf hunks).length < 2 ^ 64 →
      q ∈ positionsFrom row pos hunks → 0 < q
  | [], _, _, _, hq => nomatch hq
  | h :: hs, pos, q, hcounted, hq => by
      rw [length_rowsOf_cons] at hcounted
      rcases mem_positionsFrom_cons hq with ⟨d, hd, -, rfl⟩ | ⟨pos', hpos', hq⟩
      · have hnew := newLines_le h
        rw [sizeT_natCast_of_lt (by omega)]
        exact Nat.succ_pos _
      · exact positionsFrom_pos (by omega) hq

/-- The row is just past the end of the only hunk, which has no deletion. -/
def PastOnlyHunk (hunks : List Hunk) (row : Int) : Prop :=
  ∃ h, hunks = [h] ∧ (∀ l ∈ h.lines, l.onNewSide = true) ∧ row = (h.newStart + h.newLines : Nat)

theorem newLines_eq_iff {h : Hunk} :
    h.newLines = h.lines.length ↔ ∀ l ∈ h.lines, l.onNewSide = true :=
  List.length_filter_eq_length_iff

/-- A position is at a row of the diff, but for that one. -/
theorem position_lt_of_not_past {row : Int} {hunks : List Hunk} {q : Nat}
    (hq : q ∈ positionsFrom row 0 hunks) (hpast : ¬ PastOnlyHunk hunks row) :
    q < (rowsOf hunks).length := by
  cases hunks with
  | nil => cases hq
  | cons h hs =>
      rw [length_rowsOf_cons]
      rcases mem_positionsFrom_cons hq with ⟨d, hd, hrow, rfl⟩ | ⟨pos', hpos', hq⟩
      · have hwrap := sizeT_natCast_le (0 + d + 1)
        have hnew := newLines_le h
        by_contra hge
        have hnone : hs = [] := by
          cases hs with
          | nil => rfl
          | cons k ks =>
              rw [length_rowsOf_cons] at hge
              omega
        refine hpast ⟨h, by rw [hnone], newLines_eq_iff.mp (by omega), ?_⟩
        rw [hrow]
        congr 1
        omega
      · have hrest := positionsFrom_le hq
        omega

/-- There the position is one too many. -/
theorem positionsFrom_of_past {row : Int} {hunks : List Hunk} (hpast : PastOnlyHunk hunks row)
    (hcounted : (rowsOf hunks).length < 2 ^ 64) :
    positionsFrom row 0 hunks = [(rowsOf hunks).length] := by
  obtain ⟨h, rfl, hall, rfl⟩ := hpast
  have hlines := newLines_eq_iff.mpr hall
  rw [length_rowsOf_cons] at hcounted
  have hin : isRowInHunk ⟨h.newStart, h.newLines⟩ ((h.newStart + h.newLines : Nat) : Int) = true :=
    isRowInHunk_iff.mpr ⟨Nat.le_add_right _ _, Nat.le_refl _⟩
  rw [positionsFrom, if_pos hin, sizeT_position (Nat.le_add_right _ _),
    sizeT_natCast_of_lt (by omega), length_rowsOf_cons, positionsFrom]
  congr 1
  rw [show (rowsOf []).length = 0 from rfl]
  omega

/-- The comments on a diagnostic, once they are made. -/
theorem commentsOn_eq_ok {context : RuntimeContext} {file : String} {diag : Diagnostic}
    {own : List ReviewComment} (h : commentsOn context (file, diag) = .ok own) :
    ∃ patch row, context.patches.lookup file = some patch ∧
      stoi diag.header.rowIdx = .ok row ∧
        own = (positionsFrom row 0 patch.hunks).map (commentAt file diag) := by
  obtain ⟨patch, hpatch, h⟩ := bind_eq_ok.mp h
  obtain ⟨row, hrow, h⟩ := bind_eq_ok.mp h
  obtain ⟨col, -, h⟩ := bind_eq_ok.mp h
  cases h
  exact ⟨patch, row, mapAt_eq_ok.mp hpatch, hrow, rfl⟩

end ClangTidy

/-! ## The comments of a review -/

/-- The comment is at a row of the diff of its file. -/
def InDiff (context : RuntimeContext) (c : ReviewComment) : Prop :=
  ∃ patch, context.patches.lookup c.path = some patch ∧ 0 < c.position ∧
    c.position < (rowsOf patch.hunks).length

/-- The diagnostic is on the row past the only hunk of its file. -/
def PastDiff (context : RuntimeContext) (file : String) (diag : ClangTidy.Diagnostic) : Prop :=
  ∃ patch row, context.patches.lookup file = some patch ∧ stoi diag.header.rowIdx = .ok row ∧
    ClangTidy.PastOnlyHunk patch.hunks row

section Review

variable {ord : Enumeration String} {context : RuntimeContext} {reporters : List ReporterBase}
  {comments : List ReviewComment}

theorem reviewComments_eq :
    reviewComments ord context reporters =
      (reporters.mapM (ReporterBase.makeReviewComment ord context)).map List.flatten := by
  unfold reviewComments
  rw [foldlM_append (g := ReporterBase.makeReviewComment ord context)]
  · rfl
  · intro comments reporter
    cases reporter.makeReviewComment ord context <;> rfl

/-- The comments of clang-tidy are those on the diagnostics of its failed
files. -/
theorem ClangTidy.mem_makeReviewComment_iff {r : ClangTidy.Reporter}
    (hcomments : r.makeReviewComment ord context = .ok comments) {c : ReviewComment} :
    c ∈ comments ↔ ∃ file diag, r.Reported file diag ∧
      ∃ own, ClangTidy.commentsOn context (file, diag) = .ok own ∧ c ∈ own := by
  have hattached := ClangTidy.Reporter.attached_of_ok hcomments
  obtain ⟨groups, hgroups, rfl⟩ :=
    (ClangTidy.Reporter.makeReviewComment_eq_ok_iff hattached).mp hcomments
  rw [mem_flatten_iff hgroups, Prod.exists]
  simp only [ClangTidy.Reporter.mem_walked_iff]

/-- The comments of a review are those of its clang-tidy reporters. -/
theorem mem_reviewComments_iff (hcomments : reviewComments ord context reporters = .ok comments)
    {c : ReviewComment} :
    c ∈ comments ↔ ∃ r, ReporterBase.clangTidy r ∈ reporters ∧
      ∃ own, r.makeReviewComment ord context = .ok own ∧ c ∈ own := by
  rw [reviewComments_eq, map_eq_ok] at hcomments
  obtain ⟨groups, hgroups, rfl⟩ := hcomments
  rw [mem_flatten_iff (mapM_eq_ok_iff.mp hgroups)]
  constructor
  · rintro ⟨reporter, hreporter, own, hown, hc⟩
    cases reporter with
    | clangTidy r => exact ⟨r, hreporter, own, hown, hc⟩
    | clangFormat r =>
        cases hown
        cases hc
  · rintro ⟨r, hreporter, own, hown, hc⟩
    exact ⟨_, hreporter, own, hown, hc⟩

/-- A review is made only if there are comments on every diagnostic. -/
theorem exists_commentsOn (hcomments : reviewComments ord context reporters = .ok comments)
    {r : ClangTidy.Reporter} (hr : ReporterBase.clangTidy r ∈ reporters) {file : String}
    {diag : ClangTidy.Diagnostic} (hdiag : r.Reported file diag) :
    ∃ own, ClangTidy.commentsOn context (file, diag) = .ok own ∧ ∀ c ∈ own, c ∈ comments := by
  have hcomments' := hcomments
  rw [reviewComments_eq, map_eq_ok] at hcomments'
  obtain ⟨groups, hgroups, -⟩ := hcomments'
  obtain ⟨ownTool, -, htool⟩ := exists_of_forall₂ (mapM_eq_ok_iff.mp hgroups) hr
  obtain ⟨groups', hgroups', -⟩ := (ClangTidy.Reporter.makeReviewComment_eq_ok_iff
    (ClangTidy.Reporter.attached_of_ok htool)).mp htool
  obtain ⟨own, -, hown⟩ := exists_of_forall₂ hgroups' (ClangTidy.Reporter.mem_walked_iff.mpr hdiag)
  refine ⟨own, hown, fun c hc => (mem_reviewComments_iff hcomments).mpr ⟨r, hr, ownTool, htool, ?_⟩⟩
  exact (ClangTidy.mem_makeReviewComment_iff htool).mpr ⟨file, diag, hdiag, own, hown, hc⟩

end Review

/-- **A review is inside the diff** if and only if no diagnostic is on the
row past the only hunk of its file, where that hunk deletes nothing. For
every list of reporters, every order the maps are walked in and every diff
whose rows a `std::size_t` can count. -/
theorem review_inDiff_iff (ord : Enumeration String) {context : RuntimeContext}
    {reporters : List ReporterBase} {comments : List ReviewComment}
    (hcounted : ∀ file patch, context.patches.lookup file = some patch →
      (rowsOf patch.hunks).length < 2 ^ 64)
    (hcomments : reviewComments ord context reporters = .ok comments) :
    (∀ c ∈ comments, InDiff context c) ↔
      ∀ r, ReporterBase.clangTidy r ∈ reporters →
        ∀ file diag, r.Reported file diag → ¬ PastDiff context file diag := by
  constructor
  · rintro hin r hr file diag hdiag ⟨patch, row, hpatch, hrow, hpast⟩
    obtain ⟨own, hown, hall⟩ := exists_commentsOn hcomments hr hdiag
    obtain ⟨patch', row', hpatch', hrow', rfl⟩ := ClangTidy.commentsOn_eq_ok hown
    cases hpatch.symm.trans hpatch'
    cases hrow.symm.trans hrow'
    rw [ClangTidy.positionsFrom_of_past hpast (hcounted file patch hpatch)] at hall
    obtain ⟨patch', hpatch', -, hlt⟩ := hin _ (hall _ List.mem_cons_self)
    cases hpatch.symm.trans hpatch'
    exact Nat.lt_irrefl _ hlt
  · intro hnone c hc
    obtain ⟨r, hr, ownTool, htool, hc⟩ := (mem_reviewComments_iff hcomments).mp hc
    obtain ⟨file, diag, hdiag, own, hown, hc⟩ := (ClangTidy.mem_makeReviewComment_iff htool).mp hc
    obtain ⟨patch, row, hpatch, hrow, rfl⟩ := ClangTidy.commentsOn_eq_ok hown
    obtain ⟨q, hq, rfl⟩ := List.mem_map.mp hc
    have hpast : ¬ ClangTidy.PastOnlyHunk patch.hunks row :=
      fun hpast => hnone r hr file diag hdiag ⟨patch, row, hpatch, hrow, hpast⟩
    refine ⟨patch, hpatch, ?_, ClangTidy.position_lt_of_not_past hq hpast⟩
    exact ClangTidy.positionsFrom_pos (by simpa using hcounted file patch hpatch) hq

/-- The line below the only one of the diff. -/
theorem review_inDiff_iff_oneLine :
    (∀ c ∈ [ClangTidy.commentAt "a.cpp" (ClangTidy.diagAt "2") 2],
      InDiff (ClangTidy.contextWith ClangTidy.oneLine) c) ↔
      ∀ r, ReporterBase.clangTidy r ∈
          [ReporterBase.clangTidy (ClangTidy.reporterOf [ClangTidy.diagAt "2"])] →
        ∀ file diag, r.Reported file diag →
          ¬ PastDiff (ClangTidy.contextWith ClangTidy.oneLine) file diag := by
  refine review_inDiff_iff (.stored String) (fun file patch hpatch => ?_) rfl
  obtain ⟨-, rfl⟩ := ClangTidy.lookup_contextWith.mp hpatch
  decide

end CppLint
