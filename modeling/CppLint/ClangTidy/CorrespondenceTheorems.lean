/-
CppLint.ClangTidy.CorrespondenceTheorems — which diagnostics get a comment.

A diagnostic should get one comment when the diff shows its line and none
otherwise. The range test of the loop includes one row too many: the row
just below the last line of a hunk. Over hunks that do not touch, the number
of comments is the right one for every other row
(`length_positionsFrom_iff`), and then the comments of the run correspond,
one to one and in order, to the diagnostics on lines the diff shows
(`oneToOne_iff`).
-/
import CppLint.ClangTidy.ReviewTheorems

namespace CppLint.ClangTidy

open CppLint.Lib CppLint.Git CppLint.Tool CppLint.Github

/-! ## The number of comments for a row -/

/-- The row is not the one just below the last line of a hunk. -/
def ClearOfEnds (hunks : List Hunk) (row : Nat) : Prop :=
  ∀ h ∈ hunks, row ≠ h.newStart + h.newLines

/-- Hunks that begin below the row do not show it. -/
theorem not_shows_of_below {hunks : List Hunk} {row : Nat}
    (hbelow : ∀ h ∈ hunks, row < h.newStart) : ¬ Shows hunks row := by
  intro hshows
  obtain ⟨h, hh, hcov⟩ := hshows
  exact absurd hcov.1 (Nat.not_le_of_lt (hbelow h hh))

/-- Nor do they end just above it. -/
theorem clearOfEnds_of_below {hunks : List Hunk} {row : Nat}
    (hbelow : ∀ h ∈ hunks, row < h.newStart) : ClearOfEnds hunks row := by
  intro h hh
  have hlt := hbelow h hh
  omega

/-- A row has one position if it is shown and none if it is not, exactly
when it is not just below a hunk. -/
theorem length_positionsFrom_iff {row : Nat} :
    ∀ {hunks : List Hunk} {pos : Nat}, Separated hunks →
      ((positionsFrom row pos hunks).length = (if Shows hunks row then 1 else 0) ↔
        ClearOfEnds hunks row) := by
  intro hunks
  induction hunks with
  | nil => intro pos _; simp [positionsFrom, Shows, ClearOfEnds]
  | cons h hs ih =>
      intro pos hsep
      have hafter := (List.pairwise_cons.mp hsep).1
      have hclear : ClearOfEnds (h :: hs) row ↔
          row ≠ h.newStart + h.newLines ∧ ClearOfEnds hs row := List.forall_mem_cons
      have hshows : Shows (h :: hs) row ↔ h.Covers row ∨ Shows hs row := List.exists_mem_cons_iff ..
      by_cases hin : isRowInHunk ⟨h.newStart, h.newLines⟩ row = true
      · obtain ⟨hlow, hhigh⟩ := isRowInHunk_iff.mp hin
        -- every later hunk begins below the row
        have hbelow : ∀ k ∈ hs, row < k.newStart := fun k hk => by
          have := hafter k hk
          omega
        have hnil : positionsFrom row pos hs = [] := positionsFrom_eq_nil hbelow
        have hlater := not_shows_of_below hbelow
        have hrest := clearOfEnds_of_below hbelow
        rw [positionsFrom, if_pos hin, hnil, hclear, List.length_singleton]
        by_cases hcov : h.Covers row
        · have hne : row ≠ h.newStart + h.newLines := Nat.ne_of_lt hcov.2
          simp [hshows, hcov, hne, hrest]
        · have heq : row = h.newStart + h.newLines := by
            unfold Hunk.Covers at hcov
            omega
          have hnot : ¬ Shows (h :: hs) row := by
            rw [hshows]
            exact fun hor => hor.elim hcov hlater
          rw [if_neg hnot]
          exact ⟨fun hone => absurd hone Nat.one_ne_zero, fun hne => absurd heq hne.1⟩
      · have hout : ¬ h.Covers row := by
          intro hcov
          exact hin (isRowInHunk_iff.mpr ⟨hcov.1, Nat.le_of_lt hcov.2⟩)
        have hne : row ≠ h.newStart + h.newLines := by
          intro heq
          exact hin (isRowInHunk_iff.mpr ⟨by omega, by omega⟩)
        have hrest := @ih (sizeT (pos + h.lines.length)) (List.pairwise_cons.mp hsep).2
        rw [positionsFrom, if_neg hin, hclear, ← hrest]
        simp [hshows, hout, hne]

/-! ## The correspondence -/

/-- The diagnostic is on a line the diff of its file shows. -/
def onShownLine (context : RuntimeContext) (p : String × Diagnostic) : Bool :=
  match context.patches.lookup p.1, stoi p.2.header.rowIdx with
  | some patch, .ok row => 0 ≤ row && Shows patch.hunks row.toNat
  | _, _ => false

theorem onShownLine_eq {context : RuntimeContext} {file : String} {diag : Diagnostic}
    {patch : Patch} {row : Nat} (hpatch : context.patches.lookup file = some patch)
    (hrow : stoi diag.header.rowIdx = .ok (row : Int)) :
    onShownLine context (file, diag) = decide (Shows patch.hunks row) := by
  simp [onShownLine, hpatch, hrow]

/-- The comments of a run correspond to the diagnostics it walks: each has
one comment if it is on a shown line and none otherwise, and the comments
are those on the diagnostics on shown lines, in their order. -/
structure OneToOne (context : RuntimeContext) (diags : List (String × Diagnostic))
    (comments : List ReviewComment) : Prop where
  perDiagnostic : ∃ groups, groups.flatten = comments ∧
    List.Forall₂ (fun p own => commentsOn context p = .ok own ∧
      own.length = if onShownLine context p then 1 else 0) diags groups
  inOrder : List.Forall₂ (fun p c => ∃ position, c = commentAt p.1 p.2 position)
    (diags.filter (onShownLine context)) comments

/-- Groups of the right sizes, flattened, are one comment for each
diagnostic counted. -/
theorem forall₂_filter_flatten {shown : String × Diagnostic → Bool}
    {diags : List (String × Diagnostic)} {groups : List (List ReviewComment)}
    (h : List.Forall₂ (fun p own => own.length = (if shown p then 1 else 0) ∧
      ∃ positions : List Nat, own = positions.map (commentAt p.1 p.2)) diags groups) :
    List.Forall₂ (fun p c => ∃ position, c = commentAt p.1 p.2 position)
      (diags.filter shown) groups.flatten := by
  induction h with
  | nil => exact .nil
  | @cons p own diags groups hp _ ih =>
      obtain ⟨hlen, positions, rfl⟩ := hp
      rw [List.length_map] at hlen
      rw [List.filter_cons, List.flatten_cons]
      cases hs : shown p with
      | true =>
          rw [hs, if_pos rfl, List.length_eq_one_iff] at hlen
          obtain ⟨position, rfl⟩ := hlen
          exact .cons ⟨position, rfl⟩ ih
      | false =>
          have hnil : positions = [] := List.length_eq_zero_iff.mp (by simpa [hs] using hlen)
          subst hnil
          exact ih

/-- **One comment for each shown diagnostic.** For patches whose hunks do
not touch and diagnostics whose rows are numbers, the run returns and its
comments correspond to the shown diagnostics exactly when every column is a
number and no row is just below a hunk. -/
theorem oneToOne_iff {ord : Enumeration String} {r : Reporter} {context : RuntimeContext}
    (hatt : r.Attached context)
    (hsep : ∀ file diag patch, r.Reported file diag →
      context.patches.lookup file = some patch → Separated patch.hunks)
    (hrow : ∀ file diag, r.Reported file diag →
      ∃ row : Nat, stoi diag.header.rowIdx = .ok (row : Int)) :
    (∃ comments, r.makeReviewComment ord context = .ok comments ∧
        OneToOne context (r.walked ord) comments) ↔
      ∀ file diag, r.Reported file diag →
        (∃ col, stoi diag.header.colIdx = .ok col) ∧
          ∀ patch row, context.patches.lookup file = some patch →
            stoi diag.header.rowIdx = .ok ((row : Nat) : Int) → ClearOfEnds patch.hunks row := by
  constructor
  · intro hexists file diag hdiag
    obtain ⟨comments, _, hone⟩ := hexists
    obtain ⟨groups, _, hall⟩ := hone.perDiagnostic
    obtain ⟨own, _, hown, hlen⟩ := exists_of_forall₂ hall (Reporter.mem_walked_iff.mpr hdiag)
    obtain ⟨row, hr⟩ := hrow file diag hdiag
    obtain ⟨patch, hpatch⟩ := hatt.patch hdiag
    rw [commentsOn_eq hpatch] at hown
    obtain ⟨hcol, rfl⟩ := (visitDiagnostic_eq_ok_iff hr).mp hown
    refine ⟨hcol, fun patch' row' hpatch' hr' => ?_⟩
    rw [hpatch] at hpatch'
    rw [hr] at hr'
    cases hpatch'
    cases hr'
    rw [List.length_map, onShownLine_eq hpatch hr] at hlen
    exact (length_positionsFrom_iff (hsep file diag patch hdiag hpatch)).mp (by simpa using hlen)
  · intro hclear
    have hgroup : ∀ p ∈ r.walked ord, ∃ own, commentsOn context p = .ok own ∧
        own.length = (if onShownLine context p then 1 else 0) ∧
        ∃ positions : List Nat, own = positions.map (commentAt p.1 p.2) := by
      intro p hp
      obtain ⟨file, diag⟩ := p
      have hdiag := Reporter.mem_walked_iff.mp hp
      obtain ⟨row, hr⟩ := hrow file diag hdiag
      obtain ⟨patch, hpatch⟩ := hatt.patch hdiag
      obtain ⟨hcol, hends⟩ := hclear file diag hdiag
      refine ⟨_, ?_, ?_, positionsFrom row 0 patch.hunks, rfl⟩
      · rw [commentsOn_eq hpatch]
        exact (visitDiagnostic_eq_ok_iff hr).mpr ⟨hcol, rfl⟩
      · rw [List.length_map, onShownLine_eq hpatch hr]
        simpa using (length_positionsFrom_iff (hsep file diag patch hdiag hpatch)).mpr
          (hends patch row hpatch hr)
    obtain ⟨groups, hall⟩ := forall₂_of_exists _ hgroup
    refine ⟨groups.flatten, (Reporter.makeReviewComment_eq_ok_iff hatt).mpr
      ⟨groups, hall.imp (fun _ _ h => h.1), rfl⟩, ⟨groups, rfl, ?_⟩, ?_⟩
    · exact hall.imp (fun _ _ h => ⟨h.1, h.2.1⟩)
    · exact forall₂_filter_flatten (hall.imp (fun _ _ h => h.2))

/-! ## A diagnostic just below a hunk -/

theorem oneToOne_iff_oneLine :
    (∃ comments, (reporterOf [diagAt "2"]).makeReviewComment (.stored String) (contextWith oneLine)
        = .ok comments ∧
        OneToOne (contextWith oneLine) ((reporterOf [diagAt "2"]).walked (.stored String)) comments) ↔
      ∀ file diag, (reporterOf [diagAt "2"]).Reported file diag →
        (∃ col, stoi diag.header.colIdx = .ok col) ∧
          ∀ patch row, (contextWith oneLine).patches.lookup file = some patch →
            stoi diag.header.rowIdx = .ok ((row : Nat) : Int) → ClearOfEnds patch.hunks row := by
  refine oneToOne_iff (attached_reporterOf _ _) (fun file diag patch _ hpatch => ?_)
    (fun file diag hdiag => ⟨2, ?_⟩)
  · obtain ⟨rfl, rfl⟩ := lookup_contextWith.mp hpatch
    decide
  · obtain ⟨rfl, hmem⟩ := reported_reporterOf_iff.mp hdiag
    rw [List.mem_singleton.mp hmem]
    rfl

/-- The diff shows row 1 only, and the diagnostic on row 2 gets a comment. -/
theorem not_oneToOne_oneLine :
    (reporterOf [diagAt "2"]).makeReviewComment (.stored String) (contextWith oneLine)
        = .ok [commentAt "a.cpp" (diagAt "2") 2]
      ∧ Separated oneLine ∧ ¬ Shows oneLine 2 ∧
      ¬ OneToOne (contextWith oneLine) ((reporterOf [diagAt "2"]).walked (.stored String))
        [commentAt "a.cpp" (diagAt "2") 2] := by
  refine ⟨rfl, by decide, by decide, fun hone => ?_⟩
  have hlen := hone.inOrder.length_eq
  exact absurd hlen (by decide)

end CppLint.ClangTidy
