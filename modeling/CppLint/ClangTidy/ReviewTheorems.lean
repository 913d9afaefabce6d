/-
CppLint.ClangTidy.ReviewTheorems — what `make_review_comment` returns.

`make_review_comment` is three nested loops with one output list. Here they
are flattened: the comments are the concatenation, over the diagnostics in
the order they are walked, of the comments made for one diagnostic
(`makeReviewComment_eq_ok_iff`), and those are one comment at each of
`positionsFrom`, the positions the innermost loop computes. What the
positions designate and how many there are is then a matter of that list of
numbers alone, one for each hunk whose range, the row just past its end
included, holds the row (`length_positionsFrom`).
-/
import CppLint.ClangTidy.Reporter
import CppLint.ContextTheorems
import CppLint.Git.Position

namespace CppLint.ClangTidy

open CppLint.Lib CppLint.Git CppLint.Tool CppLint.Github

/-! ## The comments of one diagnostic -/

/-- The comment on a diagnostic at a position. -/
def commentAt (file : String) (diag : Diagnostic) (position : Nat) : ReviewComment where
  path := file
  position := position
  body := diag.header.brief ++ diag.header.diagnosticType

/-- The positions the loop over hunks computes for a row, the lines of the
hunks passed being `pos`. -/
def positionsFrom (row : Int) : Nat → List Hunk → List Nat
  | _, [] => []
  | pos, h :: hs =>
      if isRowInHunk ⟨h.newStart, h.newLines⟩ row then
        sizeT (pos + row - h.newStart + 1) :: positionsFrom row pos hs
      else positionsFrom row (sizeT (pos + h.lines.length)) hs

/-- The comments made for one diagnostic. -/
def diagnosticComments (file : String) (patch : Patch) (diag : Diagnostic) :
    Except Fault (List ReviewComment) := do
  let row ← stoi diag.header.rowIdx
  let _col ← stoi diag.header.colIdx
  return (positionsFrom row 0 patch.hunks).map (commentAt file diag)

/-- One pass over a hunk, the hunk given. -/
def stepHunk (file : String) (diag : Diagnostic) (row : Int)
    (state : Nat × List ReviewComment) (h : Hunk) : Nat × List ReviewComment :=
  if isRowInHunk ⟨h.newStart, h.newLines⟩ row then
    (state.1, state.2 ++ [commentAt file diag (sizeT (state.1 + row - h.newStart + 1))])
  else (sizeT (state.1 + h.lines.length), state.2)

theorem foldl_stepHunk (file : String) (diag : Diagnostic) (row : Int) :
    ∀ (hunks : List Hunk) (pos : Nat) (comments : List ReviewComment),
      (hunks.foldl (stepHunk file diag row) (pos, comments)).2 =
        comments ++ (positionsFrom row pos hunks).map (commentAt file diag)
  | [], pos, comments => by simp [positionsFrom]
  | h :: hs, pos, comments => by
      rw [List.foldl_cons, stepHunk, positionsFrom]
      split
      · rw [foldl_stepHunk file diag row hs]
        simp
      · rw [foldl_stepHunk file diag row hs]

/-- The loop over hunk indices never throws, and appends. -/
theorem foldlM_visitHunk (file : String) (patch : Patch) (diag : Diagnostic) (row : Int)
    (state : Nat × List ReviewComment) :
    (List.range (numHunks patch)).foldlM (visitHunk file patch diag row) state =
      .ok (patch.hunks.foldl (stepHunk file diag row) state) := by
  rw [numHunks, ← foldlM_ok]
  refine foldlM_range patch.hunks (fun i h hi b => ?_) state
  rw [visitHunk, getHunk, hi]
  cases hin : isRowInHunk ⟨h.newStart, h.newLines⟩ row <;>
    simp [bind, Except.bind, pure, Except.pure, stepHunk, commentAt, hin]

theorem visitDiagnostic_eq (file : String) (patch : Patch) (comments : List ReviewComment)
    (diag : Diagnostic) :
    visitDiagnostic file patch comments diag =
      (diagnosticComments file patch diag).map (comments ++ ·) := by
  unfold visitDiagnostic diagnosticComments
  cases stoi diag.header.rowIdx with
  | error e => rfl
  | ok row =>
      cases stoi diag.header.colIdx with
      | error e => rfl
      | ok col =>
          simp only [bind, Except.bind, foldlM_visitHunk, pure, Except.pure, Except.map,
            foldl_stepHunk]

/-! ## The loops flattened -/

/-- A diagnostic of a failed file. -/
def Reporter.Reported (r : Reporter) (file : String) (diag : Diagnostic) : Prop :=
  ∃ res, r.result.fails.lookup file = some res ∧ diag ∈ res.diags

/-- The diagnostics in the order they are walked, each with its file. -/
def Reporter.walked (ord : Enumeration String) (r : Reporter) : List (String × Diagnostic) :=
  (ord.toList r.result.fails).flatMap (fun entry => entry.2.diags.map (fun d => (entry.1, d)))

theorem Reporter.mem_walked_iff {ord : Enumeration String} {r : Reporter} {file : String}
    {diag : Diagnostic} : (file, diag) ∈ r.walked ord ↔ r.Reported file diag := by
  unfold Reporter.walked Reporter.Reported
  rw [List.mem_flatMap]
  constructor
  · intro h
    obtain ⟨⟨key, res⟩, hentry, hd⟩ := h
    obtain ⟨d, hmem, heq⟩ := List.mem_map.mp hd
    cases heq
    exact ⟨res, (ord.mem_toList_iff _ _ _).mp hentry, hmem⟩
  · intro h
    obtain ⟨res, hlookup, hmem⟩ := h
    exact ⟨(file, res), (ord.mem_toList_iff _ _ _).mpr hlookup,
      List.mem_map.mpr ⟨diag, hmem, rfl⟩⟩

/-- Every failed file is recorded under its own name and has a patch. -/
def Reporter.Attached (r : Reporter) (context : RuntimeContext) : Prop :=
  ∀ file res, r.result.fails.lookup file = some res →
    res.filePath = file ∧ ∃ patch, context.patches.lookup file = some patch

theorem Reporter.Attached.patch {r : Reporter} {context : RuntimeContext}
    (hatt : r.Attached context) {file : String} {diag : Diagnostic}
    (hdiag : r.Reported file diag) : ∃ patch, context.patches.lookup file = some patch := by
  obtain ⟨res, hlookup, _⟩ := hdiag
  exact (hatt file res hlookup).2

/-- The comments made for one of the diagnostics walked. -/
def commentsOn (context : RuntimeContext) (p : String × Diagnostic) :
    Except Fault (List ReviewComment) := do
  let patch ← mapAt context.patches p.1
  diagnosticComments p.1 patch p.2

/-- A file whose comments are made has passed the assertions. -/
theorem visitFile_eq_ok {context : RuntimeContext} {comments comments' : List ReviewComment}
    {file : String} {res : PerFileResult}
    (h : visitFile context comments (file, res) = .ok comments') :
    res.filePath = file ∧ ∃ patch, context.patches.lookup file = some patch := by
  obtain ⟨_, hpath, h⟩ := bind_eq_ok.mp h
  obtain ⟨_, _, h⟩ := bind_eq_ok.mp h
  obtain ⟨patch, hpatch, _⟩ := bind_eq_ok.mp h
  exact ⟨of_decide_eq_true (assertThat_eq_ok.mp hpath), patch, mapAt_eq_ok.mp hpatch⟩

/-- A run that returns has passed the assertions for every failed file. -/
theorem Reporter.attached_of_ok {ord : Enumeration String} {r : Reporter}
    {context : RuntimeContext} {comments : List ReviewComment}
    (hrun : r.makeReviewComment ord context = .ok comments) : r.Attached context := by
  intro file res hlookup
  have hentry : (file, res) ∈ ord.toList r.result.fails := (ord.mem_toList_iff _ _ _).mpr hlookup
  obtain ⟨_, _, hvisit⟩ := exists_step_of_foldlM_ok hrun (file, res) hentry
  exact visitFile_eq_ok hvisit

/-- With every failed file attached, the three loops are one loop over the
diagnostics walked. -/
theorem Reporter.makeReviewComment_eq {ord : Enumeration String} {r : Reporter}
    {context : RuntimeContext} (hatt : r.Attached context) :
    r.makeReviewComment ord context =
      ((r.walked ord).mapM (commentsOn context)).map List.flatten := by
  have hfile : ∀ entry ∈ ord.toList r.result.fails, ∀ acc : List ReviewComment,
      visitFile context acc entry =
        (entry.2.diags.map (fun d => (entry.1, d))).foldlM
          (fun acc p => (commentsOn context p).map (acc ++ ·)) acc := by
    intro entry hentry acc
    obtain ⟨file, res⟩ := entry
    obtain ⟨hpath, patch, hpatch⟩ := hatt file res ((ord.mem_toList_iff _ _ _).mp hentry)
    have hat : mapAt context.patches file = .ok patch := mapAt_eq_ok.mpr hpatch
    have hstep : visitDiagnostic file patch =
        fun acc d => (commentsOn context (file, d)).map (acc ++ ·) := by
      funext acc d
      rw [visitDiagnostic_eq, commentsOn, hat]
      rfl
    rw [List.foldlM_map, ← hstep]
    simp [visitFile, assertThat, hpath, hpatch, hat, bind, Except.bind]
  rw [makeReviewComment, foldlM_nested _ hfile, foldlM_append (fun _ _ => rfl)]
  rfl

/-- **What a run returns.** One group of comments for each diagnostic
walked, in that order. -/
theorem Reporter.makeReviewComment_eq_ok_iff {ord : Enumeration String} {r : Reporter}
    {context : RuntimeContext} (hatt : r.Attached context) {comments : List ReviewComment} :
    r.makeReviewComment ord context = .ok comments ↔
      ∃ groups, List.Forall₂ (fun p own => commentsOn context p = .ok own)
        (r.walked ord) groups ∧ groups.flatten = comments := by
  rw [makeReviewComment_eq hatt, map_eq_ok]
  simp only [mapM_eq_ok_iff]

/-! ## The positions computed -/

theorem isRowInHunk_iff {h : Hunk} {row : Nat} :
    isRowInHunk ⟨h.newStart, h.newLines⟩ row = true ↔
      h.newStart ≤ row ∧ row ≤ h.newStart + h.newLines := by
  simp [isRowInHunk]
  omega

/-- The position computed in a hunk that holds the row, in natural
numbers. -/
theorem sizeT_position {pos row start : Nat} (h : start ≤ row) :
    sizeT ((pos : Int) + row - start + 1) = sizeT ((pos + (row - start) + 1 : Nat) : Int) := by
  congr 1
  omega

/-- Hunks that begin below the row give no position. -/
theorem positionsFrom_eq_nil {row : Nat} :
    ∀ {hunks : List Hunk} {pos : Nat}, (∀ h ∈ hunks, row < h.newStart) →
      positionsFrom row pos hunks = []
  | [], _, _ => rfl
  | h :: hs, pos, hbelow => by
      have hout : ¬ isRowInHunk ⟨h.newStart, h.newLines⟩ row = true := by
        rw [isRowInHunk_iff]
        have := hbelow h (by simp)
        omega
      rw [positionsFrom, if_neg hout]
      exact positionsFrom_eq_nil (fun k hk => hbelow k (by simp [hk]))

/-- A row covered by the first of ordered hunks is in no later one. -/
theorem positionsFrom_of_covers {h : Hunk} {hs : List Hunk} {pos row : Nat}
    (hord : Ordered (h :: hs)) (hcov : h.Covers row) :
    positionsFrom row pos (h :: hs) = [sizeT ((pos + (row - h.newStart) + 1 : Nat) : Int)] := by
  have hin : isRowInHunk ⟨h.newStart, h.newLines⟩ row = true :=
    isRowInHunk_iff.mpr ⟨hcov.1, Nat.le_of_lt hcov.2⟩
  have hrest : positionsFrom row pos hs = [] := by
    refine positionsFrom_eq_nil (fun k hk => ?_)
    have hbefore := (List.pairwise_cons.mp hord).1 k hk
    have hlt := hcov.2
    omega
  rw [positionsFrom, if_pos hin, hrest, sizeT_position hcov.1]

/-- One position for each hunk that holds the row. -/
theorem length_positionsFrom (row : Int) :
    ∀ (hunks : List Hunk) (pos : Nat), (positionsFrom row pos hunks).length =
      hunks.countP (fun h => isRowInHunk ⟨h.newStart, h.newLines⟩ row)
  | [], _ => rfl
  | h :: hs, pos => by
      rw [positionsFrom, List.countP_cons]
      split
      · rw [List.length_cons, length_positionsFrom row hs]
      · rw [length_positionsFrom row hs, Nat.add_zero]

theorem positionsFrom_ne_nil {hunks : List Hunk} {pos row : Nat} (hshown : Shows hunks row) :
    positionsFrom row pos hunks ≠ [] := by
  obtain ⟨h, hmem, hcov⟩ := hshown
  have hin : isRowInHunk ⟨h.newStart, h.newLines⟩ row = true :=
    isRowInHunk_iff.mpr ⟨hcov.1, Nat.le_of_lt hcov.2⟩
  have hpos : 0 < (positionsFrom row pos hunks).length := by
    rw [length_positionsFrom]
    exact List.countP_pos_iff.mpr ⟨h, hmem, hin⟩
  exact List.ne_nil_of_length_pos hpos

/-- The comments on a diagnostic are what the loop makes of it from an empty
list. -/
theorem commentsOn_eq {context : RuntimeContext} {file : String} {diag : Diagnostic}
    {patch : Patch} (hpatch : context.patches.lookup file = some patch) :
    commentsOn context (file, diag) = visitDiagnostic file patch [] diag := by
  have hat : mapAt context.patches file = .ok patch := mapAt_eq_ok.mpr hpatch
  rw [visitDiagnostic_eq, commentsOn, hat]
  show diagnosticComments file patch diag = _
  cases diagnosticComments file patch diag <;> rfl

/-- The comments on a diagnostic whose row is known. -/
theorem visitDiagnostic_eq_ok_iff {file : String} {diag : Diagnostic} {patch : Patch} {row : Int}
    {own : List ReviewComment} (hrow : stoi diag.header.rowIdx = .ok row) :
    visitDiagnostic file patch [] diag = .ok own ↔
      (∃ col, stoi diag.header.colIdx = .ok col) ∧
        own = (positionsFrom row 0 patch.hunks).map (commentAt file diag) := by
  rw [visitDiagnostic_eq, diagnosticComments, hrow]
  cases stoi diag.header.colIdx with
  | error e => simp [bind, Except.bind, Except.map]
  | ok col => simp [bind, Except.bind, pure, Except.pure, Except.map, eq_comm]

/-! ## One failed file -/

/-- A diagnostic of `a.cpp` at a row. -/
def diagAt (row : String) : Diagnostic :=
  ⟨⟨"/repo/a.cpp", row, "5", "warning", " unused variable ", "[misc-unused]"⟩, ""⟩

/-- A reporter with one failed file and these diagnostics. -/
def reporterOf (diags : List Diagnostic) : Reporter where
  option := {}
  result := { fails := AList.insert "a.cpp" { filePath := "a.cpp", diags := diags } ∅ }

/-- The context of a diff that changes that file by these hunks. -/
def contextWith (hunks : List Hunk) : RuntimeContext :=
  filledContext [⟨⟨.modified, "a.cpp"⟩, hunks⟩]

/-- One line, added. -/
def oneLine : List Hunk := [⟨1, [⟨.addition, "int n;\n"⟩]⟩]

theorem lookup_fails_reporterOf {diags : List Diagnostic} {file : String} {res : PerFileResult} :
    (reporterOf diags).result.fails.lookup file = some res ↔
      file = "a.cpp" ∧ res = { filePath := "a.cpp", diags := diags } := by
  rw [reporterOf, UMap.lookup_insert_iff]
  by_cases h : file = "a.cpp" <;> simp [h, eq_comm]

theorem reported_reporterOf_iff {diags : List Diagnostic} {file : String} {diag : Diagnostic} :
    (reporterOf diags).Reported file diag ↔ file = "a.cpp" ∧ diag ∈ diags := by
  unfold Reporter.Reported
  simp only [lookup_fails_reporterOf]
  constructor
  · intro h
    obtain ⟨res, ⟨hfile, rfl⟩, hmem⟩ := h
    exact ⟨hfile, hmem⟩
  · intro h
    exact ⟨_, ⟨h.1, rfl⟩, h.2⟩

theorem lookup_contextWith {hunks : List Hunk} {file : String} {patch : Patch} :
    (contextWith hunks).patches.lookup file = some patch ↔
      file = "a.cpp" ∧ patch = ⟨⟨.modified, "a.cpp"⟩, hunks⟩ := by
  rw [contextWith, filledContext, lookup_patchesOf, firstEntry]
  by_cases h : file = "a.cpp"
  · subst h
    simp [DiffEntry.patch, eq_comm]
  · simp [h, Ne.symm h]

theorem attached_reporterOf (diags : List Diagnostic) (hunks : List Hunk) :
    (reporterOf diags).Attached (contextWith hunks) := by
  intro file res hlookup
  obtain ⟨rfl, rfl⟩ := lookup_fails_reporterOf.mp hlookup
  exact ⟨rfl, _, rfl⟩

end CppLint.ClangTidy
