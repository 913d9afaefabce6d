/-
CppLint.ClangTidy.AttributionTheorems — under which file a diagnostic is
reported.

A diagnostic carries the file its header names; both reports write the key
under which its result is stored instead, to show a path relative to the
repository and not an absolute one. The two are the same file for a
diagnostic in the file being checked, and differ for one clang-tidy located
in an included header. `attributed_iff` says that the reports are right
exactly for maps without such diagnostics.
-/
import CppLint.ClangTidy.ReviewTheorems

namespace CppLint.ClangTidy

open CppLint.Lib CppLint.Git CppLint.Tool CppLint.Github

/-- The header of the diagnostic names the file `path`, relative to the
repository or below its root. -/
def NamesFile (root path : String) (diag : Diagnostic) : Prop :=
  diag.header.fileName = path ∨ diag.header.fileName = root ++ "/" ++ path

instance (root path : String) (diag : Diagnostic) : Decidable (NamesFile root path diag) :=
  inferInstanceAs (Decidable (diag.header.fileName = path ∨ diag.header.fileName = root ++ "/" ++ path))

/-- A bullet shows one path. -/
theorem briefBullet_path_inj {path path' : String} {diag : Diagnostic}
    (h : briefBullet path diag = briefBullet path' diag) : path = path' := by
  unfold briefBullet at h
  simp only [String.append_left_inj] at h
  exact (String.append_right_inj _).mp h

/-- The brief is one bullet for each diagnostic walked. -/
theorem Reporter.makeBrief_eq (ord : Enumeration String) (r : Reporter) :
    r.makeBrief ord = String.join ((r.walked ord).map (fun p => briefBullet p.1 p.2)) := by
  unfold Reporter.makeBrief Reporter.walked String.join
  rw [List.foldl_map, List.foldl_flatMap]
  simp only [List.foldl_map]

/-- Both reports show each diagnostic under the file its header names. -/
structure Attributed (ord : Enumeration String) (r : Reporter) (context : RuntimeContext) :
    Prop where
  brief : ∃ bullets, r.makeBrief ord = String.join bullets ∧
    List.Forall₂ (fun p bullet => bullet = briefBullet p.1 p.2 ∧
      ∃ path, bullet = briefBullet path p.2 ∧ NamesFile context.repoPath path p.2)
      (r.walked ord) bullets
  reviewComments : ∀ comments, r.makeReviewComment ord context = .ok comments →
    ∃ groups, groups.flatten = comments ∧
      List.Forall₂ (fun p own => commentsOn context p = .ok own ∧
        ∀ c ∈ own, NamesFile context.repoPath c.path p.2) (r.walked ord) groups

/-- The comments on a diagnostic are placed on the file it is stored under. -/
theorem path_of_commentsOn {context : RuntimeContext} {file : String} {diag : Diagnostic}
    {own : List ReviewComment} (hown : commentsOn context (file, diag) = .ok own) :
    ∀ c ∈ own, c.path = file := by
  obtain ⟨patch, _, hown⟩ := bind_eq_ok.mp hown
  obtain ⟨row, _, hown⟩ := bind_eq_ok.mp hown
  obtain ⟨col, _, hown⟩ := bind_eq_ok.mp hown
  cases hown
  intro c hc
  obtain ⟨position, _, rfl⟩ := List.mem_map.mp hc
  rfl

/-- What the brief shows for a diagnostic is the file it is stored under. -/
theorem Attributed.namesFile {ord : Enumeration String} {r : Reporter} {context : RuntimeContext}
    (hattr : Attributed ord r context) {file : String} {diag : Diagnostic}
    (hdiag : r.Reported file diag) : NamesFile context.repoPath file diag := by
  obtain ⟨bullets, _, hall⟩ := hattr.brief
  obtain ⟨bullet, _, hself, path, hpath, hnames⟩ :=
    exists_of_forall₂ hall (Reporter.mem_walked_iff.mpr hdiag)
  have hsame : path = file := briefBullet_path_inj (hpath.symm.trans hself)
  exact hsame ▸ hnames

/-- **Right attribution.** The reports show every diagnostic under the file
its header names exactly when no diagnostic stored under a failed file names
another file. -/
theorem attributed_iff (ord : Enumeration String) (r : Reporter) (context : RuntimeContext) :
    Attributed ord r context ↔
      ∀ file diag, r.Reported file diag → NamesFile context.repoPath file diag := by
  constructor
  · intro hattr file diag hdiag
    exact hattr.namesFile hdiag
  · intro hnames
    have hwalked : ∀ p ∈ r.walked ord, NamesFile context.repoPath p.1 p.2 :=
      fun p hp => hnames p.1 p.2 (Reporter.mem_walked_iff.mp hp)
    refine ⟨⟨_, Reporter.makeBrief_eq ord r, ?_⟩, fun comments hrun => ?_⟩
    · rw [List.forall₂_map_right_iff, List.forall₂_same]
      exact fun p hp => ⟨rfl, p.1, rfl, hwalked p hp⟩
    · obtain ⟨groups, hall, hflat⟩ :=
        (Reporter.makeReviewComment_eq_ok_iff (Reporter.attached_of_ok hrun)).mp hrun
      have hkeep : List.Forall₂ (fun p own => NamesFile context.repoPath p.1 p.2 ∧
          commentsOn context p = .ok own) (r.walked ord) groups :=
        (List.forall₂_and_left _ _).mpr ⟨hwalked, hall⟩
      refine ⟨groups, hflat, hkeep.imp (fun p own h => ⟨h.2, fun c hc => ?_⟩)⟩
      rw [path_of_commentsOn h.2 c hc]
      exact h.1

/-! ## A diagnostic in an included header -/

/-- A clang-tidy that reports a diagnostic in `inc.h` whatever it checks. -/
def headerHost : Host where
  execute := fun _ _ _ => .ok
    { exitCode := 1, stdOut := "/repo/inc.h:1:9: warning: unused [misc-unused]\n", stdErr := "" }
  regexMatch := fun _ _ => .ok true
  readFile := fun _ => none
  parseXml := fun _ => .error ""

/-- The diagnostic as parsed. -/
def headerDiag : Diagnostic :=
  ⟨⟨"/repo/inc.h", "1", "9", "warning", " unused ", "[misc-unused]"⟩, ""⟩

/-- The diagnostic in the header is reported as one of line 1 of `a.cpp`, in
the brief and as a review comment. -/
theorem headerDiag_misattributed :
    ∃ tool, check headerHost ⟨{ binary := "clang-tidy" }, {}⟩ (contextWith oneLine) = .ok tool ∧
      tool.getReporter.Reported "a.cpp" headerDiag ∧
      tool.getReporter.makeBrief (.stored String) = briefBullet "a.cpp" headerDiag ∧
      tool.getReporter.makeReviewComment (.stored String) (contextWith oneLine)
        = .ok [commentAt "a.cpp" headerDiag 1] ∧
      ¬ NamesFile (contextWith oneLine).repoPath "a.cpp" headerDiag ∧
      ¬ Attributed (.stored String) tool.getReporter (contextWith oneLine) := by
  have hforeign : ¬ NamesFile (contextWith oneLine).repoPath "a.cpp" headerDiag := by decide
  have hrun : ∃ tool, check headerHost ⟨{ binary := "clang-tidy" }, {}⟩ (contextWith oneLine) = .ok tool ∧
      tool.getReporter.Reported "a.cpp" headerDiag ∧
      tool.getReporter.makeBrief (.stored String) = briefBullet "a.cpp" headerDiag ∧
      tool.getReporter.makeReviewComment (.stored String) (contextWith oneLine)
        = .ok [commentAt "a.cpp" headerDiag 1] :=
    ⟨_, rfl, ⟨_, rfl, by decide⟩, rfl, rfl⟩
  obtain ⟨tool, hcheck, hdiag, hbrief, hreview⟩ := hrun
  exact ⟨tool, hcheck, hdiag, hbrief, hreview, hforeign,
    fun hattr => hforeign (hattr.namesFile hdiag)⟩

end CppLint.ClangTidy
