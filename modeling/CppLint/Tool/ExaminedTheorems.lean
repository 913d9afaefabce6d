/-
CppLint.Tool.ExaminedTheorems — which files a check gets to.

Without fast exit the loop of `check` gets to every changed file, with it to
the files up to and including the first that fails (`Examined`). Either way
the verdicts behind a completed check are those of the files it got to
(`CheckOutcome.mem_iff`), so what its maps hold, and how many files are in
each of them (`runCheck_counts`), can be said without the loop.
-/
import Mathlib.Data.Set.Card
import CppLint.Tool.PartitionTheorems
import CppLint.Tool.TruncationTheorems

namespace CppLint.Tool

open CppLint.Lib CppLint.Git

variable {ρ : Type} {host : Host} {checker : Checker ρ} {context : RuntimeContext}

/-! ## The files judged -/

/-- The loop of `check` gets to the file: with fast exit, no file before it
fails. -/
def Examined (host : Host) (checker : Checker ρ) (context : RuntimeContext) (file : String) :
    Prop :=
  ∃ pre post, context.changedFiles = pre ++ file :: post ∧
    (checker.option.enabledFastlyExit = true → ∀ f ∈ pre, ¬ Fails host checker context f)

/-- Nothing is past the first element with a property, if no element before it
has the property. -/
theorem mem_of_none_before {P : String → Prop} {a b : String} :
    ∀ {pre pre' post post' : List String}, pre' ++ a :: post' = pre ++ b :: post →
      (∀ f ∈ pre', ¬ P f) → P b → a ∈ pre ++ [b]
  | [], [], _, _, h, _, _ => by
      obtain ⟨rfl, -⟩ := List.cons.inj h
      exact List.mem_singleton_self _
  | [], _ :: _, _, _, h, hpre', hb => by
      obtain ⟨rfl, -⟩ := List.cons.inj h
      exact absurd hb (hpre' _ List.mem_cons_self)
  | _ :: _, [], _, _, h, _, _ => by
      obtain ⟨rfl, -⟩ := List.cons.inj h
      exact List.mem_cons_self
  | _ :: _, _ :: _, _, _, h, hpre', hb =>
      List.mem_cons_of_mem _ (mem_of_none_before (List.cons.inj h).2
        (fun f hf => hpre' f (List.mem_cons_of_mem _ hf)) hb)

theorem verdict_eq_failed_iff {file : String} {res : ρ} :
    verdict host checker context file = .ok (.failed res) ↔
      Wanted host checker context file ∧
        checker.checkSingleFile context context.repoPath file = .ok res ∧
        (checker.base res).passed = false := by
  constructor
  · intro h
    obtain ⟨hnot, hfilter, hcheck, hp⟩ := verdict_spec h
    exact ⟨⟨hnot, hfilter⟩, hcheck, hp⟩
  · rintro ⟨hwanted, hcheck, hp⟩
    have hfails : Fails host checker context file := ⟨hwanted, res, hcheck, hp⟩
    obtain ⟨res', hverdict⟩ := fails_iff.mp hfails
    obtain ⟨-, -, hcheck', -⟩ := verdict_spec hverdict
    rw [hcheck] at hcheck'
    cases hcheck'
    exact hverdict

/-- A judged file without a failed verdict does not fail. -/
theorem not_fails_of_judged {vs : List (String × Verdict ρ)} (hj : Judged host checker context vs)
    (hnone : NoneFailed vs) {file : String} (hfile : file ∈ vs.map Prod.fst) :
    ¬ Fails host checker context file := by
  obtain ⟨⟨file, v⟩, hp, rfl⟩ := List.mem_map.mp hfile
  intro hfails
  obtain ⟨res, hres⟩ := fails_iff.mp hfails
  rw [hj _ hp] at hres
  cases hres
  cases hnone _ hp

/-- A file among judged ones without a failure is got to. -/
theorem examined_of_judged {vs : List (String × Verdict ρ)} {rest : List String}
    (hfiles : context.changedFiles = vs.map Prod.fst ++ rest) (hj : Judged host checker context vs)
    (hnone : checker.option.enabledFastlyExit = true → NoneFailed vs) {p : String × Verdict ρ}
    (hp : p ∈ vs) : Examined host checker context p.1 := by
  obtain ⟨pre, post, rfl⟩ := List.append_of_mem hp
  refine ⟨pre.map Prod.fst, post.map Prod.fst ++ rest, by simp [hfiles], fun hen f hf => ?_⟩
  exact not_fails_of_judged (fun q hq => hj q (List.mem_append_left _ hq))
    (fun q hq => hnone hen q (List.mem_append_left _ hq)) hf

/-- **The judged files.** The verdicts behind the result of a completed check
are those of the files it got to. -/
theorem CheckOutcome.mem_iff {vs : List (String × Verdict ρ)} {result : MultiFilesResult ρ}
    (hout : CheckOutcome host checker context vs result) {file : String} {v : Verdict ρ} :
    (file, v) ∈ vs ↔
      Examined host checker context file ∧ verdict host checker context file = .ok v := by
  have hback : ∀ {ws : List (String × Verdict ρ)}, Judged host checker context ws →
      file ∈ ws.map Prod.fst → verdict host checker context file = .ok v → (file, v) ∈ ws := by
    intro ws hj hmem hverdict
    obtain ⟨⟨file, v'⟩, hp, rfl⟩ := List.mem_map.mp hmem
    rw [hj _ hp] at hverdict
    cases hverdict
    exact hp
  cases hout with
  | full hfiles hjudged hfast =>
      constructor
      · intro hp
        have hall : context.changedFiles = vs.map Prod.fst ++ [] := by simp [hfiles]
        exact ⟨examined_of_judged hall hjudged hfast hp, hjudged _ hp⟩
      · rintro ⟨⟨pre, post, hsplit, -⟩, hverdict⟩
        refine hback hjudged ?_ hverdict
        rw [hfiles, hsplit]
        exact List.mem_append_right _ List.mem_cons_self
  | @early pre last rf hfiles hjudged hpre hen =>
      obtain ⟨post, hfiles⟩ := hfiles
      have hsplit : context.changedFiles = pre.map Prod.fst ++ last :: post := by
        rw [← hfiles]
        simp
      have hjpre : Judged host checker context pre :=
        fun p hp => hjudged p (List.mem_append_left _ hp)
      constructor
      · intro hp
        refine ⟨?_, hjudged _ hp⟩
        rcases List.mem_append.mp hp with hp | hp
        · exact examined_of_judged hsplit hjpre (fun _ => hpre) hp
        · cases List.mem_singleton.mp hp
          exact ⟨_, post, hsplit, fun _ f hf => not_fails_of_judged hjpre hpre hf⟩
      · rintro ⟨⟨pre', post', hsplit', hbefore⟩, hverdict⟩
        have hlast : Fails host checker context last :=
          fails_iff.mpr ⟨rf, hjudged (last, .failed rf) (by simp)⟩
        refine hback hjudged ?_ hverdict
        rw [List.map_append]
        exact mem_of_none_before (hsplit'.symm.trans hsplit) (hbefore hen) hlast

/-- The failed files of a completed check, with their results. -/
theorem lookup_fails_of_runCheck {result : MultiFilesResult ρ}
    (h : runCheck host checker context {} = .ok result) {file : String} {res : ρ} :
    result.fails.lookup file = some res ↔
      Examined host checker context file ∧ Wanted host checker context file ∧
        checker.checkSingleFile context context.repoPath file = .ok res ∧
        (checker.base res).passed = false := by
  obtain ⟨vs, hout⟩ := (runCheck_outcome host checker context).of_ok h
  obtain ⟨hj, -, -, -, -, hfails, -⟩ := outcome_fields hout
  rw [hfails, lookup_fails_iff hj, hout.mem_iff, verdict_eq_failed_iff]

/-! ## What is recorded about them -/

/-- The check records a failure of the file. -/
def Recorded (host : Host) (checker : Checker ρ) (context : RuntimeContext) (file : String) :
    Prop :=
  Examined host checker context file ∧ Fails host checker context file

/-- It records that the file passes. -/
def Cleared (host : Host) (checker : Checker ρ) (context : RuntimeContext) (file : String) :
    Prop :=
  Examined host checker context file ∧ Wanted host checker context file ∧
    Passes checker context file

/-- It leaves the file out, because of its name. -/
def Skipped (host : Host) (checker : Checker ρ) (context : RuntimeContext) (file : String) :
    Prop :=
  Examined host checker context file ∧ NotDeleted context file ∧
    filterFile host checker.option.fileFilterIregex file = .ok true

theorem exists_lookup_fails_iff {result : MultiFilesResult ρ}
    (h : runCheck host checker context {} = .ok result) {file : String} :
    (∃ res, result.fails.lookup file = some res) ↔ Recorded host checker context file := by
  simp only [lookup_fails_of_runCheck h, Recorded, Fails, exists_and_left]

/-- The verdict on a file that is not deleted. -/
theorem verdict_of_notDeleted {file : String} (h : NotDeleted context file) :
    verdict host checker context file =
      filterFile host checker.option.fileFilterIregex file >>= fun filtered =>
        if filtered then return .ignored
        else checker.checkSingleFile context context.repoPath file >>= fun r =>
          if (checker.base r).passed then return .passed r else return .failed r := by
  obtain ⟨delta, hdelta, hdel⟩ := h
  unfold verdict
  rw [mapAt_eq_ok.mpr hdelta]
  exact if_neg hdel

theorem exists_passed_iff {file : String} :
    (∃ res, verdict host checker context file = .ok (.passed res)) ↔
      Wanted host checker context file ∧ Passes checker context file := by
  constructor
  · rintro ⟨res, h⟩
    obtain ⟨hnot, hfilter, hcheck, hp⟩ := verdict_spec h
    exact ⟨⟨hnot, hfilter⟩, res, hcheck, hp⟩
  · rintro ⟨⟨hnot, hfilter⟩, res, hcheck, hp⟩
    refine ⟨res, ?_⟩
    rw [verdict_of_notDeleted hnot, hfilter]
    show (checker.checkSingleFile context context.repoPath file >>= _) = _
    rw [hcheck]
    exact if_pos hp

theorem verdict_eq_ignored_iff {file : String} :
    verdict host checker context file = .ok .ignored ↔
      NotDeleted context file ∧
        filterFile host checker.option.fileFilterIregex file = .ok true := by
  constructor
  · exact fun h => verdict_spec h
  · rintro ⟨hnot, hfilter⟩
    rw [verdict_of_notDeleted hnot, hfilter]
    rfl

/-- The number of strings in a list is that of the strings it stands for. -/
theorem ncard_of_nodup {files : List String} {P : String → Prop} (hnodup : files.Nodup)
    (h : ∀ file, file ∈ files ↔ P file) : {file | P file}.ncard = files.length := by
  have hset : {file | P file} = ↑files.toFinset := by
    ext file
    simp [h]
  rw [hset, Set.ncard_coe_finset, List.toFinset_card_of_nodup hnodup]

/-- The numbers of a completed check on distinct files. -/
theorem runCheck_counts (hnodup : context.changedFiles.Nodup) {result : MultiFilesResult ρ}
    (h : runCheck host checker context {} = .ok result) :
    result.passes.size = {file | Cleared host checker context file}.ncard ∧
      result.fails.size = {file | Recorded host checker context file}.ncard ∧
      result.ignored.length = {file | Skipped host checker context file}.ncard := by
  obtain ⟨vs, hout⟩ := (runCheck_outcome host checker context).of_ok h
  obtain ⟨hj, hsub, -, hignored, hpasses, -, -⟩ := outcome_fields hout
  have hskipped : result.ignored.Nodup := by
    rw [hignored]
    exact (ignoredFiles_sublist vs).nodup (hsub.nodup hnodup)
  rw [← UMap.length_keys, ← UMap.length_keys]
  refine ⟨(ncard_of_nodup result.passes.keys_nodup (fun file => ?_)).symm,
    (ncard_of_nodup result.fails.keys_nodup (fun file => ?_)).symm,
    (ncard_of_nodup hskipped (fun file => ?_)).symm⟩
  · rw [hpasses, mem_passes_iff hj]
    simp only [hout.mem_iff, exists_and_left, exists_passed_iff, Cleared]
  · rw [← AList.mem_keys, UMap.mem_iff_lookup, exists_lookup_fails_iff h]
  · rw [hignored, mem_ignored_iff, hout.mem_iff, verdict_eq_ignored_iff, Skipped]

end CppLint.Tool
