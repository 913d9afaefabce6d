/-
CppLint.Tool.PartitionTheorems — how a check sorts the files.

A completed check on a fresh tool has put every file it has judged on one of
three sides, passed, failed or ignored, except the deleted ones.
`Partitioned` says what that means for the five accumulators, and
`runCheck_partitioned` reads it off the list of verdicts: which side a file
is on is a function of its one verdict (`mem_ignored_iff`, `mem_passes_iff`,
`mem_fails_iff`), and each of the lists is a sublist of the files judged
(`filterMap_sublist_map`), so nothing is repeated and the order is kept.
-/
import CppLint.Tool.VerdictTheorems

namespace CppLint.Tool

open CppLint.Lib CppLint.Git

variable {ρ : Type}

/-! ## The partition -/

section

variable (host : Host) (checker : Checker ρ) (context : RuntimeContext)

/-- The result of the check of a file records the file. -/
def NamesFile : Prop :=
  ∀ file res, checker.checkSingleFile context context.repoPath file = .ok res →
    (checker.base res).filePath = file

/-- The entry of a file on one side: the filter accepts the file, and its
result is the one of its check, says so and names the file. -/
def EntryOf (passed : Bool) (file : String) (res : ρ) : Prop :=
  file ∈ context.changedFiles ∧ NotDeleted context file ∧
    filterFile host checker.option.fileFilterIregex file = .ok false ∧
    checker.checkSingleFile context context.repoPath file = .ok res ∧
    (checker.base res).passed = passed ∧ (checker.base res).filePath = file

/-- The sides of a check and its failed commands. -/
structure Partitioned (r : MultiFilesResult ρ) : Prop where
  ignored_nodup : r.ignored.Nodup
  passes_nodup : r.passes.keys.Nodup
  fails_nodup : r.fails.keys.Nodup
  ignored_passes : ∀ file ∈ r.ignored, file ∉ r.passes.keys
  ignored_fails : ∀ file ∈ r.ignored, file ∉ r.fails.keys
  passes_fails : ∀ file ∈ r.passes.keys, file ∉ r.fails.keys
  ignored_entry : ∀ file ∈ r.ignored, file ∈ context.changedFiles ∧ NotDeleted context file ∧
    filterFile host checker.option.fileFilterIregex file = .ok true
  passes_entry : ∀ file res, r.passes.lookup file = some res →
    EntryOf host checker context true file res
  fails_entry : ∀ file res, r.fails.lookup file = some res →
    EntryOf host checker context false file res
  complete : r.fastlyExited = false → ∀ file ∈ context.changedFiles, NotDeleted context file →
    file ∈ r.ignored ∨ file ∈ r.passes.keys ∨ file ∈ r.fails.keys
  /-- The commands are those of the failed files, in the order of the files. -/
  commands : ∃ failed : List String, failed.Sublist context.changedFiles ∧ failed.Nodup ∧
    (∀ file, file ∈ failed ↔ file ∈ r.fails.keys) ∧
    List.Forall₂ (fun file command => ∃ res, r.fails.lookup file = some res ∧
      command = checker.commandName ++ " " ++ (checker.base res).fileOption)
      failed r.failedCommands

end

/-! ## Sides as functions of the verdict -/

variable {host : Host} {checker : Checker ρ} {context : RuntimeContext}

/-- What is picked from pairs, each pick being the pair's first part, keeps
their order. -/
theorem filterMap_sublist_map {β : Type} {pick : String × β → Option String}
    (hpick : ∀ p file, pick p = some file → file = p.1) :
    ∀ ps : List (String × β), (ps.filterMap pick).Sublist (ps.map Prod.fst) := by
  intro ps
  induction ps with
  | nil => exact .slnil
  | cons p ps ih =>
      rw [List.map_cons]
      cases hp : pick p with
      | none =>
          rw [List.filterMap_cons_none hp]
          exact ih.cons p.1
      | some file =>
          rw [List.filterMap_cons_some hp, hpick p file hp]
          exact ih.cons_cons p.1

/-- The file of a failure. -/
def failedFile (p : String × Verdict ρ) : Option String :=
  p.2.failure?.map (fun _ => p.1)

theorem mem_ignored_iff {vs : List (String × Verdict ρ)} {file : String} :
    file ∈ vs.filterMap ignoredFile ↔ (file, Verdict.ignored) ∈ vs := by
  rw [List.mem_filterMap]
  constructor
  · rintro ⟨⟨file', v⟩, hp, hpick⟩
    cases v <;> cases hpick
    exact hp
  · intro hp
    exact ⟨_, hp, rfl⟩

theorem mem_failedFiles_iff {vs : List (String × Verdict ρ)} {file : String} :
    file ∈ vs.filterMap failedFile ↔ ∃ r, (file, Verdict.failed r) ∈ vs := by
  rw [List.mem_filterMap]
  constructor
  · rintro ⟨⟨file', v⟩, hp, hpick⟩
    cases v <;> cases hpick
    exact ⟨_, hp⟩
  · rintro ⟨r, hp⟩
    exact ⟨_, hp, rfl⟩

/-- The map of passed files holds the results of the passed verdicts. -/
theorem lookup_passes_iff {vs : List (String × Verdict ρ)} (hj : Judged host checker context vs)
    {file : String} {res : ρ} :
    (kept Verdict.pass? vs).lookup file = some res ↔ (file, Verdict.passed res) ∈ vs := by
  rw [hj.lookup_kept]
  constructor
  · rintro ⟨v, hv, hres⟩
    cases v <;> cases hres
    exact hv
  · exact fun hv => ⟨_, hv, rfl⟩

/-- And the map of failed files those of the failed ones. -/
theorem lookup_fails_iff {vs : List (String × Verdict ρ)} (hj : Judged host checker context vs)
    {file : String} {res : ρ} :
    (kept Verdict.failure? vs).lookup file = some res ↔ (file, Verdict.failed res) ∈ vs := by
  rw [hj.lookup_kept]
  constructor
  · rintro ⟨v, hv, hres⟩
    cases v <;> cases hres
    exact hv
  · exact fun hv => ⟨_, hv, rfl⟩

theorem mem_passes_iff {vs : List (String × Verdict ρ)} (hj : Judged host checker context vs)
    {file : String} :
    file ∈ (kept Verdict.pass? vs).keys ↔ ∃ res, (file, Verdict.passed res) ∈ vs := by
  rw [← AList.mem_keys, UMap.mem_iff_lookup]
  simp only [lookup_passes_iff hj]

theorem mem_fails_iff {vs : List (String × Verdict ρ)} (hj : Judged host checker context vs)
    {file : String} :
    file ∈ (kept Verdict.failure? vs).keys ↔ ∃ res, (file, Verdict.failed res) ∈ vs := by
  rw [← AList.mem_keys, UMap.mem_iff_lookup]
  simp only [lookup_fails_iff hj]

/-- What is known of the file of a verdict that comes from its check. -/
theorem entryOf_passed (hnames : NamesFile checker context) {file : String} {res : ρ}
    (hfile : file ∈ context.changedFiles)
    (h : verdict host checker context file = .ok (.passed res)) :
    EntryOf host checker context true file res := by
  obtain ⟨hnot, hfilter, hcheck, hpassed⟩ := verdict_spec h
  exact ⟨hfile, hnot, hfilter, hcheck, hpassed, hnames file res hcheck⟩

theorem entryOf_failed (hnames : NamesFile checker context) {file : String} {res : ρ}
    (hfile : file ∈ context.changedFiles)
    (h : verdict host checker context file = .ok (.failed res)) :
    EntryOf host checker context false file res := by
  obtain ⟨hnot, hfilter, hcheck, hpassed⟩ := verdict_spec h
  exact ⟨hfile, hnot, hfilter, hcheck, hpassed, hnames file res hcheck⟩

/-- The accumulators of a completed check, as functions of its verdicts. -/
theorem outcome_fields {vs : List (String × Verdict ρ)} {r : MultiFilesResult ρ}
    (hout : CheckOutcome host checker context vs r) :
    Judged host checker context vs ∧ (vs.map Prod.fst).Sublist context.changedFiles ∧
      (r.fastlyExited = false → vs.map Prod.fst = context.changedFiles) ∧
      r.ignored = vs.filterMap ignoredFile ∧ r.passes = kept Verdict.pass? vs ∧
      r.fails = kept Verdict.failure? vs ∧
      r.failedCommands = vs.filterMap (failedCommand checker) := by
  cases hout with
  | full hfiles hjudged _ =>
      refine ⟨hjudged, by rw [hfiles], fun _ => hfiles, ?_⟩
      rw [tally_eq]
      exact ⟨rfl, rfl, rfl, rfl⟩
  | early hfiles hjudged _ _ =>
      refine ⟨hjudged, hfiles.sublist, ?_, ?_⟩
      · intro hno
        cases hno
      · rw [tally_eq]
        exact ⟨rfl, rfl, rfl, rfl⟩

/-- The failed files and their commands go together. -/
theorem forall₂_failedCommands {vs : List (String × Verdict ρ)}
    (hj : Judged host checker context vs) :
    List.Forall₂ (fun file command => ∃ res, (kept Verdict.failure? vs).lookup file = some res ∧
      command = checker.commandName ++ " " ++ (checker.base res).fileOption)
      (vs.filterMap failedFile) (vs.filterMap (failedCommand checker)) := by
  have hall : ∀ ps : List (String × Verdict ρ), (∀ p ∈ ps, p ∈ vs) →
      List.Forall₂ (fun file command => ∃ res, (kept Verdict.failure? vs).lookup file = some res ∧
        command = checker.commandName ++ " " ++ (checker.base res).fileOption)
        (ps.filterMap failedFile) (ps.filterMap (failedCommand checker)) := by
    intro ps
    induction ps with
    | nil => intro _; exact .nil
    | cons p ps ih =>
        intro hps
        have hrest := ih (fun q hq => hps q (List.mem_cons_of_mem p hq))
        obtain ⟨file, v⟩ := p
        cases v with
        | failed res =>
            have hlookup := (lookup_fails_iff hj).mpr (hps (file, .failed res) (by simp))
            exact .cons ⟨res, hlookup, rfl⟩ hrest
        | deleted => exact hrest
        | ignored => exact hrest
        | passed res => exact hrest
  exact hall vs (fun _ hp => hp)

theorem ignoredFiles_sublist (vs : List (String × Verdict ρ)) :
    (vs.filterMap ignoredFile).Sublist (vs.map Prod.fst) := by
  refine filterMap_sublist_map (fun p file hp => ?_) vs
  obtain ⟨file', v⟩ := p
  cases v <;> cases hp
  rfl

theorem failedFiles_sublist (vs : List (String × Verdict ρ)) :
    (vs.filterMap failedFile).Sublist (vs.map Prod.fst) := by
  refine filterMap_sublist_map (fun p file hp => ?_) vs
  obtain ⟨file', v⟩ := p
  cases v <;> cases hp
  rfl

/-- The commands of a completed check, if what the check of a file records is
known. -/
theorem runCheck_commands {fileOption : String → String} {Ran : String → Prop}
    (hrecord : ∀ file res, checker.checkSingleFile context context.repoPath file = .ok res →
      (checker.base res).fileOption = fileOption file ∧ Ran file)
    {r : MultiFilesResult ρ} (h : runCheck host checker context {} = .ok r) :
    ∃ failed : List String, failed.Sublist context.changedFiles ∧ (∀ file ∈ failed, Ran file) ∧
      r.failedCommands = failed.map (fun file => checker.commandName ++ " " ++ fileOption file) := by
  obtain ⟨vs, hout⟩ := (runCheck_outcome host checker context).of_ok h
  obtain ⟨hj, hsub, -, -, -, -, hcommands⟩ := outcome_fields hout
  refine ⟨vs.filterMap failedFile, (failedFiles_sublist vs).trans hsub, ?_, ?_⟩
  · intro file hfile
    obtain ⟨res, hv⟩ := mem_failedFiles_iff.mp hfile
    obtain ⟨-, -, hcheck, -⟩ := verdict_spec (hj _ hv)
    exact (hrecord file res hcheck).2
  · rw [hcommands, List.map_filterMap]
    apply List.filterMap_congr
    intro p hp
    obtain ⟨file, v⟩ := p
    cases v with
    | failed res =>
        obtain ⟨-, -, hcheck, -⟩ := verdict_spec (hj _ hp)
        simp [failedCommand, failedFile, Verdict.failure?, (hrecord file res hcheck).1]
    | deleted => rfl
    | ignored => rfl
    | passed res => rfl

/-- **The sides of a completed check.** -/
theorem runCheck_partitioned (hnodup : context.changedFiles.Nodup)
    (hnames : NamesFile checker context) {r : MultiFilesResult ρ}
    (h : runCheck host checker context {} = .ok r) : Partitioned host checker context r := by
  obtain ⟨vs, hout⟩ := (runCheck_outcome host checker context).of_ok h
  obtain ⟨hj, hsub, hall, hignored, hpasses, hfails, hcommands⟩ := outcome_fields hout
  have hfiles : ∀ {file v}, (file, v) ∈ vs → file ∈ context.changedFiles :=
    fun hp => hsub.subset (List.mem_map.mpr ⟨_, hp, rfl⟩)
  have hvs : (vs.map Prod.fst).Nodup := hsub.nodup hnodup
  have hpickIgnored := ignoredFiles_sublist vs
  have hpickFailed := failedFiles_sublist vs
  refine ⟨?_, r.passes.keys_nodup, r.fails.keys_nodup, ?_, ?_, ?_, ?_, ?_, ?_, ?_, ?_⟩
  · rw [hignored]
    exact hpickIgnored.nodup hvs
  · -- a file has one verdict, so it is on one side
    intro file hfile hpass
    rw [hignored, mem_ignored_iff] at hfile
    rw [hpasses, mem_passes_iff hj] at hpass
    obtain ⟨res, hv⟩ := hpass
    cases hj.unique hfile hv
  · intro file hfile hfail
    rw [hignored, mem_ignored_iff] at hfile
    rw [hfails, mem_fails_iff hj] at hfail
    obtain ⟨res, hv⟩ := hfail
    cases hj.unique hfile hv
  · intro file hpass hfail
    rw [hpasses, mem_passes_iff hj] at hpass
    rw [hfails, mem_fails_iff hj] at hfail
    obtain ⟨res, hv⟩ := hpass
    obtain ⟨res', hv'⟩ := hfail
    cases hj.unique hv hv'
  · intro file hfile
    rw [hignored, mem_ignored_iff] at hfile
    have hverdict : NotDeleted context file ∧
        filterFile host checker.option.fileFilterIregex file = .ok true :=
      verdict_spec (hj _ hfile)
    exact ⟨hfiles hfile, hverdict⟩
  · intro file res hlookup
    rw [hpasses, lookup_passes_iff hj] at hlookup
    exact entryOf_passed hnames (hfiles hlookup) (hj _ hlookup)
  · intro file res hlookup
    rw [hfails, lookup_fails_iff hj] at hlookup
    exact entryOf_failed hnames (hfiles hlookup) (hj _ hlookup)
  · intro hno file hfile hnot
    rw [← hall hno] at hfile
    obtain ⟨⟨file', v⟩, hv, rfl⟩ := List.mem_map.mp hfile
    rw [hignored, hpasses, hfails, mem_ignored_iff, mem_passes_iff hj, mem_fails_iff hj]
    cases v with
    | deleted => exact absurd hnot (verdict_spec (hj _ hv))
    | ignored => exact .inl hv
    | passed res => exact .inr (.inl ⟨res, hv⟩)
    | failed res => exact .inr (.inr ⟨res, hv⟩)
  · refine ⟨vs.filterMap failedFile, hpickFailed.trans hsub, hpickFailed.nodup hvs, ?_, ?_⟩
    · intro file
      rw [mem_failedFiles_iff, hfails, mem_fails_iff hj]
    · rw [hcommands, hfails]
      exact forall₂_failedCommands hj

/-- A file whose delta, filter and single check are there has a verdict. -/
theorem exists_verdict {file : String} (hdelta : ∃ delta, context.deltas.lookup file = some delta)
    (hfilter : ∃ b, filterFile host checker.option.fileFilterIregex file = .ok b)
    (hsingle : ∃ res, checker.checkSingleFile context context.repoPath file = .ok res) :
    ∃ v, verdict host checker context file = .ok v := by
  obtain ⟨delta, hdelta⟩ := hdelta
  obtain ⟨filtered, hfilter⟩ := hfilter
  obtain ⟨res, hsingle⟩ := hsingle
  unfold verdict
  rw [mapAt_eq_ok.mpr hdelta]
  show ∃ v, (if delta.status = .deleted then _ else _) = _
  by_cases hdel : delta.status = .deleted
  · rw [if_pos hdel]
    exact ⟨_, rfl⟩
  · rw [if_neg hdel, hfilter]
    cases filtered with
    | true => exact ⟨_, rfl⟩
    | false =>
        show ∃ v, (checker.checkSingleFile context context.repoPath file >>= _) = _
        rw [hsingle]
        show ∃ v, (if (checker.base res).passed then _ else _) = _
        cases (checker.base res).passed <;> exact ⟨_, rfl⟩

end CppLint.Tool
