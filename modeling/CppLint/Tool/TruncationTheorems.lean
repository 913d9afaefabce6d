/-
CppLint.Tool.TruncationTheorems — fast exit cuts a check short.

`runCheck_truncates` compares a check with fast exit to the same check
without. Up to the first file that fails the two loops take the same steps
(`checkFile_agrees`), so without a failure they are equal. At the first
failure the full run has a state, `runUpTo` the files so far, and the fast
run returns that state with its two flags set; the tail that sets
`final_passed` is skipped, and comes to the same verdict. Nothing is assumed
about the outcomes of the single files: a throw before the first failure
ends both runs.
-/
import CppLint.Tool.VerdictTheorems

namespace CppLint.Tool

open CppLint.Lib CppLint.Git

variable {ρ : Type}

/-- The checker with fast exit enabled or disabled. -/
def Checker.withFastExit (checker : Checker ρ) (fast : Bool) : Checker ρ :=
  { checker with option := { checker.option with enabledFastlyExit := fast } }

section

variable (host : Host) (checker : Checker ρ) (context : RuntimeContext)

/-- The file has to be checked, and its check does not pass. -/
def Fails (file : String) : Prop :=
  Wanted host checker context file ∧
    ∃ r, checker.checkSingleFile context context.repoPath file = .ok r ∧
      (checker.base r).passed = false

/-- What `check` has accumulated on a fresh tool just after `files`. -/
def runUpTo (files : List String) : Except Fault (MultiFilesResult ρ) := do
  assertThat .check (checker.option.binary ≠ "") "!option.binary.empty()"
  assertThat .check (context.repoPath ≠ "") "!context.repo_path.empty()"
  forEach (checkFile host checker context) id files {}

end

/-- `fast` is `full` cut off at the first of the files that fails, `upTo`
being what the full run holds after some of the files. -/
structure Truncates (fast full : Except Fault (MultiFilesResult ρ))
    (upTo : List String → Except Fault (MultiFilesResult ρ)) (fails : String → Prop)
    (files : List String) : Prop where
  /-- Without a failing file nothing is cut off. -/
  same : (∀ file ∈ files, ¬ fails file) → fast = full
  /-- At the first failing file the run returns what it has accumulated. -/
  cut : ∀ pre file post, files = pre ++ file :: post → (∀ f ∈ pre, ¬ fails f) → fails file →
    fast = (upTo (pre ++ [file])).map
      (fun acc => { acc with finalPassed := false, fastlyExited := true })
  /-- That is one failed file and one failed command. -/
  single : ∀ pre file post, files = pre ++ file :: post → (∀ f ∈ pre, ¬ fails f) → fails file →
    ∀ acc, upTo (pre ++ [file]) = .ok acc →
      acc.fails.keys = [file] ∧ acc.failedCommands.length = 1
  /-- If the full run completes, so does the other, -/
  completes : ∀ r, full = .ok r → ∃ r', fast = .ok r'
  /-- and they agree on the verdict. -/
  finalPassed : ∀ r r', full = .ok r → fast = .ok r' → r.finalPassed = r'.finalPassed

variable {host : Host} {checker : Checker ρ} {context : RuntimeContext}

theorem fails_iff {file : String} :
    Fails host checker context file ↔ ∃ r, verdict host checker context file = .ok (.failed r) := by
  constructor
  · rintro ⟨⟨⟨delta, hdelta, hdel⟩, hfilter⟩, r, hr, hp⟩
    refine ⟨r, ?_⟩
    unfold verdict
    rw [mapAt_eq_ok.mpr hdelta]
    show (if delta.status = .deleted then _ else _) = _
    rw [if_neg hdel, hfilter]
    show (checker.checkSingleFile context context.repoPath file >>= _) = _
    rw [hr]
    show (if (checker.base r).passed then _ else _) = _
    rw [hp]
    rfl
  · rintro ⟨r, hr⟩
    rcases verdict_eq_ok hr with ⟨-, hnot⟩ | ⟨hwanted, r', hcheck, heq⟩
    · cases hnot
    · refine ⟨hwanted, r', hcheck, ?_⟩
      cases hp : (checker.base r').passed with
      | false => rfl
      | true =>
          rw [hp] at heq
          cases heq

/-- At a file that does not fail, the flag makes no difference. -/
theorem checkFile_agrees {file : String} (h : ¬ Fails host checker context file)
    (s : MultiFilesResult ρ) :
    checkFile host (checker.withFastExit true) context file s =
      checkFile host (checker.withFastExit false) context file s := by
  rw [checkFile_eq, checkFile_eq]
  show (verdict host checker context file).map _ = (verdict host checker context file).map _
  cases hv : verdict host checker context file with
  | error f => rfl
  | ok v =>
      have hnot : v.isFailed = false := by
        cases v with
        | failed r => exact absurd (fails_iff.mpr ⟨r, hv⟩) h
        | deleted => rfl
        | ignored => rfl
        | passed r => rfl
      simp only [Except.map, hnot]
      rfl

/-- Without fast exit the loop is never left early. -/
theorem checkFile_ne_ret (file : String) (s r : MultiFilesResult ρ) :
    checkFile host (checker.withFastExit false) context file s ≠ .ok (.ret r) := by
  rw [checkFile_eq]
  intro h
  obtain ⟨v, -, hv⟩ := map_eq_ok.mp h
  simp [Checker.withFastExit] at hv

/-- The step at a failing file: the full run records it, -/
theorem checkFile_full {file : String} {r : ρ}
    (h : verdict host checker context file = .ok (.failed r)) (s : MultiFilesResult ρ) :
    checkFile host (checker.withFastExit false) context file s =
      .ok (.next (record checker s file (.failed r))) := by
  rw [checkFile_eq]
  show (verdict host checker context file).map _ = _
  rw [h]
  rfl

/-- and the fast one leaves with it. -/
theorem checkFile_fast {file : String} {r : ρ}
    (h : verdict host checker context file = .ok (.failed r)) (s : MultiFilesResult ρ) :
    checkFile host (checker.withFastExit true) context file s =
      .ok (.ret (fastExit (record checker s file (.failed r)))) := by
  rw [checkFile_eq]
  show (verdict host checker context file).map _ = _
  rw [h]
  rfl

/-- Files that do not fail leave the failures alone. -/
theorem no_failures_upTo {pre : List String}
    (hpre : ∀ file ∈ pre, ¬ Fails host checker context file) {s : MultiFilesResult ρ}
    (h : forEach (checkFile host (checker.withFastExit false) context) id pre {} = .ok s) :
    s.fails = ∅ ∧ s.failedCommands = [] := by
  have hloop : Guarantees
      (forEach (checkFile host (checker.withFastExit false) context) id pre {})
      (fun r => (∃ s' : MultiFilesResult ρ, (s'.fails = ∅ ∧ s'.failedCommands = []) ∧ r = id s') ∨
        ∃ passed, passed <+: pre ∧ False) (fun _ => True) := by
    refine forEach_guarantees
      (I := fun _ (s : MultiFilesResult ρ) => s.fails = ∅ ∧ s.failedCommands = [])
      (Q := fun _ _ => False) pre ?_ {} ⟨rfl, rfl⟩
    rintro done file s hfile ⟨hfails, hcommands⟩
    rw [checkFile_eq]
    show Guarantees ((verdict host checker context file).map _) _ _
    cases hv : verdict host checker context file with
    | error f => trivial
    | ok v =>
        cases v with
        | failed r => exact absurd (fails_iff.mpr ⟨r, hv⟩) (hpre file hfile)
        | deleted => exact ⟨hfails, hcommands⟩
        | ignored => exact ⟨hfails, hcommands⟩
        | passed r => exact ⟨hfails, hcommands⟩
  rcases hloop.of_ok h with ⟨s', hs', rfl⟩ | ⟨_, _, hfalse⟩
  · exact hs'
  · exact hfalse.elim

/-! ## The two runs -/

/-- The assertions of `check`. -/
def checkAsserts (checker : Checker ρ) (context : RuntimeContext) : Except Fault Unit := do
  assertThat .check (checker.option.binary ≠ "") "!option.binary.empty()"
  assertThat .check (context.repoPath ≠ "") "!context.repo_path.empty()"

theorem runCheck_eq (fast : Bool) (result : MultiFilesResult ρ) :
    runCheck host (checker.withFastExit fast) context result =
      checkAsserts checker context >>= fun _ =>
        forEach (checkFile host (checker.withFastExit fast) context) concluded
          context.changedFiles result := by
  unfold runCheck checkAsserts
  show (assertThat .check (checker.option.binary ≠ "") _ >>= _) = _
  cases assertThat .check (checker.option.binary ≠ "") "!option.binary.empty()" <;> rfl

theorem runUpTo_eq (files : List String) :
    runUpTo host (checker.withFastExit false) context files =
      checkAsserts checker context >>= fun _ =>
        forEach (checkFile host (checker.withFastExit false) context) id files {} := by
  unfold runUpTo checkAsserts
  show (assertThat .check (checker.option.binary ≠ "") _ >>= _) = _
  cases assertThat .check (checker.option.binary ≠ "") "!option.binary.empty()" <;> rfl

/-- The state at the first failing file. -/
theorem runUpTo_concat {pre : List String} {file : String} {r : ρ}
    (hr : verdict host checker context file = .ok (.failed r)) :
    forEach (checkFile host (checker.withFastExit false) context) id (pre ++ [file]) {} =
      (forEach (checkFile host (checker.withFastExit false) context) id pre {}).map
        (fun s => record checker s file (.failed r)) := by
  rw [forEach_append id [file] pre {} (fun f _ s r => checkFile_ne_ret f s r)]
  cases forEach (checkFile host (checker.withFastExit false) context) id pre {} with
  | error e => rfl
  | ok s =>
      show forEach _ id [file] s = _
      rw [forEach, checkFile_full hr s]
      rfl

/-- The fast run up to the first failing file. -/
theorem forEach_fast {pre post : List String} {file : String}
    (hpre : ∀ f ∈ pre, ¬ Fails host checker context f) {r : ρ}
    (hr : verdict host checker context file = .ok (.failed r)) :
    forEach (checkFile host (checker.withFastExit true) context) concluded
        (pre ++ file :: post) {} =
      (forEach (checkFile host (checker.withFastExit false) context) id (pre ++ [file]) {}).map
        fastExit := by
  have hagree : ∀ f ∈ pre, ∀ s, checkFile host (checker.withFastExit true) context f s =
      checkFile host (checker.withFastExit false) context f s :=
    fun f hf s => checkFile_agrees (hpre f hf) s
  rw [runUpTo_concat hr, forEach_append concluded (file :: post) pre {}, forEach_congr id pre {} hagree]
  · cases forEach (checkFile host (checker.withFastExit false) context) id pre {} with
    | error e => rfl
    | ok s =>
        show forEach _ concluded (file :: post) s = _
        rw [forEach, checkFile_fast hr s]
        rfl
  · intro f hf s r'
    rw [hagree f hf s]
    exact checkFile_ne_ret f s r'

/-- A list with a failing file has a first one. -/
theorem exists_first {P : String → Prop} :
    ∀ {files : List String}, (∃ file ∈ files, P file) →
      ∃ pre file post, files = pre ++ file :: post ∧ (∀ f ∈ pre, ¬ P f) ∧ P file := by
  intro files
  induction files with
  | nil =>
      rintro ⟨file, hfile, -⟩
      cases hfile
  | cons f files ih =>
      rintro ⟨file, hfile, hP⟩
      by_cases hf : P f
      · exact ⟨[], f, files, rfl, by simp, hf⟩
      · rcases List.mem_cons.mp hfile with rfl | hfile
        · exact absurd hP hf
        · obtain ⟨pre, file', post, rfl, hpre, hfirst⟩ := ih ⟨file, hfile, hP⟩
          exact ⟨f :: pre, file', post, rfl, by simpa [hf] using hpre, hfirst⟩

theorem runCheck_fast {pre post : List String} {file : String}
    (hfiles : context.changedFiles = pre ++ file :: post)
    (hpre : ∀ f ∈ pre, ¬ Fails host checker context f) (hfails : Fails host checker context file) :
    runCheck host (checker.withFastExit true) context {} =
      (runUpTo host (checker.withFastExit false) context (pre ++ [file])).map fastExit := by
  obtain ⟨r, hr⟩ := fails_iff.mp hfails
  rw [runCheck_eq, runUpTo_eq, hfiles, forEach_fast hpre hr]
  cases checkAsserts checker context <;> rfl

/-- What a completed full run had at the first failing file. -/
theorem exists_upTo_of_full {pre post : List String} {file : String}
    (hfiles : context.changedFiles = pre ++ file :: post) {r : MultiFilesResult ρ}
    (hfull : runCheck host (checker.withFastExit false) context {} = .ok r) :
    ∃ acc, runUpTo host (checker.withFastExit false) context (pre ++ [file]) = .ok acc := by
  rw [runCheck_eq] at hfull
  obtain ⟨u, hasserts, hloop⟩ := bind_eq_ok.mp hfull
  have hcut : context.changedFiles = (pre ++ [file]) ++ post := by simp [hfiles]
  rw [hcut, forEach_append concluded post _ _ (fun f _ s r => checkFile_ne_ret f s r)] at hloop
  obtain ⟨acc, hacc, -⟩ := bind_eq_ok.mp hloop
  exact ⟨acc, by rw [runUpTo_eq, hasserts]; exact hacc⟩

/-- **Fast exit is truncation.** -/
theorem runCheck_truncates (host : Host) (checker : Checker ρ) (context : RuntimeContext) :
    Truncates (runCheck host (checker.withFastExit true) context {})
      (runCheck host (checker.withFastExit false) context {})
      (runUpTo host (checker.withFastExit false) context) (Fails host checker context)
      context.changedFiles := by
  have hsame : (∀ file ∈ context.changedFiles, ¬ Fails host checker context file) →
      runCheck host (checker.withFastExit true) context {} =
        runCheck host (checker.withFastExit false) context {} := by
    intro hnone
    rw [runCheck_eq, runCheck_eq, forEach_congr concluded context.changedFiles {}
      (fun f hf s => checkFile_agrees (hnone f hf) s)]
  have hdecides : ∀ fast, Decides (checker.withFastExit fast) context (Passes checker context) :=
    fun _ => decides_passes
  refine ⟨hsame, fun pre file post => runCheck_fast, ?_, ?_, ?_⟩
  · intro pre file post _ hpre hfails acc hacc
    obtain ⟨r, hr⟩ := fails_iff.mp hfails
    rw [runUpTo_eq] at hacc
    obtain ⟨u, -, hloop⟩ := bind_eq_ok.mp hacc
    rw [runUpTo_concat hr] at hloop
    obtain ⟨s, hs, rfl⟩ := map_eq_ok.mp hloop
    obtain ⟨hfails, hcommands⟩ := no_failures_upTo hpre hs
    simp [record, hfails, hcommands]
  · intro r hfull
    by_cases hsome : ∃ file ∈ context.changedFiles, Fails host checker context file
    · obtain ⟨pre, file, post, hfiles, hpre, hfails⟩ := exists_first hsome
      obtain ⟨acc, hacc⟩ := exists_upTo_of_full hfiles hfull
      exact ⟨fastExit acc, by rw [runCheck_fast hfiles hpre hfails, hacc]; rfl⟩
    · have hnone : ∀ file ∈ context.changedFiles, ¬ Fails host checker context file :=
        fun file hfile hf => hsome ⟨file, hfile, hf⟩
      exact ⟨r, by rw [hsame hnone, hfull]⟩
  · intro r r' hfull hfast
    rw [Bool.eq_iff_iff, finalPassed_iff (hdecides false) hfull, finalPassed_iff (hdecides true) hfast]
    rfl

end CppLint.Tool
