/-
CppLint.Github.EnvTheorems — which refs `parse_pr_number` takes for the merge
ref of a pull request.

The function counts the fields between the slashes and reads the number in
the third (`parsePrNumber_eq_ok_iff`). Every merge ref passes, with its own
number (`parsePrNumber_mergeRef`), and so does each other ref of four fields
whose third starts with a number: a branch `2024/main`, the head ref of a
pull request, a merge ref with something behind its number
(`readsMergeRefs_iff`).
-/
import CppLint.StartUpTheorems

namespace CppLint.Github

open CppLint.Lib

/-- `refs/pull/PULL_REQUEST_NUMBER/merge`. -/
def MergeRef (ref : String) (n : Int) : Prop :=
  0 < n ∧ n ≤ 2 ^ 31 - 1 ∧ ref = "refs/pull/" ++ toString n ++ "/merge"

/-- The number is the one of a merge ref or an exception is thrown, and
`fill_context` stores no other number. -/
structure ReadsMergeRefs (ref : String) : Prop where
  accepted : ∀ n, parsePrNumber ref = .ok n ↔ MergeRef ref n
  refused : (∀ n, ¬ MergeRef ref n) → ∃ f, parsePrNumber ref = .error f ∧ f.IsException
  stored : ∀ env ctx ctx', env.githubRef = ref → env.eventName ∈ githubEventsWithPrNumber →
    fillContext env ctx = .ok ctx' →
      (ctx.Reports ∧ MergeRef ref ctx'.prNumber) ∨
        (¬ ctx.Reports ∧ ctx'.prNumber = ctx.prNumber)

/-- The ref has four fields, and the third starts with a number. -/
def NumberThird (ref : String) : Prop :=
  ∃ a b number c n, splitFields ref.toList '/' = [a, b, number, c] ∧
    StartsWithInt (String.ofList number) n

/-- **Acceptance**: four fields, the third of which is read. -/
theorem parsePrNumber_eq_ok_iff {ref : String} {n : Int} :
    parsePrNumber ref = .ok n ↔
      ∃ a b number c, splitFields ref.toList '/' = [a, b, number, c] ∧
        StartsWithInt (String.ofList number) n := by
  unfold parsePrNumber
  split
  · rename_i a b number c hfields
    rw [hfields, stoi_eq_ok_iff]
    refine ⟨fun h => ⟨a, b, number, c, rfl, h⟩, ?_⟩
    rintro ⟨_, _, _, _, heq, h⟩
    cases heq
    exact h
  · rename_i hother
    constructor
    · intro h
      cases h
    · rintro ⟨a, b, number, c, hfields, -⟩
      exact absurd hfields (hother a b number c)

theorem parsePrNumber_guarantees (ref : String) :
    Guarantees (parsePrNumber ref) (fun _ => True) Fault.IsException := by
  unfold parsePrNumber
  split
  · exact (stoi_guarantees trivial trivial _).mono (fun _ _ => trivial) (fun _ h => h)
  · exact trivial

theorem toList_repr_natCast (n : Nat) : (n : Int).repr.toList = Nat.toDigits 10 n := by
  show n.repr.toList = Nat.toDigits 10 n
  exact Nat.toList_repr

/-- A merge ref is read as the number in it. -/
theorem parsePrNumber_mergeRef {ref : String} {n : Int} (h : MergeRef ref n) :
    parsePrNumber ref = .ok n := by
  obtain ⟨hpos, hle, rfl⟩ := h
  obtain ⟨k, rfl⟩ := Int.eq_ofNat_of_zero_le (Int.le_of_lt hpos)
  have hdigits : ∀ c ∈ Nat.toDigits 10 k, c.isDigit = true := fun c hc =>
    Nat.isDigit_of_mem_toDigits (by decide) (by decide) hc
  have hslash : '/' ∉ Nat.toDigits 10 k := by
    intro hmem
    exact absurd (hdigits _ hmem) (by decide)
  have hfields : splitFields ("refs/pull/" ++ toString (k : Int) ++ "/merge").toList '/' =
      ["refs".toList, "pull".toList, Nat.toDigits 10 k, "merge".toList] := by
    have hjoined : ("refs/pull/" ++ toString (k : Int) ++ "/merge").toList =
        ['/'].intercalate ["refs".toList, "pull".toList, Nat.toDigits 10 k, "merge".toList] := by
      simp [toList_repr_natCast, List.intercalate]
    rw [hjoined, splitFields]
    apply List.splitOn_intercalate
    · simpa using hslash
    · simp
  rw [parsePrNumber_eq_ok_iff]
  refine ⟨_, _, _, _, hfields, [], [], Nat.toDigits 10 k, [], by simp, by simp, by simp,
    Nat.toDigits_ne_nil, hdigits, by simp, ?_, by omega, by omega⟩
  simp [decimalValue_toDigits]

/-- What `fill_context` stores for an event with a number. -/
theorem fillContext_prNumber {env : GithubEnv} {ctx ctx' : RuntimeContext}
    (hevent : env.eventName ∈ githubEventsWithPrNumber) (h : fillContext env ctx = .ok ctx') :
    (ctx.Reports ∧ parsePrNumber env.githubRef = .ok ctx'.prNumber) ∨
      (¬ ctx.Reports ∧ ctx'.prNumber = ctx.prNumber) := by
  have hcontains : githubEventsWithPrNumber.contains env.eventName = true :=
    List.contains_iff_mem.mpr hevent
  unfold fillContext at h
  simp only [hcontains, Bool.true_and, Bool.or_eq_true] at h
  split at h
  · rename_i hreports
    obtain ⟨prNumber, hprNumber, h⟩ := bind_eq_ok.mp h
    cases h
    exact .inl ⟨hreports, hprNumber⟩
  · rename_i hreports
    cases h
    exact .inr ⟨hreports, rfl⟩

/-- `parse_pr_number` takes a ref for what it is exactly when it is a merge
ref, has not four fields, or has no number at the start of the third. -/
theorem readsMergeRefs_iff (ref : String) :
    ReadsMergeRefs ref ↔ (∃ n, MergeRef ref n) ∨ ¬ NumberThird ref := by
  constructor
  · intro h
    rw [or_iff_not_imp_right, not_not]
    rintro ⟨a, b, number, c, n, hfields, hnumber⟩
    have hok : parsePrNumber ref = .ok n :=
      parsePrNumber_eq_ok_iff.mpr ⟨a, b, number, c, hfields, hnumber⟩
    exact ⟨n, (h.accepted n).mp hok⟩
  · intro hcondition
    have hmerge : ∀ n, parsePrNumber ref = .ok n → MergeRef ref n := by
      intro n hok
      rcases hcondition with ⟨m, hm⟩ | hnot
      · rw [parsePrNumber_mergeRef hm] at hok
        cases hok
        exact hm
      · obtain ⟨a, b, number, c, hfields, hnumber⟩ := parsePrNumber_eq_ok_iff.mp hok
        exact absurd ⟨a, b, number, c, n, hfields, hnumber⟩ hnot
    refine ⟨fun n => ⟨hmerge n, parsePrNumber_mergeRef⟩, ?_, ?_⟩
    · intro hno
      cases hread : parsePrNumber ref with
      | ok n => exact absurd (hmerge n hread) (hno n)
      | error f => exact ⟨f, rfl, (parsePrNumber_guarantees ref).of_error hread⟩
    · rintro env ctx ctx' rfl hevent hfill
      rcases fillContext_prNumber hevent hfill with ⟨hreports, hread⟩ | hkept
      · exact .inl ⟨hreports, hmerge _ hread⟩
      · exact .inr hkept

/-- A pull request that targets the branch `2024/main`, under
`pull_request_target`. -/
theorem not_readsMergeRefs_baseBranch : ¬ ReadsMergeRefs "refs/heads/2024/main" := by
  intro h
  obtain ⟨-, -, href⟩ := (h.accepted 2024).mp (by decide)
  exact absurd href (by decide)

end CppLint.Github
