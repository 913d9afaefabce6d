/-
CppLint.Lib.Loop — the `for` loop with an early `return`.

A body takes an element and the loop's state and says whether the loop goes
on (`Flow.next`) or the enclosing function returns (`Flow.ret`); it may also
throw. `forEach` runs a body over a list, and `after` is what the function
does once the list is exhausted.

`forEach_guarantees` is the invariant rule. Its invariant sees the elements
already passed, so a postcondition may speak about exactly the part of the
list the loop has looked at when it returned, and the two ways of returning
stay apart.
-/
import CppLint.Lib.Outcome

namespace CppLint.Lib

universe u

variable {ε : Type u} {α σ ρ : Type}

/-- How one pass through a loop body ends. -/
inductive Flow (σ ρ : Type) where
  | next (s : σ)
  | ret (r : ρ)

/-- `for (a : as) { body } after`, where the body may return early. -/
def forEach (body : α → σ → Except ε (Flow σ ρ)) (after : σ → ρ) :
    List α → σ → Except ε ρ
  | [], s => .ok (after s)
  | a :: as, s =>
      match body a s with
      | .error e => .error e
      | .ok (.ret r) => .ok r
      | .ok (.next s') => forEach body after as s'

/-- The postcondition one pass must meet: the invariant with the element
added to those passed, or the function's postcondition at those passed and
this one. -/
def Flow.Meets (I : List α → σ → Prop) (Q : List α → ρ → Prop) (done : List α) (a : α) :
    Flow σ ρ → Prop
  | .next s => I (done ++ [a]) s
  | .ret r => Q (done ++ [a]) r

@[simp] theorem Flow.meets_next (I : List α → σ → Prop) (Q : List α → ρ → Prop)
    (done : List α) (a : α) (s : σ) :
    Flow.Meets I Q done a (.next s) ↔ I (done ++ [a]) s := Iff.rfl

@[simp] theorem Flow.meets_ret (I : List α → σ → Prop) (Q : List α → ρ → Prop)
    (done : List α) (a : α) (r : ρ) :
    Flow.Meets I Q done a (.ret r : Flow σ ρ) ↔ Q (done ++ [a]) r := Iff.rfl

/-- The invariant rule, from any point of the loop on. -/
theorem forEach_guarantees_from {body : α → σ → Except ε (Flow σ ρ)} {after : σ → ρ}
    {I : List α → σ → Prop} {Q : List α → ρ → Prop} {E : ε → Prop} (all : List α)
    (hbody : ∀ done a s, a ∈ all → I done s →
      Guarantees (body a s) (Flow.Meets I Q done a) E) :
    ∀ (as done : List α) (s : σ), all = done ++ as → I done s →
      Guarantees (forEach body after as s)
        (fun r => (∃ s', I all s' ∧ r = after s') ∨ ∃ passed, passed <+: all ∧ Q passed r) E := by
  intro as
  induction as with
  | nil =>
      intro done s hall hs
      have hdone : all = done := by simpa using hall
      exact .inl ⟨s, by rw [hdone]; exact hs, rfl⟩
  | cons a as ih =>
      intro done s hall hs
      have hmem : a ∈ all := by rw [hall]; simp
      have hstep := hbody done a s hmem hs
      rw [forEach]
      cases hb : body a s with
      | error e => exact hstep.of_error hb
      | ok fl =>
          have hmeets := hstep.of_ok hb
          cases fl with
          | ret r => exact .inr ⟨done ++ [a], ⟨as, by simp [hall]⟩, hmeets⟩
          | next s' => exact ih (done ++ [a]) s' (by simp [hall]) hmeets

/-- The invariant rule: a loop that returns has either run over the whole
list, and the invariant holds of the state `after` was applied to, or it has
left early, and the body's postcondition holds of the elements passed. -/
theorem forEach_guarantees {body : α → σ → Except ε (Flow σ ρ)} {after : σ → ρ}
    {I : List α → σ → Prop} {Q : List α → ρ → Prop} {E : ε → Prop} (as : List α)
    (hbody : ∀ done a s, a ∈ as → I done s → Guarantees (body a s) (Flow.Meets I Q done a) E)
    (s : σ) (hs : I [] s) :
    Guarantees (forEach body after as s)
      (fun r => (∃ s', I as s' ∧ r = after s') ∨ ∃ passed, passed <+: as ∧ Q passed r) E :=
  forEach_guarantees_from as hbody as [] s rfl hs

/-! ## Two loops, and a loop cut in two -/

/-- Bodies that agree on the elements of the list make the same loop. -/
theorem forEach_congr {body body' : α → σ → Except ε (Flow σ ρ)} (after : σ → ρ) :
    ∀ (as : List α) (s : σ), (∀ a ∈ as, ∀ s, body a s = body' a s) →
      forEach body after as s = forEach body' after as s := by
  intro as
  induction as with
  | nil => intro s _; rfl
  | cons a as ih =>
      intro s h
      rw [forEach, forEach, h a (by simp) s]
      cases body' a s with
      | error e => rfl
      | ok fl =>
          cases fl with
          | ret r => rfl
          | next s' => exact ih s' (fun b hb => h b (by simp [hb]))

/-- Where the first part of the list never returns early, the loop over all
of it runs over that part and goes on from the state it leaves. -/
theorem forEach_append {body : α → σ → Except ε (Flow σ σ)} (after : σ → σ) (bs : List α) :
    ∀ (as : List α) (s : σ), (∀ a ∈ as, ∀ s r, body a s ≠ .ok (.ret r)) →
      forEach body after (as ++ bs) s = forEach body id as s >>= forEach body after bs := by
  intro as
  induction as with
  | nil => intro s _; rfl
  | cons a as ih =>
      intro s h
      rw [List.cons_append, forEach, forEach]
      cases hb : body a s with
      | error e => rfl
      | ok fl =>
          cases fl with
          | ret r => exact absurd hb (h a (by simp) s r)
          | next s' => exact ih s' (fun b hb => h b (by simp [hb]))

end CppLint.Lib
