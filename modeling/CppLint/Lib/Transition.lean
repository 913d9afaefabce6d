/-
CppLint.Lib.Transition — reachable states, invariants and stuck states of
a step relation.

A system is a relation `step` on a type of states. `Reachable step s₀ s` is
Mathlib's reflexive transitive closure; the rules below are the ones a
proof about every run needs: an invariant that holds at the start and is
kept by each step holds in every reachable state, and a state is a deadlock
when it is not final and no step leaves it. `Inevitable` is about what every
order of steps comes to: with a rank that each step lowers, it is enough to
look at the states in which nothing can move. `Trace` is a run of a system
whose steps have labels, with the labels in order, and its invariants may
speak of them.
-/
import Mathlib.Data.List.Forall2
import Mathlib.Logic.Relation

namespace CppLint.Lib

universe u v

variable {S : Type u} {step : S → S → Prop}

/-- `s` is reached from `s₀` in zero or more steps. -/
def Reachable (step : S → S → Prop) (s₀ s : S) : Prop :=
  Relation.ReflTransGen step s₀ s

theorem Reachable.refl (s : S) : Reachable step s s := Relation.ReflTransGen.refl

theorem Reachable.head {s s' s'' : S} (h : step s s') (hr : Reachable step s' s'') :
    Reachable step s s'' := Relation.ReflTransGen.head h hr

/-- **The invariant rule**: what holds at the start and survives each step
holds in every reachable state. -/
theorem Reachable.invariant {I : S → Prop} {s₀ s : S} (hr : Reachable step s₀ s)
    (h₀ : I s₀) (hstep : ∀ s s', I s → step s s' → I s') : I s := by
  induction hr with
  | refl => exact h₀
  | tail _ hst ih => exact hstep _ _ ih hst

/-- No step leaves `s`. -/
def Stuck (step : S → S → Prop) (s : S) : Prop := ∀ s', ¬ step s s'

/-- A state that is not final although nothing can move. -/
def Deadlock (step : S → S → Prop) (final : S → Prop) (s : S) : Prop :=
  ¬ final s ∧ Stuck step s

/-- From `s₀` no deadlock can be reached. -/
def DeadlockFree (step : S → S → Prop) (final : S → Prop) (s₀ : S) : Prop :=
  ∀ s, Reachable step s₀ s → ¬ Deadlock step final s

/-- Deadlock freedom from an invariant under which every state that is not
final has a step. -/
theorem deadlockFree_of_invariant {final : S → Prop} {I : S → Prop} {s₀ : S}
    (h₀ : I s₀) (hstep : ∀ s s', I s → step s s' → I s')
    (hprogress : ∀ s, I s → ¬ final s → ∃ s', step s s') :
    DeadlockFree step final s₀ := by
  rintro s hr ⟨hnf, hstuck⟩
  obtain ⟨s', hs'⟩ := hprogress s (hr.invariant h₀ hstep) hnf
  exact hstuck s' hs'

/-- A deadlock that can be reached after one more step at the front. -/
theorem exists_deadlock_head {final : S → Prop} {s s' : S} (h : step s s')
    (hd : ∃ d, Reachable step s' d ∧ Deadlock step final d) :
    ∃ d, Reachable step s d ∧ Deadlock step final d := by
  obtain ⟨d, hr, hdl⟩ := hd
  exact ⟨d, hr.head h, hdl⟩

/-- Whatever order the steps are taken in, `P` comes to hold. -/
inductive Inevitable (step : S → S → Prop) (P : S → Prop) : S → Prop
  | now {s : S} (h : P s) : Inevitable step P s
  | later {s : S} (hmove : ∃ s', step s s')
      (h : ∀ s', step s s' → Inevitable step P s') : Inevitable step P s

/-- What is inevitable does happen in some run. -/
theorem Inevitable.exists_reachable {P : S → Prop} {s : S} (h : Inevitable step P s) :
    ∃ s', Reachable step s s' ∧ P s' := by
  induction h with
  | now h => exact ⟨_, Reachable.refl _, h⟩
  | later hmove _ ih =>
      obtain ⟨s', hs'⟩ := hmove
      obtain ⟨s'', hr, hP⟩ := ih s' hs'
      exact ⟨s'', hr.head hs', hP⟩

/-- **The termination rule**: when each step lowers a rank, every run comes
to a state in which nothing can move, and what holds in all of those under
the invariant is inevitable. -/
theorem inevitable_of_rank {I P : S → Prop} (rank : S → Nat)
    (hstep : ∀ s s', I s → step s s' → I s')
    (hrank : ∀ s s', step s s' → rank s' < rank s)
    (hstuck : ∀ s, I s → Stuck step s → P s) {s₀ : S} (h₀ : I s₀) :
    Inevitable step P s₀ := by
  induction hn : rank s₀ using Nat.strongRecOn generalizing s₀ with
  | _ n ih =>
      subst hn
      by_cases hmove : ∃ s', step s₀ s'
      · refine .later hmove ?_
        intro s' hs'
        exact ih _ (hrank _ _ hs') (hstep _ _ h₀ hs') rfl
      · exact .now (hstuck s₀ h₀ (fun s' hs' => hmove ⟨s', hs'⟩))

/-! ## Labelled steps -/

section Trace

variable {E : Type v} {step : S → E → S → Prop}

/-- The states reached from `s₀`, each with the labels of the steps taken. -/
inductive Trace (step : S → E → S → Prop) (s₀ : S) : List E → S → Prop
  | nil : Trace step s₀ [] s₀
  | snoc {es : List E} {s s' : S} {e : E} (h : Trace step s₀ es s) (hstep : step s e s') :
      Trace step s₀ (es ++ [e]) s'

/-- The invariant rule, for what depends on the labels so far. -/
theorem Trace.invariant {I : List E → S → Prop} {s₀ s : S} {es : List E}
    (ht : Trace step s₀ es s) (h₀ : I [] s₀)
    (hstep : ∀ es s e s', I es s → step s e s' → I (es ++ [e]) s') : I es s := by
  induction ht with
  | nil => exact h₀
  | snoc _ hst ih => exact hstep _ _ _ _ ih hst

/-- A run of one step. -/
theorem Trace.step_of_singleton {s₀ s : S} {e : E} (h : Trace step s₀ [e] s) : step s₀ e s := by
  generalize hes : [e] = es at h
  cases h with
  | nil => cases hes
  | @snoc es s₁ s e' h hstep =>
      rw [← List.nil_append [e]] at hes
      obtain ⟨rfl, hlast⟩ := List.append_inj' hes rfl
      cases hlast
      generalize hnil : ([] : List E) = es at h
      cases h with
      | nil => exact hstep
      | snoc _ _ => exact absurd hnil.symm (List.append_ne_nil_of_right_ne_nil _ (by simp))

theorem Trace.append {s₀ s s' : S} {es es' : List E} (h : Trace step s₀ es s)
    (h' : Trace step s es' s') : Trace step s₀ (es ++ es') s' := by
  induction h' with
  | nil => rwa [List.append_nil]
  | snoc _ hst ih =>
      rw [← List.append_assoc]
      exact ih.snoc hst

/-- **The refinement rule**: if every step from a state that `R` relates to
one of another system is matched there by some steps, after which `R` holds
again, then so is every run, with `M` between a label and those of its
steps. -/
theorem Trace.refines {A F : Type*} {step' : A → F → A → Prop} {R : S → A → Prop}
    {M : E → List F → Prop}
    (hmatch : ∀ {s e s' a}, R s a → step s e s' →
      ∃ fs a', M e fs ∧ Trace step' a fs a' ∧ R s' a')
    {s₀ s : S} {a₀ : A} {es : List E} (ht : Trace step s₀ es s) (h₀ : R s₀ a₀) :
    ∃ fss a, List.Forall₂ M es fss ∧ Trace step' a₀ fss.flatten a ∧ R s a := by
  induction ht with
  | nil => exact ⟨[], a₀, .nil, .nil, h₀⟩
  | snoc _ hst ih =>
      obtain ⟨fss, a, hall, hfss, hR⟩ := ih
      obtain ⟨fs, a', hfs, htrace, hR'⟩ := hmatch hR hst
      refine ⟨fss ++ [fs], a', List.rel_append hall (.cons hfs .nil), ?_, hR'⟩
      simpa using hfss.append htrace

end Trace

end CppLint.Lib
