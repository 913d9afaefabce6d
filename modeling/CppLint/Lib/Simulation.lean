/-
CppLint.Lib.Simulation — histories, and simulations between systems.

A system may take steps that nobody outside sees. The label of such a step
is `none`; a history is what is seen of a run, in order. A forward
simulation matches every step of one system by steps of another: a silent
one by any number of silent ones, one that is seen by the same one, with
silent ones before it. Then every history of the first system is a history
of the second (`Simulation.history`), so what is proved of all histories of
the second holds of the first.
-/
import CppLint.Lib.Transition

namespace CppLint.Lib

universe u v w

variable {S : Type u} {A : Type w} {E : Type v}

/-- The states reached from `s₀`, each with what has been seen. -/
inductive History (step : S → Option E → S → Prop) (s₀ : S) : List E → S → Prop
  | start : History step s₀ [] s₀
  | silent {es : List E} {s s' : S} (h : History step s₀ es s) (hstep : step s none s') :
      History step s₀ es s'
  | seen {es : List E} {s s' : S} {e : E} (h : History step s₀ es s)
      (hstep : step s (some e) s') : History step s₀ (es ++ [e]) s'

variable {step : S → Option E → S → Prop} {step' : A → Option E → A → Prop}

/-- The invariant rule for histories. -/
theorem History.invariant {I : List E → S → Prop} {s₀ s : S} {es : List E}
    (h : History step s₀ es s) (h₀ : I [] s₀)
    (hsilent : ∀ es s s', I es s → step s none s' → I es s')
    (hseen : ∀ es s e s', I es s → step s (some e) s' → I (es ++ [e]) s') : I es s := by
  induction h with
  | start => exact h₀
  | silent _ hstep ih => exact hsilent _ _ _ ih hstep
  | seen _ hstep ih => exact hseen _ _ _ _ ih hstep

/-- Steps of which nothing is seen. -/
def Silently (step : S → Option E → S → Prop) (s s' : S) : Prop :=
  Reachable (fun s s' => step s none s') s s'

theorem Silently.refl (s : S) : Silently step s s := Reachable.refl s

theorem Silently.one {s s' : S} (h : step s none s') : Silently step s s' :=
  Relation.ReflTransGen.single h

theorem History.silently {s₀ s s' : S} {es : List E} (h : History step s₀ es s)
    (hs : Silently step s s') : History step s₀ es s' := by
  induction hs with
  | refl => exact h
  | tail _ hstep ih => exact ih.silent hstep

/-- Each step from a state that `R` relates to one of the other system is
matched there, and `R` holds again. -/
structure Simulation (step : S → Option E → S → Prop) (step' : A → Option E → A → Prop)
    (R : S → A → Prop) : Prop where
  silent : ∀ {s s' a}, R s a → step s none s' → ∃ a', Silently step' a a' ∧ R s' a'
  seen : ∀ {s s' e a}, R s a → step s (some e) s' →
    ∃ a₁ a', Silently step' a a₁ ∧ step' a₁ (some e) a' ∧ R s' a'

/-- **The simulation rule**: a history is one of the other system too. -/
theorem Simulation.history {R : S → A → Prop} (hsim : Simulation step step' R) {s₀ s : S}
    {a₀ : A} {es : List E} (h₀ : R s₀ a₀) (h : History step s₀ es s) :
    ∃ a, History step' a₀ es a ∧ R s a := by
  induction h with
  | start => exact ⟨a₀, .start, h₀⟩
  | silent _ hstep ih =>
      obtain ⟨a, ha, hR⟩ := ih
      obtain ⟨a', hsilent, hR'⟩ := hsim.silent hR hstep
      exact ⟨a', ha.silently hsilent, hR'⟩
  | seen _ hstep ih =>
      obtain ⟨a, ha, hR⟩ := ih
      obtain ⟨a₁, a', hsilent, hseen, hR'⟩ := hsim.seen hR hstep
      exact ⟨a', (ha.silently hsilent).seen hseen, hR'⟩

end CppLint.Lib
