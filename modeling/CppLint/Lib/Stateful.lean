/-
CppLint.Lib.Stateful — computations that may throw, on a state that outlives
the throw.

A member function that throws leaves its object, and the world, as they were
at that point. `Stateful ε σ α` is the standard transformer stack for this,
and `runOn` runs it from a state to an outcome and a state, whatever the
outcome. A computation is run piece by piece with `runOn_bind`: a part that
does not touch the state is a `lift`, one that only acts on it a `step`.
-/
import CppLint.Lib.Outcome

namespace CppLint.Lib

/-- A computation on a state of type `σ` that may throw an `ε`. -/
abbrev Stateful (ε σ α : Type) : Type := ExceptT ε (StateM σ) α

namespace Stateful

variable {ε σ α β : Type}

/-- The outcome and the state a computation ends with. -/
def runOn (x : Stateful ε σ α) (s : σ) : Except ε α × σ := (ExceptT.run x).run s

/-- A computation that does not touch the state. -/
def lift (x : Except ε α) : Stateful ε σ α := ExceptT.mk (pure x)

/-- A computation that is a function of the state and does not throw. -/
def step (f : σ → α × σ) : Stateful ε σ α := ExceptT.lift (modifyGet f)

/-- A computation that is only run under a condition. -/
def onlyIf (c : Bool) (x : Stateful ε σ Unit) : Stateful ε σ Unit := if c then x else pure ()

@[simp] theorem runOn_pure (a : α) (s : σ) :
    runOn (pure a : Stateful ε σ α) s = (.ok a, s) := rfl

@[simp] theorem runOn_lift (x : Except ε α) (s : σ) :
    runOn (lift x : Stateful ε σ α) s = (x, s) := rfl

@[simp] theorem runOn_step (f : σ → α × σ) (s : σ) :
    runOn (step f : Stateful ε σ α) s = (.ok (f s).1, (f s).2) := rfl

/-- Sequencing goes on from the state the first part ends in, or stops
there. -/
theorem runOn_bind (x : Stateful ε σ α) (f : α → Stateful ε σ β) (s : σ) :
    runOn (x >>= f) s = match runOn x s with
      | (.ok a, s') => runOn (f a) s'
      | (.error e, s') => (.error e, s') := by
  simp only [runOn, bind, ExceptT.bind, ExceptT.run, ExceptT.mk, StateT.run, StateT.bind]
  cases hx : x s with
  | mk r s' => cases r <;> rfl

/-! ## Outcomes from every state -/

/-- From every state, the computation returns only values that satisfy `Q`
and throws only errors that satisfy `E`. -/
def Ensures (x : Stateful ε σ α) (Q : α → Prop) (E : ε → Prop) : Prop :=
  ∀ s, Guarantees (runOn x s).1 Q E

variable {Q Q' : α → Prop} {R : β → Prop} {E E' : ε → Prop}

theorem ensures_pure {a : α} (h : Q a) : Ensures (pure a : Stateful ε σ α) Q E := fun _ => h

theorem ensures_lift {x : Except ε α} (h : Guarantees x Q E) :
    Ensures (lift x : Stateful ε σ α) Q E := fun _ => h

theorem ensures_step {f : σ → α × σ} (h : ∀ s, Q (f s).1) :
    Ensures (step f : Stateful ε σ α) Q E := fun s => h s

theorem ensures_any (x : Stateful ε σ α) : Ensures x (fun _ => True) (fun _ => True) := by
  intro s
  cases (runOn x s).1 <;> trivial

theorem Ensures.mono {x : Stateful ε σ α} (h : Ensures x Q E) (hQ : ∀ a, Q a → Q' a)
    (hE : ∀ e, E e → E' e) : Ensures x Q' E' := fun s => (h s).mono hQ hE

theorem Ensures.bind {x : Stateful ε σ α} {f : α → Stateful ε σ β} (h : Ensures x Q E)
    (hf : ∀ a, Q a → Ensures (f a) R E) : Ensures (x >>= f) R E := by
  intro s
  have hx := h s
  rw [runOn_bind]
  cases hrun : runOn x s with
  | mk r s' =>
      rw [hrun] at hx
      cases r with
      | ok a => exact hf a hx s'
      | error e => exact hx

/-! ## Outcomes and states from the states of a precondition -/

/-- What an outcome and the state it comes with satisfy. -/
def Post (Q : α → σ → Prop) (E : ε → σ → Prop) : Except ε α × σ → Prop
  | (.ok a, s) => Q a s
  | (.error e, s) => E e s

/-- From every state that satisfies `P`, the computation ends in a value and
a state that satisfy `Q`, or in an error and a state that satisfy `E`. -/
def Triple (P : σ → Prop) (x : Stateful ε σ α) (Q : α → σ → Prop) (E : ε → σ → Prop) : Prop :=
  ∀ s, P s → Post Q E (runOn x s)

section Triple

variable {P P' : σ → Prop} {Q Q' : α → σ → Prop} {R : β → σ → Prop} {E E' : ε → σ → Prop}

theorem triple_pure {a : α} (h : ∀ s, P s → Q a s) :
    Triple P (pure a : Stateful ε σ α) Q E := fun s hs => h s hs

theorem triple_lift {x : Except ε α}
    (h : ∀ s, P s → Guarantees x (fun a => Q a s) (fun e => E e s)) :
    Triple P (lift x : Stateful ε σ α) Q E := by
  intro s hs
  have hx := h s hs
  rw [runOn_lift]
  cases x with
  | ok a => exact hx
  | error e => exact hx

theorem triple_step {f : σ → α × σ} (h : ∀ s, P s → Q (f s).1 (f s).2) :
    Triple P (step f : Stateful ε σ α) Q E := fun s hs => h s hs

theorem Triple.mono {x : Stateful ε σ α} (h : Triple P x Q E) (hP : ∀ s, P' s → P s)
    (hQ : ∀ a s, Q a s → Q' a s) (hE : ∀ e s, E e s → E' e s) : Triple P' x Q' E' := by
  intro s hs
  have hpost := h s (hP s hs)
  cases hrun : runOn x s with
  | mk r s' =>
      rw [hrun] at hpost
      cases r with
      | ok a => exact hQ a s' hpost
      | error e => exact hE e s' hpost

theorem Triple.bind {x : Stateful ε σ α} {f : α → Stateful ε σ β} (h : Triple P x Q E)
    (hf : ∀ a, Triple (Q a) (f a) R E) : Triple P (x >>= f) R E := by
  intro s hs
  have hpost := h s hs
  rw [runOn_bind]
  cases hrun : runOn x s with
  | mk r s' =>
      rw [hrun] at hpost
      cases r with
      | ok a => exact hf a s' hpost
      | error e => exact hpost

end Triple

/-! ## Invariants -/

/-- The computation keeps the invariant `I`, whether it returns or throws,
and throws only errors that satisfy `E`. -/
def Keeps (I : σ → Prop) (x : Stateful ε σ α) (E : ε → Prop) : Prop :=
  Triple I x (fun _ s => I s) (fun e s => E e ∧ I s)

section Keeps

variable {I : σ → Prop} {E E' : ε → Prop}

theorem keeps_pure {a : α} : Keeps I (pure a : Stateful ε σ α) E := triple_pure (fun _ hs => hs)

theorem keeps_lift {x : Except ε α} (h : Guarantees x (fun _ => True) E) :
    Keeps I (lift x : Stateful ε σ α) E :=
  triple_lift (fun _ hs => h.mono (fun _ _ => hs) (fun _ he => ⟨he, hs⟩))

theorem keeps_step {f : σ → α × σ} (h : ∀ s, I s → I (f s).2) :
    Keeps I (step f : Stateful ε σ α) E := triple_step h

theorem Keeps.bind {x : Stateful ε σ α} {f : α → Stateful ε σ β} (h : Keeps I x E)
    (hf : ∀ a, Keeps I (f a) E) : Keeps I (x >>= f) E := Triple.bind h hf

theorem keeps_onlyIf {c : Bool} {x : Stateful ε σ Unit} (h : c = true → Keeps I x E) :
    Keeps I (onlyIf c x) E := by
  cases c with
  | true => exact h rfl
  | false => exact keeps_pure

end Keeps

end Stateful

end CppLint.Lib
