/-
CppLint.Lib.Outcome — pre- and postconditions for computations that may
throw.

`Guarantees x Q E` says of a computation `x : Except ε α` that a returned
value satisfies `Q` and that a thrown error satisfies `E`. The rules are
the usual ones: a return, a throw, sequencing, weakening, and a loop that
keeps an invariant. `E` is a predicate, not a list of errors, so a proof
that a whole program never fails in some particular way is carried by one
`E` through every rule.

The second half is about loops that only append to an output list. Such a
loop is the concatenation of what its body emits for each element
(`foldlM_append`), which is the form every statement about "the items
emitted for this element" is read from.
-/
import Mathlib.Data.List.Basic
import Mathlib.Data.List.Forall2
import Mathlib.Data.List.Perm.Basic

namespace CppLint.Lib

universe u v

variable {ε : Type u} {α β γ : Type v}

/-! ## Guarantees -/

/-- `x` returns only values that satisfy `Q` and throws only errors that
satisfy `E`. -/
def Guarantees (x : Except ε α) (Q : α → Prop) (E : ε → Prop) : Prop :=
  match x with
  | .ok a => Q a
  | .error e => E e

@[simp] theorem guarantees_ok (a : α) (Q : α → Prop) (E : ε → Prop) :
    Guarantees (.ok a) Q E ↔ Q a := Iff.rfl

@[simp] theorem guarantees_pure (a : α) (Q : α → Prop) (E : ε → Prop) :
    Guarantees (pure a) Q E ↔ Q a := Iff.rfl

@[simp] theorem guarantees_error (e : ε) (Q : α → Prop) (E : ε → Prop) :
    Guarantees (.error e) Q E ↔ E e := Iff.rfl

/-- Weakening on both sides. -/
theorem Guarantees.mono {x : Except ε α} {Q Q' : α → Prop} {E E' : ε → Prop}
    (h : Guarantees x Q E) (hQ : ∀ a, Q a → Q' a) (hE : ∀ e, E e → E' e) :
    Guarantees x Q' E' := by
  cases x with
  | ok a => exact hQ a h
  | error e => exact hE e h

/-- Sequencing: the continuation may rely on what the first part returns. -/
theorem Guarantees.bind {x : Except ε α} {f : α → Except ε β}
    {Q : α → Prop} {R : β → Prop} {E : ε → Prop}
    (h : Guarantees x Q E) (hf : ∀ a, Q a → Guarantees (f a) R E) :
    Guarantees (x >>= f) R E := by
  cases x with
  | ok a => exact hf a h
  | error e => exact h

/-- Reading a guarantee at a known result. -/
theorem Guarantees.of_ok {x : Except ε α} {Q : α → Prop} {E : ε → Prop} {a : α}
    (h : Guarantees x Q E) (hx : x = .ok a) : Q a := by
  subst hx; exact h

/-- Reading a guarantee at a known error. -/
theorem Guarantees.of_error {x : Except ε α} {Q : α → Prop} {E : ε → Prop} {e : ε}
    (h : Guarantees x Q E) (hx : x = .error e) : E e := by
  subst hx; exact h

/-- What is known of every returned value may be added to a guarantee. -/
theorem Guarantees.and_ok {x : Except ε α} {Q Q' : α → Prop} {E : ε → Prop}
    (h : Guarantees x Q E) (hok : ∀ a, x = .ok a → Q' a) :
    Guarantees x (fun a => Q a ∧ Q' a) E := by
  cases x with
  | ok a => exact ⟨h, hok a rfl⟩
  | error e => exact h

/-- Mapping a total function over a computation. -/
theorem Guarantees.map {x : Except ε α} {f : α → β} {Q : β → Prop} {E : ε → Prop}
    (h : Guarantees x (fun a => Q (f a)) E) : Guarantees (x.map f) Q E := by
  cases x with
  | ok a => exact h
  | error e => exact h

/-- A sequence returns exactly when both parts do. -/
theorem bind_eq_ok {x : Except ε α} {f : α → Except ε β} {b : β} :
    (x >>= f) = .ok b ↔ ∃ a, x = .ok a ∧ f a = .ok b := by
  cases x with
  | ok a => simp [bind, Except.bind]
  | error e => simp [bind, Except.bind]

/-- Mapping a total function over a computation returns exactly when the
computation does. -/
theorem map_eq_ok {x : Except ε α} {f : α → β} {b : β} :
    x.map f = .ok b ↔ ∃ a, x = .ok a ∧ f a = b := by
  cases x with
  | ok a => simp [Except.map]
  | error e => simp [Except.map]

/-- A computation that is seen to return returns something. -/
theorem exists_ok_of_isOk {x : Except ε α} (h : x.isOk = true) : ∃ a, x = .ok a := by
  cases x with
  | ok a => exact ⟨a, rfl⟩
  | error e => cases h

/-- A loop keeps an invariant its body keeps. -/
theorem Guarantees.foldlM {f : β → α → Except ε β} {I : β → Prop} {E : ε → Prop} :
    ∀ (as : List α) (b : β), I b →
      (∀ a ∈ as, ∀ b, I b → Guarantees (f b a) I E) →
      Guarantees (as.foldlM f b) I E
  | [], b, hb, _ => hb
  | a :: as, b, hb, hf => by
      rw [List.foldlM_cons]
      refine Guarantees.bind (hf a (by simp) b hb) (fun b' hb' => ?_)
      exact Guarantees.foldlM as b' hb' (fun x hx => hf x (by simp [hx]))

/-- A search throws only what its test throws. -/
theorem Guarantees.findM? {δ : Type} {p : δ → Except ε Bool} {E : ε → Prop} :
    ∀ (as : List δ), (∀ a ∈ as, Guarantees (p a) (fun _ => True) E) →
      Guarantees (as.findM? p) (fun _ => True) E
  | [], _ => trivial
  | a :: as, h => by
      rw [List.findM?]
      refine Guarantees.bind (h a (by simp)) (fun b _ => ?_)
      cases b with
      | true => trivial
      | false => exact Guarantees.findM? as (fun x hx => h x (by simp [hx]))

/-- A loop that returns has run its body on every element, without a throw. -/
theorem exists_step_of_foldlM_ok {f : β → α → Except ε β} :
    ∀ {as : List α} {b c : β}, as.foldlM f b = .ok c → ∀ a ∈ as, ∃ b₀ b₁, f b₀ a = .ok b₁
  | [], _, _, _, _, ha => by simp at ha
  | x :: xs, b, c, h, a, ha => by
      rw [List.foldlM_cons] at h
      obtain ⟨b', hb', hrest⟩ := bind_eq_ok.mp h
      rcases List.mem_cons.mp ha with rfl | ha
      · exact ⟨b, b', hb'⟩
      · exact exists_step_of_foldlM_ok hrest a ha

/-! ## Loops that only append -/

/-- A loop whose body appends `g a` to the output is the concatenation, in
order, of the outputs of its elements. -/
theorem foldlM_append {f : List β → α → Except ε (List β)} {g : α → Except ε (List β)}
    (h : ∀ acc a, f acc a = (g a).map (acc ++ ·)) :
    ∀ (as : List α) (acc : List β),
      as.foldlM f acc = (as.mapM g).map (fun bss => acc ++ bss.flatten)
  | [], acc => by simp [Except.map, pure, Except.pure]
  | a :: as, acc => by
      rw [List.foldlM_cons, List.mapM_cons, h]
      cases hg : g a with
      | error e => rfl
      | ok bs =>
          show List.foldlM f (acc ++ bs) as = _
          rw [foldlM_append h as (acc ++ bs)]
          cases as.mapM g with
          | error e => rfl
          | ok bss => simp [Except.map, bind, Except.bind, pure, Except.pure]

/-- A loop whose body appends one item is `mapM`. -/
theorem foldlM_concat {f : List β → α → Except ε (List β)} {g : α → Except ε β}
    (h : ∀ acc a, f acc a = (g a).map (fun b => acc ++ [b])) :
    ∀ (as : List α) (acc : List β), as.foldlM f acc = (as.mapM g).map (acc ++ ·)
  | [], acc => by simp [Except.map, pure, Except.pure]
  | a :: as, acc => by
      rw [List.foldlM_cons, List.mapM_cons, h]
      cases g a with
      | error e => rfl
      | ok b =>
          show List.foldlM f (acc ++ [b]) as = _
          rw [foldlM_concat h as (acc ++ [b])]
          cases as.mapM g with
          | error e => rfl
          | ok bs => simp [Except.map, bind, Except.bind, pure, Except.pure]

/-- `mapM` returns exactly the lists that match elementwise. -/
theorem mapM_eq_ok_iff {g : α → Except ε β} :
    ∀ {as : List α} {bs : List β},
      as.mapM g = .ok bs ↔ List.Forall₂ (fun a b => g a = .ok b) as bs
  | [], bs => by
      cases bs <;> simp [pure, Except.pure]
  | a :: as, bs => by
      rw [List.mapM_cons, bind_eq_ok]
      constructor
      · rintro ⟨b, hb, hrest⟩
        obtain ⟨bs', hbs', hpure⟩ := bind_eq_ok.mp hrest
        cases hpure
        exact List.Forall₂.cons hb (mapM_eq_ok_iff.mp hbs')
      · intro h
        cases h with
        | cons hb hbs =>
            exact ⟨_, hb, bind_eq_ok.mpr ⟨_, mapM_eq_ok_iff.mpr hbs, rfl⟩⟩

/-- An element of the first list has a partner in the second. -/
theorem exists_of_forall₂ {R : α → γ → Prop} {as : List α} {cs : List γ}
    (h : List.Forall₂ R as cs) {a : α} (ha : a ∈ as) : ∃ c ∈ cs, R a c := by
  induction h with
  | nil => simp at ha
  | @cons x c xs cs hx _ ih =>
      rcases List.mem_cons.mp ha with rfl | ha
      · exact ⟨c, by simp, hx⟩
      · obtain ⟨c', hmem, hc'⟩ := ih ha
        exact ⟨c', by simp [hmem], hc'⟩

/-- Partners for all elements make a list. -/
theorem forall₂_of_exists {R : α → γ → Prop} :
    ∀ (as : List α), (∀ a ∈ as, ∃ c, R a c) → ∃ cs, List.Forall₂ R as cs
  | [], _ => ⟨[], .nil⟩
  | a :: as, h => by
      obtain ⟨c, hc⟩ := h a (by simp)
      obtain ⟨cs, hcs⟩ := forall₂_of_exists as (fun x hx => h x (by simp [hx]))
      exact ⟨c :: cs, .cons hc hcs⟩

/-- The groups of a permuted list are permuted, and so is their
concatenation. -/
theorem exists_forall₂_flatten_perm {R : α → List γ → Prop} {as as' : List α}
    {groups : List (List γ)} (h : List.Forall₂ R as groups) (hperm : as.Perm as') :
    ∃ groups', List.Forall₂ R as' groups' ∧ groups.flatten.Perm groups'.flatten := by
  obtain ⟨groups', hgroups', hp⟩ := List.perm_comp_forall₂ hperm.symm h
  exact ⟨groups', hgroups', hp.symm.flatten⟩

/-- What the groups hold, each computed from an element. -/
theorem mem_flatten_iff {f : α → Except ε (List β)} {as : List α} {groups : List (List β)}
    (h : List.Forall₂ (fun a own => f a = .ok own) as groups) {b : β} :
    b ∈ groups.flatten ↔ ∃ a ∈ as, ∃ own, f a = .ok own ∧ b ∈ own := by
  induction h with
  | nil => simp
  | @cons a own as groups ha _ ih => simp [ih, ha]

/-- A search whose test never throws is the plain search. -/
theorem findM?_ok {δ : Type} {p : δ → Except ε Bool} {q : δ → Bool} :
    ∀ (as : List δ), (∀ a ∈ as, p a = .ok (q a)) → as.findM? p = .ok (as.find? q)
  | [], _ => rfl
  | a :: as, h => by
      rw [List.findM?, List.find?_cons, h a (by simp)]
      cases q a with
      | true => rfl
      | false => exact findM?_ok as (fun x hx => h x (by simp [hx]))

/-! ## Loops in loops, loops over indices -/

/-- A loop whose body loops over the items of its element is one loop over
all items. -/
theorem foldlM_nested {f : β → α → Except ε β} {g : β → γ → Except ε β} {items : α → List γ} :
    ∀ (as : List α), (∀ a ∈ as, ∀ b, f b a = (items a).foldlM g b) →
      ∀ b, as.foldlM f b = (as.flatMap items).foldlM g b
  | [], _, _ => rfl
  | a :: as, h, b => by
      rw [List.foldlM_cons, List.flatMap_cons, List.foldlM_append, h a (by simp)]
      congr 1
      funext b'
      exact foldlM_nested as (fun x hx => h x (by simp [hx])) b'

/-- A loop over the indices of a list that does at each index what `h` does
with the element there is the loop of `h` over the elements. -/
theorem foldlM_range {g : β → Nat → Except ε β} {h : β → α → Except ε β} (xs : List α)
    (hstep : ∀ i x, xs[i]? = some x → ∀ b, g b i = h b x) (b : β) :
    (List.range xs.length).foldlM g b = xs.foldlM h b := by
  -- `pre` is the part of the list already behind the index
  have hfrom : ∀ (ys pre : List α) (b : β), xs = pre ++ ys →
      (List.range' pre.length ys.length).foldlM g b = ys.foldlM h b := by
    intro ys
    induction ys with
    | nil => intro pre b _; rfl
    | cons y ys ih =>
        intro pre b hsplit
        have hat : xs[pre.length]? = some y := by simp [hsplit]
        have hlen : pre.length + 1 = (pre ++ [y]).length := by simp
        rw [List.length_cons, List.range'_succ, List.foldlM_cons, List.foldlM_cons,
          hstep pre.length y hat, hlen]
        congr 1
        funext b'
        exact ih (pre ++ [y]) b' (by simp [hsplit])
  rw [List.range_eq_range']
  exact hfrom xs [] b rfl

/-- A loop that never throws is the plain fold. -/
theorem foldlM_ok {f : β → α → β} (xs : List α) (b : β) :
    xs.foldlM (fun b x => (Except.ok (f b x) : Except ε β)) b = .ok (xs.foldl f b) := by
  induction xs generalizing b with
  | nil => rfl
  | cons x xs ih =>
      rw [List.foldlM_cons, List.foldl_cons]
      exact ih (f b x)

end CppLint.Lib
