/-
CppLint.Utils.EnvManagerTheorems — the manager is a table of values, to any
number of threads.

What the manager is for has neither a cache nor a mutex in it: a `Store` has
one value for every name, the one that was set or else the one of the
environment, and a call takes effect on it all at once, at some moment
between the call and the return. `manager_atomic` says that every history of
the threads, in any interleaving of their statements, is a history of the
store. The simulation goes through `Represents`: the store's values are
those of the cache over the environment, a thread is past the `lock_guard`
exactly when it holds the mutex, and what such a thread has found out about
the cache is still true. A cached variable and one that is only in the
environment have the same value, so filling the cache is no step of the
store; the call takes effect when its result is known.

That no call waits for ever is `manager_returns`, and for a program that
sets nothing `get_returns_environment` says what its calls return.
-/
import Mathlib.Algebra.Order.BigOperators.Group.Finset
import CppLint.Github.Env
import CppLint.Utils.EnvManager

namespace CppLint.Env

open CppLint.Lib

variable (getenv : String → Option String)

/-! ## What the manager is for -/

/-- What a name stands for when nothing has been set. -/
def environment (name : String) : String := (getenv name).getD ""

/-- Where the call of a thread stands: it has taken effect or not. -/
inductive Phase where
  | idle
  | pending (op : Operation)
  | done (op : Operation) (result : Option String)

/-- A value for every name. -/
structure Store (T : Type) where
  value : String → String
  phase : T → Phase

/-- The effect of a call: what it returns, and the values after it. -/
def Operation.effect : Operation → (String → String) → Option String × (String → String)
  | .get name, value => (some (value name), value)
  | .setCache name v, value => (none, fun name' => if name' = name then v else value name')
  | .replaceCache data, _ =>
      (none, fun name => (data.lookup name).getD (environment getenv name))

variable {T : Type}

/-- The store before the first call. -/
def Store.initial : Store T where
  value := environment getenv
  phase := fun _ => .idle

variable [DecidableEq T]

/-- A step of the store: a call begins, takes effect, or returns. -/
inductive StoreStep : Store T → Option (Event T) → Store T → Prop
  | call {s : Store T} {t : T} (op : Operation) (h : s.phase t = .idle) :
      StoreStep s (some (.called t op)) { s with phase := Function.update s.phase t (.pending op) }
  | effect {s : Store T} {t : T} {op : Operation} (h : s.phase t = .pending op) :
      StoreStep s none
        { value := (op.effect getenv s.value).2
          phase := Function.update s.phase t (.done op (op.effect getenv s.value).1) }
  | finish {s : Store T} {t : T} {op : Operation} {result : Option String}
      (h : s.phase t = .done op result) :
      StoreStep s (some (.returned t op result))
        { s with phase := Function.update s.phase t .idle }

/-! ## One statement -/

/-- Past the `lock_guard`. -/
def Place.Inside : Place → Prop
  | .outside => False
  | .entering _ => False
  | .entered _ => True
  | .missed _ => True
  | .storing _ _ => True
  | .reading _ => True
  | .leaving _ _ => True

/-- What a name stands for, the cache first. -/
def valueOf (cache : Cache) (name : String) : String :=
  (cache.lookup name).getD (environment getenv name)

/-- What is true of the cache at a place of a call that stands so. -/
def Matches (cache : Cache) : Place → Phase → Prop
  | .outside, phase => phase = .idle
  | .entering op, phase => phase = .pending op
  | .entered op, phase => phase = .pending op
  | .missed name, phase => phase = .pending (.get name) ∧ cache.lookup name = none
  | .storing name ret, phase =>
      phase = .pending (.get name) ∧ cache.lookup name = none ∧ getenv name = some ret
  | .reading name, phase => phase = .pending (.get name) ∧ ∃ v, cache.lookup name = some v
  | .leaving op result, phase => phase = .done op result

variable {getenv}

/-- Outside of the lock nothing is known of the cache. -/
theorem Matches.of_outside {cache cache' : Cache} {p : Place} {phase : Phase}
    (h : Matches getenv cache p phase) (hp : ¬ p.Inside) : Matches getenv cache' p phase := by
  cases p with
  | outside => exact h
  | entering op => exact h
  | entered op => exact absurd trivial hp
  | missed name => exact absurd trivial hp
  | storing name ret => exact absurd trivial hp
  | reading name => exact absurd trivial hp
  | leaving op result => exact absurd trivial hp

theorem valueOf_insert (name v : String) (cache : Cache) :
    valueOf getenv (AList.insert name v cache) =
      fun name' => if name' = name then v else valueOf getenv cache name' := by
  funext name'
  unfold valueOf
  rw [UMap.lookup_insert_iff]
  split <;> rfl

/-- A variable of the environment that was not cached has the value it had. -/
theorem valueOf_store {name ret : String} {cache : Cache} (hmiss : cache.lookup name = none)
    (hret : getenv name = some ret) :
    valueOf getenv (AList.insert name ret cache) = valueOf getenv cache := by
  rw [valueOf_insert]
  funext name'
  split
  · rename_i heq
    subst heq
    simp [valueOf, hmiss, environment, hret]
  · rfl

/-- The statements are those between the `lock_guard` and the end of its
scope. -/
theorem statement_inside {cache cache' : Cache} {p p' : Place}
    (hstatement : statement getenv p cache = some (p', cache')) : p.Inside ∧ p'.Inside := by
  cases p with
  | outside => cases hstatement
  | entering op => cases hstatement
  | leaving op result => cases hstatement
  | entered op =>
      cases op with
      | get name =>
          simp only [statement, Option.some.injEq, Prod.mk.injEq] at hstatement
          obtain ⟨rfl, -⟩ := hstatement
          split <;> exact ⟨trivial, trivial⟩
      | setCache name v =>
          cases hstatement
          exact ⟨trivial, trivial⟩
      | replaceCache data =>
          cases hstatement
          exact ⟨trivial, trivial⟩
  | missed name =>
      simp only [statement] at hstatement
      split at hstatement <;> cases hstatement <;> exact ⟨trivial, trivial⟩
  | storing name ret =>
      cases hstatement
      exact ⟨trivial, trivial⟩
  | reading name =>
      cases hstatement
      exact ⟨trivial, trivial⟩

/-- **One statement**: either nothing changes for the store, or the call
takes effect. -/
theorem statement_matches {cache cache' : Cache} {p p' : Place} {phase : Phase}
    (hstatement : statement getenv p cache = some (p', cache'))
    (h : Matches getenv cache p phase) :
    (Matches getenv cache' p' phase ∧ valueOf getenv cache' = valueOf getenv cache) ∨
      ∃ op, phase = .pending op ∧
        Matches getenv cache' p' (.done op (op.effect getenv (valueOf getenv cache)).1) ∧
        valueOf getenv cache' = (op.effect getenv (valueOf getenv cache)).2 := by
  cases p with
  | outside => cases hstatement
  | entering op => cases hstatement
  | leaving op result => cases hstatement
  | entered op =>
      cases op with
      | get name =>
          simp only [statement, Option.some.injEq, Prod.mk.injEq] at hstatement
          obtain ⟨rfl, rfl⟩ := hstatement
          split
          · rename_i hmem
            exact .inl ⟨⟨h, (UMap.mem_iff_lookup _ _).mp hmem⟩, rfl⟩
          · rename_i hmiss
            exact .inl ⟨⟨h, AList.lookup_eq_none.mpr hmiss⟩, rfl⟩
      | setCache name v =>
          cases hstatement
          exact .inr ⟨_, h, rfl, valueOf_insert _ _ _⟩
      | replaceCache data =>
          cases hstatement
          exact .inr ⟨_, h, rfl, rfl⟩
  | missed name =>
      obtain ⟨hphase, hmiss⟩ := h
      simp only [statement] at hstatement
      split at hstatement
      · rename_i hnone
        cases hstatement
        refine .inr ⟨_, hphase, ?_, rfl⟩
        simp [Matches, Operation.effect, valueOf, hmiss, environment, hnone]
      · rename_i ret hret
        cases hstatement
        exact .inl ⟨⟨hphase, hmiss, hret⟩, rfl⟩
  | storing name ret =>
      obtain ⟨hphase, hmiss, hret⟩ := h
      cases hstatement
      exact .inl ⟨⟨hphase, ret, AList.lookup_insert _⟩, valueOf_store hmiss hret⟩
  | reading name =>
      obtain ⟨hphase, v, hv⟩ := h
      cases hstatement
      refine .inr ⟨_, hphase, ?_, ?_⟩
      · simp [Matches, Operation.effect, valueOf, readCache, hv]
      · simp [Operation.effect, readCache, hv]

/-! ## One call alone -/

variable (getenv) in
/-- One statement after another, with nothing in between. -/
def Runs (before after : Place × Cache) : Prop :=
  Reachable (fun s s' => statement getenv s.1 s.2 = some s') before after

/-- The statements of a call, run without a break, are the member
function. -/
theorem runs_operation (op : Operation) (cache : Cache) :
    Runs getenv (.entered op, cache)
      (.leaving op (op.run getenv cache).1, (op.run getenv cache).2) := by
  cases op with
  | get name =>
      by_cases hmem : name ∈ cache
      · have htest : statement getenv (.entered (.get name)) cache =
            some (.reading name, cache) := by simp [statement, hmem]
        refine Reachable.head htest (Reachable.head rfl ?_)
        simp only [Operation.run, Env.get, if_pos hmem]
        exact Reachable.refl _
      · have htest : statement getenv (.entered (.get name)) cache =
            some (.missed name, cache) := by simp [statement, hmem]
        refine Reachable.head htest ?_
        cases hret : getenv name with
        | none =>
            have hcall : statement getenv (.missed name) cache =
                some (.leaving (.get name) (some ""), cache) := by simp [statement, hret]
            refine Reachable.head hcall ?_
            simp only [Operation.run, Env.get, if_neg hmem, hret]
            exact Reachable.refl _
        | some ret =>
            have hcall : statement getenv (.missed name) cache =
                some (.storing name ret, cache) := by simp [statement, hret]
            refine Reachable.head hcall (Reachable.head rfl (Reachable.head rfl ?_))
            simp only [Operation.run, Env.get, if_neg hmem, hret]
            exact Reachable.refl _
  | setCache name value => exact Reachable.head rfl (Reachable.refl _)
  | replaceCache data => exact Reachable.head rfl (Reachable.refl _)

/-- A variable that is read has its value, and every other one keeps its
own. -/
theorem get_eq (name : String) (cache : Cache) :
    (Env.get getenv name cache).1 = valueOf getenv cache name ∧
      valueOf getenv (Env.get getenv name cache).2 = valueOf getenv cache := by
  unfold Env.get
  split
  · rename_i hmem
    obtain ⟨v, hv⟩ := (UMap.mem_iff_lookup _ _).mp hmem
    simp [readCache, hv, valueOf]
  · rename_i hmem
    have hmiss : cache.lookup name = none := AList.lookup_eq_none.mpr hmem
    split
    · rename_i hnone
      simp [valueOf, hmiss, environment, hnone]
    · rename_i ret hret
      refine ⟨?_, ?_⟩
      · simp [readCache, valueOf, hmiss, environment, hret]
      · simpa [readCache] using valueOf_store hmiss hret

/-- Through the manager, `read_env` reads the values of the cache over the
environment; before anything is set these are the values of the
environment. -/
theorem readVariables_eq (cache : Cache) :
    (Github.readVariables getenv cache).1 = Github.githubEnv (valueOf getenv cache) := by
  simp only [Github.readVariables, bind, StateT.bind, (get_eq _ _).1, (get_eq _ _).2]
  rfl

theorem valueOf_empty : valueOf getenv ∅ = environment getenv := by
  funext name
  simp [valueOf]

/-! ## All threads -/

/-- The threads past the `lock_guard` are those that hold the mutex. -/
def Manager.Guarded (m : Manager T) : Prop := ∀ t, (m.place t).Inside ↔ m.mutex = some t

/-- Moving one thread, the others being where they are. -/
theorem forall_update {β : Type} {place place' : T → β} {R : T → β → Prop} {t : T} {p : β}
    (hself : R t p) (hothers : ∀ u, u ≠ t → R u (place u))
    (h : place' = Function.update place t p) : ∀ u, R u (place' u) := by
  intro u
  by_cases hu : u = t
  · subst hu
    rw [h, Function.update_self]
    exact hself
  · rw [h, Function.update_of_ne hu]
    exact hothers u hu

/-- A step of a thread keeps the guard: one that stays out of the lock, takes
the free lock, stays in it, or gives it back. -/
theorem ManagerStep.guarded {m m' : Manager T} {e : Option (Event T)}
    (hstep : ManagerStep getenv m e m') (h : m.Guarded) : m'.Guarded := by
  cases hstep with
  | @call t op hplace =>
      have hout : m.mutex ≠ some t := by
        rw [Ne, ← h t, hplace]
        exact id
      exact forall_update (p := .entering op) (R := fun u p => Place.Inside p ↔ m.mutex = some u)
        ⟨False.elim, fun hm => hout hm⟩ (fun u _ => h u) rfl
  | @lock t op hplace hfree =>
      refine forall_update (p := .entered op) (R := fun u p => Place.Inside p ↔ some t = some u)
        ⟨fun _ => rfl, fun _ => trivial⟩ (fun u hu => ?_) rfl
      rw [h u, hfree]
      exact ⟨nofun, fun heq => absurd (Option.some.inj heq).symm hu⟩
  | @execute t p cache hstatement =>
      have hinside := statement_inside hstatement
      exact forall_update (R := fun u p => Place.Inside p ↔ m.mutex = some u)
        ⟨fun _ => (h t).mp hinside.1, fun _ => hinside.2⟩ (fun u _ => h u) rfl
  | @unlock t op result hplace =>
      have hheld : m.mutex = some t := by
        rw [← h t, hplace]
        trivial
      refine forall_update (p := .outside) (R := fun u p => Place.Inside p ↔ none = some u)
        ⟨False.elim, nofun⟩ (fun u hu => ?_) rfl
      rw [h u, hheld]
      exact ⟨fun heq => absurd (Option.some.inj heq).symm hu, nofun⟩

variable (getenv) in
/-- The store a manager stands for. -/
structure Represents (m : Manager T) (s : Store T) : Prop where
  value : s.value = valueOf getenv m.cache
  guarded : m.Guarded
  phase : ∀ t, Matches getenv m.cache (m.place t) (s.phase t)

/-- **The simulation.** A call takes effect with the statement that settles
its result. -/
theorem represents_simulation :
    Simulation (ManagerStep (T := T) getenv) (StoreStep getenv) (Represents getenv) where
  silent := by
    intro m m' s hrep hstep
    have hguarded := hstep.guarded hrep.guarded
    cases hstep with
    | @lock t op hplace hfree =>
        have hphase := hrep.phase t
        rw [hplace] at hphase
        refine ⟨s, .refl s, hrep.value, hguarded, ?_⟩
        exact forall_update (p := .entered op)
          (R := fun u p => Matches getenv m.cache p (s.phase u)) hphase
          (fun u _ => hrep.phase u) rfl
    | @execute t p cache hstatement =>
        have hinside := (statement_inside hstatement).1
        -- the others are not past the lock, so nothing they know is lost
        have hothers : ∀ u, u ≠ t → Matches getenv cache (m.place u) (s.phase u) := by
          intro u hu
          refine (hrep.phase u).of_outside (fun hu' => hu ?_)
          have hheld := (hrep.guarded t).mp hinside
          rw [(hrep.guarded u).mp hu'] at hheld
          exact Option.some.inj hheld
        rcases statement_matches hstatement (hrep.phase t) with ⟨hmatches, hvalue⟩ |
          ⟨op, hpending, hmatches, hvalue⟩
        · refine ⟨s, .refl s, hrep.value.trans hvalue.symm, hguarded, ?_⟩
          exact forall_update (R := fun u p => Matches getenv cache p (s.phase u)) hmatches
            hothers rfl
        · refine ⟨_, .one (.effect hpending), ?_, hguarded, fun u => ?_⟩
          · rw [hrep.value]
            exact hvalue.symm
          · by_cases hu : u = t
            · subst hu
              simpa [Manager.move, hrep.value] using hmatches
            · simpa [Manager.move, hu] using hothers u hu
  seen := by
    intro m m' e s hrep hstep
    have hguarded := hstep.guarded hrep.guarded
    cases hstep with
    | @call t op hplace =>
        have hidle := hrep.phase t
        rw [hplace] at hidle
        refine ⟨s, _, .refl s, .call op hidle, hrep.value, hguarded, fun u => ?_⟩
        by_cases hu : u = t
        · subst hu
          simp [Manager.move, Matches]
        · simpa [Manager.move, hu] using hrep.phase u
    | @unlock t op result hplace =>
        have hdone := hrep.phase t
        rw [hplace] at hdone
        refine ⟨s, _, .refl s, .finish hdone, hrep.value, hguarded, fun u => ?_⟩
        by_cases hu : u = t
        · subst hu
          simp [Manager.move, Matches]
        · simpa [Manager.move, hu] using hrep.phase u

theorem guarded_initial {T : Type} : (Manager.initial : Manager T).Guarded :=
  fun _ => ⟨False.elim, nofun⟩

theorem represents_initial {T : Type} :
    Represents getenv (Manager.initial : Manager T) (.initial getenv) :=
  ⟨rfl, guarded_initial, fun _ => rfl⟩

/-- **The manager is the store.** Whatever the threads do and however their
statements interleave, what they see is a history of the store: every call
takes effect all at once between its beginning and its return. -/
theorem manager_atomic {es : List (Event T)} {m : Manager T}
    (h : History (ManagerStep getenv) .initial es m) :
    ∃ s, History (StoreStep getenv) (.initial getenv) es s ∧ Represents getenv m s :=
  represents_simulation.history represents_initial h

/-! ## Every call returns -/

/-- Steps a call at this place has before it. -/
def Place.stepsLeft : Place → Nat
  | .outside => 0
  | .entering _ => 6
  | .entered _ => 5
  | .missed _ => 4
  | .storing _ _ => 3
  | .reading _ => 2
  | .leaving _ _ => 1

theorem statement_stepsLeft {cache cache' : Cache} {p p' : Place}
    (h : statement getenv p cache = some (p', cache')) : p'.stepsLeft < p.stepsLeft := by
  cases p with
  | outside => cases h
  | entering op => cases h
  | leaving op result => cases h
  | entered op =>
      cases op with
      | get name =>
          simp only [statement, Option.some.injEq, Prod.mk.injEq] at h
          obtain ⟨rfl, -⟩ := h
          split <;> simp [Place.stepsLeft]
      | setCache name v =>
          cases h
          simp [Place.stepsLeft]
      | replaceCache data =>
          cases h
          simp [Place.stepsLeft]
  | missed name =>
      simp only [statement] at h
      split at h <;> cases h <;> simp [Place.stepsLeft]
  | storing name ret =>
      cases h
      simp [Place.stepsLeft]
  | reading name =>
      cases h
      simp [Place.stepsLeft]

/-- A thread past the `lock_guard` has a statement, or is at the end. -/
theorem exists_statement {p : Place} (hinside : p.Inside) (cache : Cache) :
    (∃ op result, p = .leaving op result) ∨ ∃ next, statement getenv p cache = some next := by
  cases p with
  | outside => exact hinside.elim
  | entering op => exact hinside.elim
  | leaving op result => exact .inl ⟨op, result, rfl⟩
  | entered op => cases op <;> exact .inr ⟨_, rfl⟩
  | missed name =>
      refine .inr ?_
      simp only [statement]
      split <;> exact ⟨_, rfl⟩
  | storing name ret => exact .inr ⟨_, rfl⟩
  | reading name => exact .inr ⟨_, rfl⟩

variable (getenv) in
/-- A step of a call that has begun. -/
def Ongoing (m m' : Manager T) : Prop :=
  ∃ e, (∀ t op, e ≠ some (.called t op)) ∧ ManagerStep getenv m e m'

/-- A step of a call that has begun moves one thread, and closer to its
return. -/
theorem Ongoing.exists_move {m m' : Manager T} (h : Ongoing getenv m m') :
    ∃ t p, m'.place = Function.update m.place t p ∧ p.stepsLeft < (m.place t).stepsLeft := by
  obtain ⟨e, hnew, hstep⟩ := h
  cases hstep with
  | call op hplace => exact absurd rfl (hnew _ op)
  | @lock t op hplace hfree =>
      refine ⟨t, .entered op, rfl, ?_⟩
      rw [hplace]
      simp [Place.stepsLeft]
  | @execute t p cache hstatement => exact ⟨t, p, rfl, statement_stepsLeft hstatement⟩
  | @unlock t op result hplace =>
      refine ⟨t, .outside, rfl, ?_⟩
      rw [hplace]
      simp [Place.stepsLeft]

theorem Ongoing.guarded {m m' : Manager T} (hstep : Ongoing getenv m m') (h : m.Guarded) :
    m'.Guarded := by
  obtain ⟨e, -, hstep⟩ := hstep
  exact hstep.guarded h

/-- When no call can go on, there is none. -/
theorem outside_of_stuck {m : Manager T} (h : m.Guarded) (hstuck : Stuck (Ongoing getenv) m) :
    ∀ t, m.place t = .outside := by
  have hmove : ∀ {e m'}, ManagerStep getenv m e m' → (∀ t op, e ≠ some (.called t op)) → False :=
    fun hstep hnew => hstuck _ ⟨_, hnew, hstep⟩
  have hnobody : ∀ t, ¬ (m.place t).Inside := by
    intro t hinside
    have hstatement : (∃ op result, m.place t = .leaving op result) ∨
        ∃ next, statement getenv (m.place t) m.cache = some next := exists_statement hinside m.cache
    rcases hstatement with ⟨op, result, hplace⟩ | ⟨next, hnext⟩
    · exact hmove (.unlock hplace) nofun
    · exact hmove (.execute hnext) nofun
  intro t
  have ht := hnobody t
  cases hplace : m.place t with
  | outside => rfl
  | entering op =>
      have hfree : m.mutex = none := by
        cases hmutex : m.mutex with
        | none => rfl
        | some u => exact absurd ((h u).mpr hmutex) (hnobody u)
      exact (hmove (.lock hplace hfree) nofun).elim
  | _ =>
      rw [hplace] at ht
      exact absurd trivial ht

/-- **No call waits for ever.** From every state the threads can get into,
in every order of steps, the calls that have begun all return. -/
theorem manager_returns [Fintype T] {es : List (Event T)} {m : Manager T}
    (h : History (ManagerStep getenv) .initial es m) :
    Inevitable (Ongoing getenv) (fun m => ∀ t, m.place t = .outside) m := by
  have hguarded : m.Guarded := h.invariant (I := fun _ m => m.Guarded) guarded_initial
    (fun _ _ _ hm hstep => hstep.guarded hm) (fun _ _ _ _ hm hstep => hstep.guarded hm)
  refine inevitable_of_rank (I := Manager.Guarded)
    (fun m => Finset.univ.sum (fun t => (m.place t).stepsLeft))
    (fun _ _ hm hstep => hstep.guarded hm) (fun m m' hstep => ?_)
    (fun _ hm hstuck => outside_of_stuck hm hstuck) hguarded
  obtain ⟨t, p, hplace, hless⟩ := hstep.exists_move
  have hle : ∀ u, (m'.place u).stepsLeft ≤ (m.place u).stepsLeft := by
    refine forall_update (p := p) (R := fun u p => Place.stepsLeft p ≤ (m.place u).stepsLeft)
      hless.le (fun _ _ => le_rfl) hplace
  refine Finset.sum_lt_sum (fun u _ => hle u) ⟨t, Finset.mem_univ t, ?_⟩
  rw [hplace, Function.update_self]
  exact hless

/-! ## Variables that are not set -/

/-- The call gives the name a value of its own. -/
def Operation.Sets (name : String) : Operation → Prop
  | .get _ => False
  | .setCache name' _ => name' = name
  | .replaceCache data => name ∈ data

theorem effect_of_not_sets {name : String} {op : Operation} {value : String → String}
    (hnot : ¬ op.Sets name) (h : value name = environment getenv name) :
    (op.effect getenv value).2 name = environment getenv name := by
  cases op with
  | get name' => exact h
  | setCache name' v =>
      have hne : ¬ name = name' := fun heq => hnot heq.symm
      simpa [Operation.effect, hne] using h
  | replaceCache data =>
      have hmiss : data.lookup name = none := AList.lookup_eq_none.mpr hnot
      simp [Operation.effect, hmiss]

variable (getenv) in
/-- A call that does not set the name, and has found the value of the
environment if it asked for it. -/
def Phase.Leaves (name : String) : Phase → Prop
  | .idle => True
  | .pending op => ¬ op.Sets name
  | .done op result => op = .get name → result = some (environment getenv name)

variable (getenv) in
/-- The name has kept the value of the environment, and every call that
asked for it has found that value. -/
structure Untouched (name : String) (es : List (Event T)) (s : Store T) : Prop where
  value : s.value name = environment getenv name
  phase : ∀ t, (s.phase t).Leaves getenv name
  returned : ∀ t result, .returned t (.get name) result ∈ es →
    result = some (environment getenv name)

section Untouched

variable {name : String} {es : List (Event T)} {s s' : Store T} {t : T} {op : Operation}

/-- The phase of one thread changes. -/
theorem Untouched.update (h : Untouched getenv name es s) {p : Phase} (hp : p.Leaves getenv name) :
    ∀ u, (Function.update s.phase t p u).Leaves getenv name :=
  forall_update (R := fun _ p => Phase.Leaves getenv name p) hp (fun u _ => h.phase u) rfl

theorem Untouched.silent (h : Untouched getenv name es s) (hstep : StoreStep getenv s none s') :
    Untouched getenv name es s' := by
  cases hstep with
  | @effect t op hpending =>
      have hnot := h.phase t
      rw [hpending] at hnot
      refine ⟨effect_of_not_sets hnot h.value, h.update ?_, h.returned⟩
      intro hop
      subst hop
      exact congrArg some h.value

theorem Untouched.call (h : Untouched getenv name es s) (hop : ¬ op.Sets name) :
    Untouched getenv name (es ++ [.called t op])
      { s with phase := Function.update s.phase t (.pending op) } := by
  refine ⟨h.value, h.update hop, ?_⟩
  intro u result hmem
  exact h.returned u result (by simpa using hmem)

theorem Untouched.finish {result : Option String} (h : Untouched getenv name es s)
    (hdone : s.phase t = .done op result) :
    Untouched getenv name (es ++ [.returned t op result])
      { s with phase := Function.update s.phase t .idle } := by
  refine ⟨h.value, h.update trivial, ?_⟩
  intro u result' hmem
  rcases List.mem_append.mp hmem with hmem | hmem
  · exact h.returned u result' hmem
  · simp only [List.mem_singleton, Event.returned.injEq] at hmem
    obtain ⟨rfl, rfl, rfl⟩ := hmem
    have hfound := h.phase u
    rw [hdone] at hfound
    exact hfound rfl

end Untouched

/-- **Where nobody sets it**, a variable has the value of the environment, or
is empty, in every call of every thread. -/
theorem get_returns_environment {es : List (Event T)} {m : Manager T} {name : String}
    (h : History (ManagerStep getenv) .initial es m)
    (hkeeps : ∀ t op, .called t op ∈ es → ¬ op.Sets name) {t : T} {result : Option String}
    (hreturned : .returned t (.get name) result ∈ es) :
    result = some (environment getenv name) := by
  obtain ⟨s, hs, -⟩ := represents_simulation.history represents_initial h
  have huntouched : (∀ t op, Event.called t op ∈ es → ¬ op.Sets name) →
      Untouched getenv name es s := by
    refine hs.invariant (I := fun es s =>
      (∀ t op, Event.called t op ∈ es → ¬ op.Sets name) → Untouched getenv name es s)
      (fun _ => ⟨rfl, fun _ => trivial, nofun⟩) ?_ ?_
    · intro es s s' ih hstep hkeeps
      exact (ih hkeeps).silent hstep
    · intro es s e s' ih hstep hkeeps
      have hs := ih (fun t op hcalled => hkeeps t op (List.mem_append_left _ hcalled))
      cases hstep with
      | @call t op hidle => exact hs.call (hkeeps t op (by simp))
      | finish hdone => exact hs.finish hdone
  exact (huntouched hkeeps).returned t result hreturned

/-! ## Two threads -/

/-- An environment with one variable. -/
def homeEnv : String → Option String
  | "HOME" => some "/root"
  | _ => none

/-- One thread asks for the variable, another one sets something else and
does not get the mutex while the first one has it. -/
def homeEvents : List (Event Bool) :=
  [.called false (.get "HOME"), .called true (.setCache "CC" "clang"),
   .returned false (.get "HOME") (some "/root")]

theorem exists_history_homeEvents :
    ∃ m, History (ManagerStep homeEnv) .initial homeEvents m := by
  have hcalled : History (ManagerStep homeEnv) .initial
      [.called false (.get "HOME"), .called true (.setCache "CC" "clang")] _ :=
    (History.start.seen (.call (.get "HOME") rfl)).seen (.call (.setCache "CC" "clang") rfl)
  have hmissed := (hcalled.silent (.lock (t := false) rfl rfl)).silent (.execute (t := false) rfl)
  have hread := (hmissed.silent (.execute (t := false) rfl)).silent (.execute (t := false) rfl)
  exact ⟨_, (hread.silent (.execute (t := false) rfl)).seen (.unlock (t := false) rfl)⟩

theorem manager_atomic_homeEvents :
    ∃ m s, History (StoreStep homeEnv) (.initial homeEnv) homeEvents s ∧
      Represents homeEnv m s := by
  obtain ⟨m, h⟩ := exists_history_homeEvents
  exact ⟨m, manager_atomic h⟩

theorem manager_returns_homeEvents :
    ∃ m, History (ManagerStep homeEnv) .initial homeEvents m ∧
      Inevitable (Ongoing homeEnv) (fun m => ∀ t, m.place t = .outside) m := by
  obtain ⟨m, h⟩ := exists_history_homeEvents
  exact ⟨m, h, manager_returns h⟩

theorem get_returns_environment_homeEvents :
    ∃ m, History (ManagerStep homeEnv) .initial homeEvents m ∧
      ∀ t result, .returned t (.get "HOME") result ∈ homeEvents →
        result = some (environment homeEnv "HOME") := by
  obtain ⟨m, h⟩ := exists_history_homeEvents
  refine ⟨m, h, fun t result hreturned => get_returns_environment h ?_ hreturned⟩
  intro t op hcalled
  simp only [homeEvents, List.mem_cons, List.not_mem_nil, or_false, Event.called.injEq,
    reduceCtorEq] at hcalled
  rcases hcalled with ⟨-, rfl⟩ | ⟨-, rfl⟩
  · exact id
  · simp [Operation.Sets]

end CppLint.Env
