/-
CppLint.Utils.EnvManager — the environment variables of the program
(`src/utils/env_manager.h`, `src/utils/env_manager.cpp`).

There is one `thread_safe_env_manager`, with a cache behind a mutex. `get`
and the two `set_cache` are given twice: as functions of the cache, which is
what one call does when nothing comes between its statements, and as the
statements themselves, each a step of the thread that makes the call. In
`ManagerStep` any number of threads make calls in any order, and a step of
one thread may come between any two of another; what keeps the statements
of a call together is the mutex and nothing else.

The environment itself does not change while the program runs.
-/
import CppLint.Lib.Simulation
import CppLint.Lib.UnorderedMap

namespace CppLint.Env

open CppLint.Lib

/-- `cache_`. -/
abbrev Cache : Type := UMap String String

/-- `cache_[name]`, read: a name that is not there is inserted. -/
def readCache (name : String) (cache : Cache) : String × Cache :=
  match cache.lookup name with
  | some value => (value, cache)
  | none => ("", AList.insert name "" cache)

variable (getenv : String → Option String)

/-! ## The member functions -/

/-- `get`. -/
def get (name : String) (cache : Cache) : String × Cache :=
  if name ∈ cache then readCache name cache
  else
    match getenv name with
    | none => ("", cache)
    | some ret => readCache name (AList.insert name ret cache)

/-- `set_cache` of one variable. -/
def setCache (name value : String) (cache : Cache) : Cache := AList.insert name value cache

/-- `set_cache` of all of them: the cache is replaced. -/
def replaceCache (data : Cache) (_ : Cache) : Cache := data

/-- A call to the manager. -/
inductive Operation where
  | get (name : String)
  | setCache (name value : String)
  | replaceCache (data : Cache)

/-- What a call returns, and the cache it leaves, when it is alone. -/
def Operation.run : Operation → Cache → Option String × Cache
  | .get name, cache => ((Env.get getenv name cache).1, (Env.get getenv name cache).2)
  | .setCache name value, cache => (none, Env.setCache name value cache)
  | .replaceCache data, cache => (none, Env.replaceCache data cache)

/-! ## The statements -/

/-- Where a thread is: outside of the manager, at the `lock_guard`, at one
of the statements after it, or at the end of the scope. -/
inductive Place where
  | outside
  | entering (op : Operation)
  | entered (op : Operation)
  | missed (name : String)
  | storing (name ret : String)
  | reading (name : String)
  | leaving (op : Operation) (result : Option String)

/-- The statement at a place after the `lock_guard`. -/
def statement : Place → Cache → Option (Place × Cache)
  | .entered (.get name), cache =>
      some (if name ∈ cache then .reading name else .missed name, cache)
  | .missed name, cache =>
      match getenv name with
      | none => some (.leaving (.get name) (some ""), cache)
      | some ret => some (.storing name ret, cache)
  | .storing name ret, cache => some (.reading name, AList.insert name ret cache)
  | .reading name, cache =>
      some (.leaving (.get name) (some (readCache name cache).1), (readCache name cache).2)
  | .entered (.setCache name value), cache =>
      some (.leaving (.setCache name value) none, AList.insert name value cache)
  | .entered (.replaceCache data), _ => some (.leaving (.replaceCache data) none, data)
  | .outside, _ => none
  | .entering _, _ => none
  | .leaving _ _, _ => none

/-! ## Threads -/

variable {T : Type}

/-- The manager and its threads: who holds `mutex_`, `cache_`, and where
each thread is. -/
structure Manager (T : Type) where
  mutex : Option T
  cache : Cache
  place : T → Place

/-- The manager before the first call. -/
def Manager.initial : Manager T where
  mutex := none
  cache := ∅
  place := fun _ => .outside

/-- What a thread sees of its call. -/
inductive Event (T : Type) where
  | called (t : T) (op : Operation)
  | returned (t : T) (op : Operation) (result : Option String)

variable [DecidableEq T]

/-- The thread goes to another place. -/
def Manager.move (m : Manager T) (t : T) (p : Place) : Manager T :=
  { m with place := Function.update m.place t p }

/-- A step of one of the threads. -/
inductive ManagerStep : Manager T → Option (Event T) → Manager T → Prop
  | call {m : Manager T} {t : T} (op : Operation) (h : m.place t = .outside) :
      ManagerStep m (some (.called t op)) (m.move t (.entering op))
  | lock {m : Manager T} {t : T} {op : Operation} (h : m.place t = .entering op)
      (hfree : m.mutex = none) :
      ManagerStep m none { m.move t (.entered op) with mutex := some t }
  | execute {m : Manager T} {t : T} {p : Place} {cache : Cache}
      (h : statement getenv (m.place t) m.cache = some (p, cache)) :
      ManagerStep m none { m.move t p with cache := cache }
  | unlock {m : Manager T} {t : T} {op : Operation} {result : Option String}
      (h : m.place t = .leaving op result) :
      ManagerStep m (some (.returned t op result)) { m.move t .outside with mutex := none }

end CppLint.Env
