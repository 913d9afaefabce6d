/-
CppLint.Lib.UnorderedMap — maps with unspecified iteration order.

The map itself is Mathlib's `AList`: association lists whose keys are
distinct by construction. Two insertions are told apart, because they
differ when the key is taken: `AList.insert` overwrites, as `m[k] = v` does,
and `tryInsert` keeps the entry that is there, as `m.insert({k, v})` does.
Filling a map from a list therefore keeps the FIRST element of each key
with one (`lookup_fillFirst`) and the LAST with the other
(`lookup_fillLast`).

An `Enumeration` is one way a library may choose to walk its maps: for
every map some permutation of its entries. Anything proved for an arbitrary
enumeration does not depend on the iteration order.
-/
import Mathlib.Data.List.AList

namespace CppLint.Lib

/-- A map from `α` to `β`; no two entries share a key. -/
abbrev UMap (α β : Type) : Type := AList (fun _ : α => β)

namespace UMap

variable {α β γ : Type}

/-- The number of entries. -/
def size (m : UMap α β) : Nat := m.entries.length

/-- Whether the map has no entry. -/
def isEmpty (m : UMap α β) : Bool := m.entries.isEmpty

@[simp] theorem isEmpty_empty : (∅ : UMap α β).isEmpty = true := rfl

theorem size_ne_zero_iff (m : UMap α β) : m.size ≠ 0 ↔ m.isEmpty = false := by
  unfold size isEmpty
  cases m.entries <;> simp

theorem size_eq_zero_iff (m : UMap α β) : m.size = 0 ↔ m.isEmpty = true := by
  unfold size isEmpty
  cases m.entries <;> simp

theorem length_keys (m : UMap α β) : m.keys.length = m.size := List.length_map _

variable [DecidableEq α]

/-- `m.insert({k, v})`: an entry that is already there is kept. -/
def tryInsert (m : UMap α β) (k : α) (v : β) : UMap α β :=
  if k ∈ m then m else AList.insert k v m

theorem lookup_insert_iff (m : UMap α β) (k k' : α) (v : β) :
    (AList.insert k v m).lookup k' = if k' = k then some v else m.lookup k' := by
  by_cases h : k' = k
  · subst h; simp [AList.lookup_insert]
  · simp [AList.lookup_insert_ne h, h]

theorem lookup_tryInsert (m : UMap α β) (k k' : α) (v : β) :
    (m.tryInsert k v).lookup k' =
      (m.lookup k').or (if k' = k then some v else none) := by
  unfold tryInsert
  by_cases hk : k ∈ m
  · rw [if_pos hk]
    by_cases h : k' = k
    · subst h
      obtain ⟨b, hb⟩ := Option.isSome_iff_exists.mp (AList.lookup_isSome.mpr hk)
      simp [hb]
    · simp [h]
  · rw [if_neg hk, lookup_insert_iff]
    by_cases h : k' = k
    · subst h; simp [AList.lookup_eq_none.mpr hk]
    · simp [h]

theorem size_insert_of_not_mem {m : UMap α β} {k : α} (h : k ∉ m) (v : β) :
    size (AList.insert k v m) = m.size + 1 := by
  have hkeys : k ∉ m.keys := h
  rw [← length_keys, AList.keys_insert, List.erase_of_not_mem hkeys, List.length_cons, length_keys]

@[simp] theorem isEmpty_insert (m : UMap α β) (k : α) (v : β) :
    isEmpty (AList.insert k v m) = false := rfl

theorem mem_iff_lookup (m : UMap α β) (k : α) : k ∈ m ↔ ∃ v, m.lookup k = some v := by
  rw [← AList.lookup_isSome, Option.isSome_iff_exists]

theorem isEmpty_iff_lookup (m : UMap α β) :
    m.isEmpty = true ↔ ∀ k, m.lookup k = none := by
  unfold isEmpty
  constructor
  · intro h k
    refine AList.lookup_eq_none.mpr (fun hk => ?_)
    have hnil : m.entries = [] := List.isEmpty_iff.mp h
    simp [AList.mem_keys, AList.keys, hnil] at hk
  · intro h
    cases hm : m.entries with
    | nil => rfl
    | cons e es =>
        have hmem : e ∈ m.entries := by simp [hm]
        have := AList.mem_lookup_iff.mpr (show Sigma.mk e.1 e.2 ∈ m.entries from hmem)
        rw [h e.1] at this
        cases this

/-! ## Filling a map from a list -/

/-- `for (x : xs) m.insert({key x, val x})`. -/
def fillFirst (key : γ → α) (val : γ → β) (m : UMap α β) (xs : List γ) : UMap α β :=
  xs.foldl (fun m x => m.tryInsert (key x) (val x)) m

/-- `for (x : xs) m[key x] = val x`. -/
def fillLast (key : γ → α) (val : γ → β) (m : UMap α β) (xs : List γ) : UMap α β :=
  xs.foldl (fun m x => AList.insert (key x) (val x) m) m

/-- Of the elements with one key, `insert` keeps the first. -/
theorem lookup_fillFirst (key : γ → α) (val : γ → β) (k : α) :
    ∀ (xs : List γ) (m : UMap α β),
      (fillFirst key val m xs).lookup k =
        (m.lookup k).or ((xs.find? (fun x => key x = k)).map val)
  | [], m => by simp [fillFirst]
  | x :: xs, m => by
      rw [fillFirst, List.foldl_cons]
      have ih := lookup_fillFirst key val k xs (m.tryInsert (key x) (val x))
      rw [fillFirst] at ih
      rw [ih, lookup_tryInsert, List.find?_cons]
      by_cases h : key x = k
      · simp [h]
      · simp [h, Ne.symm h]

/-- Of the elements with one key, assignment keeps the last. -/
theorem lookup_fillLast (key : γ → α) (val : γ → β) (k : α) :
    ∀ (xs : List γ) (m : UMap α β),
      (fillLast key val m xs).lookup k =
        ((xs.reverse.find? (fun x => key x = k)).map val).or (m.lookup k)
  | [], m => by simp [fillLast]
  | x :: xs, m => by
      rw [fillLast, List.foldl_cons]
      have ih := lookup_fillLast key val k xs (AList.insert (key x) (val x) m)
      rw [fillLast] at ih
      rw [ih, lookup_insert_iff, List.reverse_cons, List.find?_append]
      by_cases h : key x = k
      · cases xs.reverse.find? (fun x => key x = k) <;> simp [h]
      · cases xs.reverse.find? (fun x => key x = k) <;> simp [h, Ne.symm h]

/-- The keys of a map filled from nothing, either way, are the keys of the
list. -/
theorem mem_fillFirst_iff (key : γ → α) (val : γ → β) (k : α) (xs : List γ) :
    k ∈ fillFirst key val ∅ xs ↔ ∃ x ∈ xs, key x = k := by
  rw [mem_iff_lookup, lookup_fillFirst]
  simp [← Option.isSome_iff_exists]

theorem mem_fillLast_iff (key : γ → α) (val : γ → β) (k : α) (xs : List γ) :
    k ∈ fillLast key val ∅ xs ↔ ∃ x ∈ xs, key x = k := by
  rw [mem_iff_lookup, lookup_fillLast]
  simp [← Option.isSome_iff_exists]

/-! ## Filling buckets -/

/-- `if (!m.contains(k)) m[k] = {}; m[k].emplace_back(v)`. -/
def pushBucket (k : α) (v : β) (m : UMap α (List β)) : UMap α (List β) :=
  let m := m.tryInsert k []
  AList.insert k ((m.lookup k).getD [] ++ [v]) m

/-- `pushBucket` for each element of a list. -/
def fillBuckets (key : γ → α) (val : γ → β) (m : UMap α (List β)) (xs : List γ) :
    UMap α (List β) :=
  xs.foldl (fun m x => pushBucket (key x) (val x) m) m

theorem getD_lookup_pushBucket (k k' : α) (v : β) (m : UMap α (List β)) :
    ((pushBucket k v m).lookup k').getD [] =
      (m.lookup k').getD [] ++ if k = k' then [v] else [] := by
  simp only [pushBucket, lookup_insert_iff, lookup_tryInsert]
  by_cases h : k = k'
  · subst h
    cases m.lookup k <;> simp
  · simp [h, Ne.symm h]

/-- Each bucket has the elements with its key in their order. -/
theorem getD_lookup_fillBuckets (key : γ → α) (val : γ → β) (k : α) (xs : List γ)
    (m : UMap α (List β)) :
    ((fillBuckets key val m xs).lookup k).getD [] =
      (m.lookup k).getD [] ++ (xs.filter (fun x => key x = k)).map val := by
  induction xs generalizing m with
  | nil => simp [fillBuckets]
  | cons x xs ih =>
      have hx := ih (pushBucket (key x) (val x) m)
      rw [getD_lookup_pushBucket] at hx
      rw [fillBuckets, List.foldl_cons]
      refine hx.trans ?_
      by_cases h : key x = k <;> simp [h]

theorem mem_pushBucket_iff (k k' : α) (v : β) (m : UMap α (List β)) :
    k' ∈ pushBucket k v m ↔ k' ∈ m ∨ k = k' := by
  simp only [mem_iff_lookup, pushBucket, lookup_insert_iff, lookup_tryInsert]
  by_cases h : k = k'
  · simp [h]
  · simp [h, Ne.symm h]

/-- There is a bucket for each key of an element. -/
theorem mem_fillBuckets_iff (key : γ → α) (val : γ → β) (k : α) (xs : List γ)
    (m : UMap α (List β)) :
    k ∈ fillBuckets key val m xs ↔ k ∈ m ∨ ∃ x ∈ xs, key x = k := by
  induction xs generalizing m with
  | nil => simp [fillBuckets]
  | cons x xs ih =>
      have hx := ih (pushBucket (key x) (val x) m)
      rw [mem_pushBucket_iff] at hx
      rw [fillBuckets, List.foldl_cons]
      refine hx.trans ?_
      simp [or_assoc]

end UMap

/-! ## Iteration -/

/-- A choice of iteration order: every map is walked along some permutation
of its entries. -/
structure Enumeration (α : Type) where
  toList : {β : Type} → UMap α β → List (α × β)
  perm : ∀ {β : Type} (m : UMap α β), (toList m).Perm (m.entries.map (fun e => (e.1, e.2)))

namespace Enumeration

variable {α β : Type} (ord : Enumeration α)

/-- The order in which the entries are stored. -/
def stored (α : Type) : Enumeration α where
  toList := fun m => m.entries.map (fun e => (e.1, e.2))
  perm := fun _ => List.Perm.refl _

theorem length_toList (m : UMap α β) : (ord.toList m).length = m.size := by
  rw [(ord.perm m).length_eq, List.length_map, UMap.size]

/-- Whatever the order, no key is walked twice. -/
theorem nodup_keys (m : UMap α β) : ((ord.toList m).map Prod.fst).Nodup := by
  refine ((ord.perm m).map Prod.fst).nodup_iff.mpr ?_
  have hkeys : (m.entries.map (fun e => (e.1, e.2))).map Prod.fst = m.keys := by
    rw [List.map_map]; rfl
  rw [hkeys]
  exact m.keys_nodup

variable [DecidableEq α]

/-- Whatever the order, the entries walked are those of the map. -/
theorem mem_toList_iff (m : UMap α β) (k : α) (v : β) :
    (k, v) ∈ ord.toList m ↔ m.lookup k = some v := by
  rw [(ord.perm m).mem_iff, List.mem_map, ← Option.mem_def, AList.mem_lookup_iff]
  constructor
  · rintro ⟨⟨k', v'⟩, hmem, heq⟩
    cases heq; exact hmem
  · exact fun h => ⟨⟨k, v⟩, h, rfl⟩

/-- A key is walked exactly when it is in the map. -/
theorem mem_keys_iff (m : UMap α β) (k : α) :
    k ∈ (ord.toList m).map Prod.fst ↔ k ∈ m := by
  rw [UMap.mem_iff_lookup]
  constructor
  · intro h
    obtain ⟨⟨k', v⟩, hmem, rfl⟩ := List.mem_map.mp h
    exact ⟨v, (ord.mem_toList_iff m k' v).mp hmem⟩
  · rintro ⟨v, hv⟩
    exact List.mem_map.mpr ⟨(k, v), (ord.mem_toList_iff m k v).mpr hv, rfl⟩

/-- Maps that hold the same are walked in permutations of each other. -/
theorem toList_perm {ord ord' : Enumeration α} {m m' : UMap α β}
    (h : ∀ k, m.lookup k = m'.lookup k) : (ord.toList m).Perm (ord'.toList m') := by
  have hentries : m.entries.Perm m'.entries := by
    refine List.lookup_ext m.nodupKeys m'.nodupKeys (fun k v => ?_)
    show v ∈ m.lookup k ↔ v ∈ m'.lookup k
    rw [h k]
  exact ((ord.perm m).trans (hentries.map _)).trans (ord'.perm m').symm

end Enumeration

end CppLint.Lib
