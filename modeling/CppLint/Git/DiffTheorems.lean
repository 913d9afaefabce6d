/-
CppLint.Git.DiffTheorems — what the two maps over a diff hold.

`createFromDiff` and `deltas` walk the same entries and use the same keys,
so they have the same keys (`mem_patchesOf_iff`, `mem_deltasOf_iff`). They
differ in what they keep of several entries with one path: the first patch
(`lookup_patchesOf`), the last delta (`lookup_deltasOf`).
-/
import CppLint.Git.Diff

namespace CppLint.Git

open CppLint.Lib

/-- The patch of an entry. -/
def DiffEntry.patch (e : DiffEntry) : Patch := ⟨e.delta, e.hunks⟩

/-- The map `createFromDiff` builds. -/
def patchesOf (diff : Diff) : UMap String Patch :=
  UMap.fillFirst (fun e : DiffEntry => e.delta.newPath) DiffEntry.patch ∅ diff

/-- The map `deltas` builds. -/
def deltasOf (diff : Diff) : UMap String DiffDelta :=
  UMap.fillLast (fun e : DiffEntry => e.delta.newPath) DiffEntry.delta ∅ diff

theorem patchAt_eq_ok {diff : Diff} {i : Nat} {p : Patch} :
    patchAt diff i = .ok p ↔ ∃ e, diff[i]? = some e ∧ e.patch = p := by
  unfold patchAt DiffEntry.patch
  cases diff[i]? <;> simp

theorem getDelta_eq_some {diff : Diff} {i : Nat} {d : DiffDelta} :
    getDelta diff i = some d ↔ ∃ e, diff[i]? = some e ∧ e.delta = d := by
  simp [getDelta]

/-- The index loop of `create_from_diff` never throws and fills the map
from the entries in order. -/
theorem createFromDiff_eq (diff : Diff) : createFromDiff diff = .ok (patchesOf diff) := by
  rw [createFromDiff, numDeltas]
  rw [foldlM_range (h := fun res e => .ok (res.tryInsert e.delta.newPath e.patch)) diff]
  · exact foldlM_ok diff ∅
  · intro i e he res
    rw [patchAt_eq_ok.mpr ⟨e, he, rfl⟩]
    rfl

/-- The index loop of `deltas` never throws and fills the map from the
entries in order. -/
theorem deltas_eq (diff : Diff) : deltas diff = .ok (deltasOf diff) := by
  rw [deltas, numDeltas]
  rw [foldlM_range (h := fun res e => .ok (AList.insert e.delta.newPath e.delta res)) diff]
  · exact foldlM_ok diff ∅
  · intro i e he res
    rw [getDelta_eq_some.mpr ⟨e, he, rfl⟩]

/-! ## What is kept of a path -/

/-- The first entry of the diff with a path. -/
def firstEntry (diff : Diff) (path : String) : Option DiffEntry :=
  diff.find? (fun e => e.delta.newPath = path)

/-- The last entry of the diff with a path. -/
def lastEntry (diff : Diff) (path : String) : Option DiffEntry :=
  diff.reverse.find? (fun e => e.delta.newPath = path)

theorem lookup_patchesOf (diff : Diff) (path : String) :
    (patchesOf diff).lookup path = (firstEntry diff path).map DiffEntry.patch := by
  rw [patchesOf, UMap.lookup_fillFirst]
  simp [firstEntry]

theorem lookup_deltasOf (diff : Diff) (path : String) :
    (deltasOf diff).lookup path = (lastEntry diff path).map DiffEntry.delta := by
  rw [deltasOf, UMap.lookup_fillLast]
  simp [lastEntry]

theorem mem_patchesOf_iff (diff : Diff) (path : String) :
    path ∈ patchesOf diff ↔ ∃ e ∈ diff, e.delta.newPath = path :=
  UMap.mem_fillFirst_iff _ _ _ _

theorem mem_deltasOf_iff (diff : Diff) (path : String) :
    path ∈ deltasOf diff ↔ ∃ e ∈ diff, e.delta.newPath = path :=
  UMap.mem_fillLast_iff _ _ _ _

/-- The first entry of a path is an entry, at some index, of that path. -/
theorem exists_index_of_firstEntry {diff : Diff} {path : String} {e : DiffEntry}
    (h : firstEntry diff path = some e) :
    e.delta.newPath = path ∧ ∃ i : Nat, diff[i]? = some e := by
  have hmem : e ∈ diff := List.mem_of_find?_eq_some h
  have hpath := List.find?_some h
  obtain ⟨i, hi⟩ := List.mem_iff_getElem?.mp hmem
  exact ⟨by simpa using hpath, i, hi⟩

/-- A path has a last entry exactly when it has a first one. -/
theorem firstEntry_isSome_iff (diff : Diff) (path : String) :
    (firstEntry diff path).isSome ↔ (lastEntry diff path).isSome := by
  simp [firstEntry, lastEntry]

end CppLint.Git
