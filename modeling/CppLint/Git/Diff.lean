/-
CppLint.Git.Diff — diffs, deltas, patches and hunks
(`src/utils/git_utils.cpp`, namespaces `diff`, `patch` and `hunk`).

What libgit2 delivers is data: a diff is the list of its entries, each with
a delta and the hunks of its patch, and a hunk is the number of its first
new-side line and its lines. The functions over that data are the
program's. Two of them fill a map from paths over the same entries:
`patch::create_from_diff` with `insert`, `diff::deltas` with `operator[]`.

`GitDiffHunk` is the part of libgit2's `git_diff_hunk` the program reads;
`getHunk` returns it with the number of lines of the hunk.
-/
import CppLint.Utils.Fault

namespace CppLint.Git

open CppLint.Lib

/-! ## Data -/

/-- `git_delta_t`. -/
inductive DeltaStatus where
  | unmodified
  | added
  | deleted
  | modified
  | renamed
  | copied
  | ignored
  | untracked
  | typechange
  | unreadable
  | conflicted
deriving DecidableEq, Repr

/-- `git_diff_delta`: the status and `new_file.path`. -/
structure DiffDelta where
  status : DeltaStatus
  newPath : String
deriving DecidableEq, Repr

/-- `git_diff_line_t`, the three kinds of lines inside a hunk. -/
inductive LineOrigin where
  | context
  | addition
  | deletion
deriving DecidableEq, Repr

/-- `git_diff_line`. -/
structure DiffLine where
  origin : LineOrigin
  content : String
deriving DecidableEq, Repr

/-- A hunk as libgit2 holds it. -/
structure Hunk where
  newStart : Nat
  lines : List DiffLine
deriving DecidableEq, Repr

/-- The line is on the new side: a context line or an addition. -/
def DiffLine.onNewSide (l : DiffLine) : Bool := l.origin ≠ .deletion

/-- The number of new-side lines of a hunk. -/
def Hunk.newLines (h : Hunk) : Nat := (h.lines.filter DiffLine.onNewSide).length

/-- `git_patch`: the delta it belongs to and its hunks. -/
structure Patch where
  delta : DiffDelta
  hunks : List Hunk
deriving DecidableEq, Repr

/-- One entry of a diff. -/
structure DiffEntry where
  delta : DiffDelta
  hunks : List Hunk
deriving DecidableEq, Repr

/-- `git_diff`. -/
abbrev Diff : Type := List DiffEntry

/-- `git_diff_hunk`, the fields that are read. -/
structure GitDiffHunk where
  newStart : Int
  newLines : Int
deriving DecidableEq, Repr

/-! ## `namespace diff` and `namespace patch` -/

/-- `diff::num_deltas`. -/
def numDeltas (diff : Diff) : Nat := diff.length

/-- `diff::get_delta`: a null pointer when there is no such entry. -/
def getDelta (diff : Diff) (idx : Nat) : Option DiffDelta := diff[idx]?.map DiffEntry.delta

/-- `diff::deltas`: the last delta of a path overwrites the ones before. -/
def deltas (diff : Diff) : Except Fault (UMap String DiffDelta) :=
  (List.range (numDeltas diff)).foldlM (fun res i =>
    match getDelta diff i with
    | none => .error (.runtimeError "get delta failed since null pointer")
    | some ret => .ok (AList.insert ret.newPath ret res)) ∅

/-- `patch::create_from_diff(diff, idx)`. -/
def patchAt (diff : Diff) (idx : Nat) : Except Fault Patch :=
  match diff[idx]? with
  | none => .error (.thirdParty "git_patch_from_diff")
  | some entry => .ok ⟨entry.delta, entry.hunks⟩

/-- `patch::create_from_diff(diff)`: the first patch of a path is kept. -/
def createFromDiff (diff : Diff) : Except Fault (UMap String Patch) :=
  (List.range (numDeltas diff)).foldlM (fun res i => do
    let patch ← patchAt diff i
    let delta := patch.delta
    return res.tryInsert delta.newPath patch) ∅

/-- `patch::changed_files`: the keys, in the order the map is walked. -/
def changedFiles (ord : Enumeration String) (patches : UMap String Patch) : List String :=
  (ord.toList patches).map Prod.fst

/-- `patch::num_hunks`. -/
def numHunks (patch : Patch) : Nat := patch.hunks.length

/-- `patch::get_hunk`: the hunk and the number of all its lines. -/
def getHunk (patch : Patch) (hunkIdx : Nat) : Except Fault (GitDiffHunk × Nat) :=
  match patch.hunks[hunkIdx]? with
  | none => .error (.thirdParty "git_patch_get_hunk")
  | some h => .ok (⟨h.newStart, h.newLines⟩, h.lines.length)

/-! ## `namespace hunk` -/

/-- `hunk::is_row_in_hunk`. -/
def isRowInHunk (hunk : GitDiffHunk) (rowNumber : Int) : Bool :=
  rowNumber ≥ hunk.newStart && rowNumber ≤ hunk.newStart + hunk.newLines

end CppLint.Git
