/-
CppLint.Git.Blob — the content of a file in a commit
(the namespaces `tree` and `blob` of `src/utils/git_utils.{h,cpp}`).

A tree has entries under names that are neither empty nor contain a slash or
a NUL, and each entry is the id of an object. What libgit2 does with them is
a parameter, as in `CppLint.Git.Repo`. A string goes to libgit2 as a pointer,
and its bytes end at the first NUL (`cString`); a buffer comes from libgit2
as the bytes from its pointer on.
-/
import CppLint.Git.Repo
import CppLint.Utils.Text

namespace CppLint.Git

open CppLint.Lib

/-- `git_oid`. -/
structure Oid where
  id : String
deriving DecidableEq, Repr

/-- The name of an entry of a tree. -/
def ValidName (name : String) : Prop := name ≠ "" ∧ '/' ∉ name.toList ∧ '\x00' ∉ name.toList

instance (name : String) : Decidable (ValidName name) := inferInstanceAs (Decidable (_ ∧ _))

/-- `tree_ptr`. -/
structure Tree where
  entries : UMap String Oid
  names_valid : ∀ name ∈ entries, ValidName name

/-- `blob_ptr`. -/
structure Blob where
  handle : Nat
deriving DecidableEq, Repr

/-- The library calls behind `blob::get_raw_content`: `git_commit_tree`,
`git_tree_entry_byname` with the id of the entry, `git_blob_lookup`, and
`git_blob_rawcontent`. -/
structure Libgit2Objects where
  commitTree : Commit → Except String Tree
  treeEntryByname : Tree → String → Option Oid
  blobLookup : Repo → Oid → Except String Blob
  blobRawcontent : Blob → Option (List Char)

/-- The bytes in front of the first NUL. -/
def cString (bytes : List Char) : String := String.ofList (bytes.takeWhile (· ≠ '\x00'))

/-- `tree::entry_byname`. -/
def entryByname (git : Libgit2Objects) (tree : Tree) (filename : String) : Option Oid :=
  git.treeEntryByname tree (cString filename.toList)

/-- `blob::lookup`. -/
def lookupBlob (git : Libgit2Objects) (repo : Repo) (oid : Oid) : Except Fault Blob :=
  external (git.blobLookup repo oid)

/-- `blob::get_raw_content` of a blob. -/
def Blob.getRawContent (git : Libgit2Objects) (blob : Blob) : Except Fault String :=
  match git.blobRawcontent blob with
  | none => .error (.runtimeError "get raw content by blob error")
  | some bytes => .ok (cString bytes)

/-- `blob::get_raw_content` of a file in a tree. -/
def Tree.getRawContent (git : Libgit2Objects) (repo : Repo) (tree : Tree) (fileName : String) :
    Except Fault String := do
  throwIf (fileName = "") "failed to get raw content sicne file name is empty"
  match entryByname git tree fileName with
  | none => return ""
  | some entryId =>
      let blob ← lookupBlob git repo entryId
      blob.getRawContent git

/-- `blob::get_raw_content` of a file in a commit. -/
def Commit.getRawContent (git : Libgit2Objects) (repo : Repo) (commit : Commit)
    (fileName : String) : Except Fault String := do
  let tree ← external (git.commitTree commit)
  tree.getRawContent git repo fileName

end CppLint.Git
