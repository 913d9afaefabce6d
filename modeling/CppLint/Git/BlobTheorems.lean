/-
CppLint.Git.BlobTheorems — which files `blob::get_raw_content` reads.

A repository is a store of objects, and a path leads through the trees of its
directories to a file (`fileAt`). `get_raw_content` looks the whole path up
in the tree of the commit, where only the files of the top directory are, and
takes what stands in front of the first NUL of what it finds
(`getRawContent_eq_ok_iff`). So it reads a file exactly when that is empty, or
in the top directory and without NUL (`readsFile_iff`).
-/
import CppLint.Git.Blob

namespace CppLint.Git

open CppLint.Lib

/-! ## Files -/

/-- What an id stands for. A file is a blob. -/
inductive Object where
  | blob (bytes : String)
  | tree (tree : Tree)
  | other

/-- The objects of a repository. -/
abbrev Objects : Type := Oid → Option Object

/-- A relative path: the names of its directories, and of the file. -/
structure RelPath where
  names : List String
  nonempty : names ≠ []
  names_valid : ∀ name ∈ names, ValidName name

/-- The path as it is written. -/
def RelPath.str (path : RelPath) : String := concat path.names '/'

/-- The file under a tree. -/
def fileAt (objects : Objects) : Tree → List String → Option String
  | _, [] => none
  | tree, name :: names =>
      match (tree.entries.lookup name).bind objects with
      | some (.blob bytes) => if names = [] then some bytes else none
      | some (.tree tree) => fileAt objects tree names
      | _ => none

/-- The file of a commit. -/
def fileIn (git : Libgit2Objects) (objects : Objects) (commit : Commit) (path : RelPath) :
    Option String :=
  match git.commitTree commit with
  | .ok tree => fileAt objects tree path.names
  | .error _ => none

/-- libgit2 serves the objects of the repository: an entry is looked up among
those of the tree, a blob is found under its id and nothing else is, and the
buffer of a blob has its bytes and a NUL behind them. -/
structure Serves (git : Libgit2Objects) (repo : Repo) (objects : Objects) : Prop where
  entryByname : ∀ tree name, git.treeEntryByname tree name = tree.entries.lookup name
  blobLookup : ∀ oid bytes, objects oid = some (.blob bytes) →
    ∃ blob rest, git.blobLookup repo oid = .ok blob ∧
      git.blobRawcontent blob = some (bytes.toList ++ '\x00' :: rest)
  notBlob : ∀ oid, (∀ bytes, objects oid ≠ some (.blob bytes)) →
    ∃ e, git.blobLookup repo oid = .error e

/-- The file is read as it is, and nothing is read for an empty file or where
there is none only. -/
def ReadsFile (git : Libgit2Objects) (repo : Repo) (objects : Objects) (commit : Commit)
    (path : RelPath) : Prop :=
  (∀ bytes, fileIn git objects commit path = some bytes →
    commit.getRawContent git repo path.str = .ok bytes) ∧
  (commit.getRawContent git repo path.str = .ok "" →
    fileIn git objects commit path = none ∨ fileIn git objects commit path = some "")

/-! ## Names -/

theorem cString_of_not_mem {s : String} (h : '\x00' ∉ s.toList) : cString s.toList = s := by
  have htake : s.toList.takeWhile (· ≠ '\x00') = s.toList := by
    rw [List.takeWhile_eq_self_iff]
    intro c hc
    simpa using fun heq : c = '\x00' => h (heq ▸ hc)
  rw [cString, htake, String.ofList_toList]

/-- What stands behind a NUL is not read. -/
theorem cString_append (bytes rest : List Char) :
    cString (bytes ++ '\x00' :: rest) = cString bytes := by
  rw [cString, List.takeWhile_append]
  split
  · rename_i hall
    have hbytes := (List.takeWhile_sublist (· ≠ '\x00')).eq_of_length hall
    rw [cString, hbytes]
    simp
  · rfl

theorem mem_intercalate {c d : Char} {fields : List (List Char)}
    (h : c ∈ [d].intercalate fields) : c = d ∨ ∃ field ∈ fields, c ∈ field := by
  induction fields with
  | nil => cases h
  | cons field fields ih =>
      cases fields with
      | nil => exact .inr ⟨field, by simp, by simpa using h⟩
      | cons field' fields =>
          rw [List.intercalate_cons_cons, List.mem_append, List.mem_append] at h
          rcases h with (h | h) | h
          · exact .inr ⟨field, by simp, h⟩
          · exact .inl (List.mem_singleton.mp h)
          · rcases ih h with h | ⟨f, hf, hc⟩
            · exact .inl h
            · exact .inr ⟨f, List.mem_cons_of_mem _ hf, hc⟩

theorem RelPath.str_nul (path : RelPath) : '\x00' ∉ path.str.toList := by
  intro h
  rw [RelPath.str, concat, String.toList_ofList] at h
  rcases mem_intercalate h with h | ⟨field, hfield, hc⟩
  · exact absurd h (by decide)
  · obtain ⟨name, hname, rfl⟩ := List.mem_map.mp hfield
    exact (path.names_valid name hname).2.2 hc

/-- The path of a file in the top directory is its name, another one has a
slash. -/
theorem RelPath.str_cases (path : RelPath) :
    (∃ name, path.names = [name] ∧ path.str = name ∧ ValidName name) ∨
      (path.names.length ≠ 1 ∧ '/' ∈ path.str.toList) := by
  obtain ⟨names, hne, hvalid⟩ := path
  cases names with
  | nil => exact absurd rfl hne
  | cons name names =>
      cases names with
      | nil => exact .inl ⟨name, rfl, by simp [RelPath.str, concat], hvalid name (by simp)⟩
      | cons name' names =>
          right
          constructor
          · simp
          · simp [RelPath.str, concat, List.intercalate_cons_cons]

theorem RelPath.str_ne_empty (path : RelPath) : path.str ≠ "" := by
  intro hempty
  rcases path.str_cases with ⟨name, -, hstr, hvalid⟩ | ⟨-, hslash⟩
  · exact hvalid.1 (hstr.symm.trans hempty)
  · simp [hempty] at hslash

/-! ## What is read -/

section

variable {git : Libgit2Objects} {repo : Repo} {objects : Objects}

/-- Of a name that is passed on as it is, the entry is that of the tree. -/
theorem getRawContent_eq (h : Serves git repo objects) (tree : Tree) {fileName : String}
    (hne : fileName ≠ "") (hnul : '\x00' ∉ fileName.toList) :
    tree.getRawContent git repo fileName =
      match tree.entries.lookup fileName with
      | none => .ok ""
      | some entryId => lookupBlob git repo entryId >>= fun blob => blob.getRawContent git := by
  have hthrow : throwIf (fileName = "") "failed to get raw content sicne file name is empty" =
      .ok () := throwIf_eq_ok.mpr (by simpa using hne)
  have hentry : entryByname git tree fileName = tree.entries.lookup fileName := by
    rw [entryByname, cString_of_not_mem hnul, h.entryByname]
  unfold Tree.getRawContent
  rw [hthrow, hentry]
  cases tree.entries.lookup fileName <;> rfl

/-- A blob is read up to its first NUL. -/
theorem lookupBlob_blob (h : Serves git repo objects) {oid : Oid} {bytes : String}
    (hblob : objects oid = some (.blob bytes)) :
    (lookupBlob git repo oid >>= fun blob => blob.getRawContent git) =
      .ok (cString bytes.toList) := by
  obtain ⟨blob, rest, hlookup, hraw⟩ := h.blobLookup oid bytes hblob
  refine bind_eq_ok.mpr ⟨blob, external_eq_ok.mpr hlookup, ?_⟩
  rw [Blob.getRawContent, hraw, ← cString_append bytes.toList rest]

/-- Another object is not read. -/
theorem lookupBlob_other (h : Serves git repo objects) {oid : Oid}
    (hother : ∀ bytes, objects oid ≠ some (.blob bytes)) (content : String) :
    (lookupBlob git repo oid >>= fun blob => blob.getRawContent git) ≠ .ok content := by
  obtain ⟨e, he⟩ := h.notBlob oid hother
  intro hread
  obtain ⟨blob, hblob, -⟩ := bind_eq_ok.mp hread
  rw [external_eq_ok.mp hblob] at he
  cases he

/-- The bytes of a string are those in front of its first NUL if there is
none. -/
theorem cString_eq_iff (bytes : String) : cString bytes.toList = bytes ↔ '\x00' ∉ bytes.toList := by
  refine ⟨?_, cString_of_not_mem⟩
  intro heq hmem
  rw [← heq, cString, String.toList_ofList] at hmem
  exact absurd (List.mem_takeWhile_imp hmem) (by decide)

omit repo git in
theorem fileAt_singleton (tree : Tree) (name bytes : String) :
    fileAt objects tree [name] = some bytes ↔
      ∃ oid, tree.entries.lookup name = some oid ∧ objects oid = some (.blob bytes) := by
  rw [← Option.bind_eq_some_iff, fileAt]
  split
  · rename_i bytes' hobject
    simp [hobject]
  · rename_i tree' hobject
    simp [hobject, fileAt]
  · rename_i hblob _
    simpa using hblob bytes

/-- A file in the top directory is read up to its first NUL. -/
theorem getRawContent_top (h : Serves git repo objects) (tree : Tree) {path : RelPath}
    (hlength : path.names.length = 1) {bytes : String}
    (hfile : fileAt objects tree path.names = some bytes) :
    tree.getRawContent git repo path.str = .ok (cString bytes.toList) := by
  rcases path.str_cases with ⟨name, hnames, hstr, -⟩ | ⟨hne, -⟩
  · rw [hnames, fileAt_singleton] at hfile
    obtain ⟨oid, hentry, hblob⟩ := hfile
    rw [getRawContent_eq h tree path.str_ne_empty path.str_nul, hstr, hentry]
    exact lookupBlob_blob h hblob
  · exact absurd hlength hne

/-- Nothing is found under a path with a slash. -/
theorem getRawContent_nested (h : Serves git repo objects) (tree : Tree) {path : RelPath}
    (hlength : path.names.length ≠ 1) : tree.getRawContent git repo path.str = .ok "" := by
  have hslash : '/' ∈ path.str.toList := by
    rcases path.str_cases with ⟨name, hnames, -⟩ | ⟨-, hslash⟩
    · exact absurd (by rw [hnames]; rfl) hlength
    · exact hslash
  have hnone : tree.entries.lookup path.str = none := by
    rw [← Option.not_isSome_iff_eq_none, AList.lookup_isSome]
    intro hmem
    exact (tree.names_valid _ hmem).2.1 hslash
  rw [getRawContent_eq h tree path.str_ne_empty path.str_nul, hnone]

/-- Where there is no file, nothing is read. -/
theorem getRawContent_none (h : Serves git repo objects) (tree : Tree) {path : RelPath}
    (hfile : fileAt objects tree path.names = none) {content : String}
    (hread : tree.getRawContent git repo path.str = .ok content) : content = "" := by
  by_cases hlength : path.names.length = 1
  · rcases path.str_cases with ⟨name, hnames, hstr, -⟩ | ⟨hne, -⟩
    · rw [getRawContent_eq h tree path.str_ne_empty path.str_nul, hstr] at hread
      cases hentry : tree.entries.lookup name with
      | none =>
          rw [hentry] at hread
          exact (Except.ok.inj hread).symm
      | some oid =>
          rw [hentry] at hread
          refine absurd hread (lookupBlob_other h ?_ content)
          intro bytes hblob
          have hsome := (fileAt_singleton tree name bytes).mpr ⟨oid, hentry, hblob⟩
          rw [hnames, hsome] at hfile
          cases hfile
    · exact absurd hlength hne
  · rw [getRawContent_nested h tree hlength] at hread
    exact (Except.ok.inj hread).symm

/-- `get_raw_content` reads a file as it is exactly when it is empty, or in
the top directory and without NUL. -/
theorem readsFile_iff (h : Serves git repo objects) (commit : Commit) (path : RelPath) :
    ReadsFile git repo objects commit path ↔
      ∀ bytes, fileIn git objects commit path = some bytes →
        bytes = "" ∨ (path.names.length = 1 ∧ '\x00' ∉ bytes.toList) := by
  cases htree : git.commitTree commit with
  | error e =>
      have hfile : fileIn git objects commit path = none := by rw [fileIn, htree]
      simp [ReadsFile, hfile]
  | ok tree =>
      have hfile : fileIn git objects commit path = fileAt objects tree path.names := by
        rw [fileIn, htree]
      have hcontent : commit.getRawContent git repo path.str =
          tree.getRawContent git repo path.str := by
        unfold Commit.getRawContent
        rw [htree]
        rfl
      rw [ReadsFile, hfile, hcontent]
      cases hat : fileAt objects tree path.names with
      | none => simp
      | some bytes =>
          by_cases hlength : path.names.length = 1
          · have hexact := cString_eq_iff bytes
            rw [getRawContent_top h tree hlength hat]
            simp only [Option.some.injEq, Except.ok.injEq, forall_eq', reduceCtorEq, false_or]
            rw [hexact]
            constructor
            · rintro ⟨hnul, -⟩
              exact .inr ⟨hlength, hnul⟩
            · rintro (rfl | ⟨-, hnul⟩)
              · exact ⟨by simp, fun _ => rfl⟩
              · exact ⟨hnul, fun hempty => (hexact.mpr hnul).symm.trans hempty⟩
          · rw [getRawContent_nested h tree hlength]
            simp [hlength, eq_comm]

end

/-- A tree with one entry. -/
def Tree.single (name : String) (hname : ValidName name) (oid : Oid) : Tree where
  entries := AList.singleton name oid
  names_valid := by
    intro name' hmem
    rw [AList.mem_keys, AList.keys_singleton, List.mem_singleton] at hmem
    exact hmem ▸ hname

/-- The tree of a directory with the file `a.cpp`. -/
def fileTree : Tree := .single "a.cpp" (by decide) ⟨"file"⟩

/-- The tree of a commit with that directory. -/
def nestedTree : Tree := .single "src" (by decide) ⟨"directory"⟩

/-- The objects of a repository with one file. -/
def oneFileObjects (bytes : String) : Objects := fun oid =>
  if oid = ⟨"file"⟩ then some (.blob bytes)
  else if oid = ⟨"directory"⟩ then some (.tree fileTree)
  else none

/-- libgit2 over these objects, for commits of one tree. -/
def oneFileGit (tree : Tree) (bytes : String) : Libgit2Objects where
  commitTree _ := .ok tree
  treeEntryByname tree name := tree.entries.lookup name
  blobLookup _ oid := if oid = ⟨"file"⟩ then .ok ⟨0⟩ else .error "the requested type does not match"
  blobRawcontent _ := some (bytes.toList ++ ['\x00'])

theorem oneFileGit_serves (tree : Tree) (repo : Repo) (bytes : String) :
    Serves (oneFileGit tree bytes) repo (oneFileObjects bytes) where
  entryByname _ _ := rfl
  blobLookup oid bytes' hblob := by
    unfold oneFileObjects at hblob
    by_cases hfile : oid = ⟨"file"⟩
    · rw [if_pos hfile] at hblob
      cases hblob
      exact ⟨⟨0⟩, [], if_pos hfile, rfl⟩
    · rw [if_neg hfile] at hblob
      split at hblob <;> cases hblob
  notBlob oid hother := by
    have hfile : oid ≠ ⟨"file"⟩ := by
      rintro rfl
      exact hother bytes rfl
    exact ⟨_, if_neg hfile⟩

/-- `src/a.cpp`. -/
def nestedPath : RelPath where
  names := ["src", "a.cpp"]
  nonempty := by decide
  names_valid := by decide

/-- `a.cpp`. -/
def topPath : RelPath where
  names := ["a.cpp"]
  nonempty := by decide
  names_valid := by decide

theorem readsFile_iff_top :
    ReadsFile (oneFileGit fileTree "int n;") ⟨0⟩ (oneFileObjects "int n;") ⟨0, "HEAD"⟩ topPath := by
  refine (readsFile_iff (oneFileGit_serves _ _ _) _ _).mpr ?_
  intro bytes hbytes
  have hfile : fileIn (oneFileGit fileTree "int n;") (oneFileObjects "int n;") ⟨0, "HEAD"⟩ topPath =
      some "int n;" := rfl
  rw [hfile] at hbytes
  cases hbytes
  exact .inr ⟨rfl, by decide⟩

/-- A file in a directory is read as the empty string. -/
theorem not_readsFile_nested :
    Serves (oneFileGit nestedTree "int n;") ⟨0⟩ (oneFileObjects "int n;") ∧
      ¬ ReadsFile (oneFileGit nestedTree "int n;") ⟨0⟩ (oneFileObjects "int n;") ⟨0, "HEAD"⟩
        nestedPath := by
  refine ⟨oneFileGit_serves _ _ _, ?_⟩
  intro h
  have hread := h.1 "int n;" rfl
  have hempty : Commit.getRawContent (oneFileGit nestedTree "int n;") ⟨0⟩ ⟨0, "HEAD"⟩
      nestedPath.str = .ok "" := rfl
  rw [hempty] at hread
  exact absurd (Except.ok.inj hread) (by decide)

end CppLint.Git
