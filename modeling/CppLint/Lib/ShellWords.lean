/-
CppLint.Lib.ShellWords — the words a shell reads from a line.

The shell goes through the line character by character: blanks outside
quotes end a word, quotes and backslashes are removed and take away the
meaning of what they stand in front of or around. What a shell does with the
other characters that have a meaning for it is not said: a line that has one
where it counts is not read (`Shell.words` is `none`).

A list of words that is joined by spaces is read back exactly when its words
are plain (`Shell.words_joined_iff`). Each quote or backslash that is removed
costs a character, and each end of a word a blank, so the words of a line
that has them are shorter than the line allows for (`foldlM_counted`).
-/
import Mathlib.Algebra.GroupWithZero.Nat
import Mathlib.Data.List.Basic

namespace CppLint.Lib

/-- The characters with a meaning for the shell, outside quotes and inside
double quotes, beside blanks, newlines, quotes and backslashes. -/
structure Shell where
  special : Char → Bool
  expands : Char → Bool

/-- Where the shell is in the line. -/
inductive Quoting where
  | plain
  | escaped
  | single
  | double
  | doubleEscaped
deriving DecidableEq

/-- What the shell has read: the words behind it, and the one it is in. -/
structure Reading where
  quoting : Quoting := .plain
  words : List (List Char) := []
  word : Option (List Char) := none

/-- A character of the word. -/
def Reading.push (r : Reading) (cs : List Char) : Reading :=
  { r with word := some (r.word.getD [] ++ cs) }

/-- Quotes or a backslash. -/
def Reading.quote (r : Reading) (quoting : Quoting) : Reading := { r with quoting := quoting }

/-- The end of the word, if the shell is in one. -/
def Reading.finish (r : Reading) : Reading :=
  { r with words := r.words ++ r.word.toList, word := none }

/-- The blanks between words. -/
def isWordBlank (c : Char) : Bool := c = ' ' || c = '\t'

/-- The character has no meaning outside quotes. -/
def Shell.isPlain (sh : Shell) (c : Char) : Bool :=
  !isWordBlank c && c != '\n' && c != '\'' && c != '"' && c != '\\' && !sh.special c

/-- What a backslash and `c` stand for inside double quotes. -/
def escapedInDouble (c : Char) : List Char :=
  if c = '\n' then [] else if c ∈ ['"', '\\', '$', '`'] then [c] else ['\\', c]

namespace Shell

variable (sh : Shell)

/-- One character outside quotes. -/
def stepPlain (r : Reading) (c : Char) : Option Reading :=
  if isWordBlank c then some r.finish
  else if c = '\'' then some ((r.push []).quote .single)
  else if c = '"' then some ((r.push []).quote .double)
  else if c = '\\' then some (r.quote .escaped)
  else if c = '\n' || sh.special c then none
  else some (r.push [c])

/-- One character inside double quotes. -/
def stepDouble (r : Reading) (c : Char) : Option Reading :=
  if c = '"' then some (r.quote .plain)
  else if c = '\\' then some (r.quote .doubleEscaped)
  else if sh.expands c then none
  else some (r.push [c])

/-- One character. A backslash in front of a newline is removed with it. -/
def step (r : Reading) (c : Char) : Option Reading :=
  match r.quoting with
  | .plain => sh.stepPlain r c
  | .escaped =>
      some ((if c = '\n' then r else r.push [c]).quote .plain)
  | .single => some (if c = '\'' then r.quote .plain else r.push [c])
  | .double => sh.stepDouble r c
  | .doubleEscaped =>
      some ((r.push (escapedInDouble c)).quote .double)

/-- The words of a line that ends outside quotes. -/
def words (line : List Char) : Option (List (List Char)) := do
  let r ← line.foldlM sh.step {}
  if r.quoting = .plain then some r.finish.words else none

/-- The word is read as it stands. -/
def PlainWord (word : List Char) : Prop := word ≠ [] ∧ ∀ c ∈ word, sh.isPlain c = true

instance (word : List Char) : Decidable (sh.PlainWord word) :=
  inferInstanceAs (Decidable (_ ∧ _))

end Shell

/-! ## Plain words -/

section

variable {sh : Shell}

/-- A plain character is read as it stands. -/
theorem stepPlain_of_isPlain {c : Char} (h : sh.isPlain c = true) (r : Reading) :
    sh.stepPlain r c = some (r.push [c]) := by
  simp only [Shell.isPlain, Bool.and_eq_true, bne_iff_ne, ne_eq, Bool.not_eq_true'] at h
  simp [Shell.stepPlain, h]

/-- The characters of a plain word are added to the word. -/
theorem foldlM_plain {cs : List Char} (h : ∀ c ∈ cs, sh.isPlain c = true)
    (words : List (List Char)) (word : List Char) :
    cs.foldlM sh.step { words := words, word := some word } =
      some { words := words, word := some (word ++ cs) } := by
  induction cs generalizing word with
  | nil => simp
  | cons c cs ih =>
      have hc := stepPlain_of_isPlain (h c (by simp)) { words := words, word := some word }
      have hcs := ih (fun d hd => h d (by simp [hd])) (word ++ [c])
      rw [List.foldlM_cons]
      show (sh.stepPlain _ c >>= _) = _
      rw [hc]
      refine hcs.trans ?_
      simp

/-- A plain word is read. -/
theorem foldlM_plainWord {word : List Char} (h : sh.PlainWord word) (words : List (List Char)) :
    word.foldlM sh.step { words := words } = some { words := words, word := some word } := by
  obtain ⟨hne, hplain⟩ := h
  obtain ⟨c, cs, rfl⟩ := List.exists_cons_of_ne_nil hne
  have hc := stepPlain_of_isPlain (hplain c (by simp)) { words := words }
  rw [List.foldlM_cons]
  show (sh.stepPlain _ c >>= _) = _
  rw [hc]
  exact foldlM_plain (fun d hd => hplain d (by simp [hd])) words [c]

/-- Plain words joined by spaces are read one by one. -/
theorem foldlM_joined {words : List (List Char)} (hne : words ≠ [])
    (h : ∀ word ∈ words, sh.PlainWord word) (behind : List (List Char)) :
    ∃ r, ([' '].intercalate words).foldlM sh.step { words := behind } = some r ∧
      r.quoting = .plain ∧ r.finish.words = behind ++ words := by
  induction words generalizing behind with
  | nil => exact absurd rfl hne
  | cons word words ih =>
      have hword := foldlM_plainWord (h word (by simp)) behind
      cases words with
      | nil => exact ⟨_, by simpa using hword, rfl, rfl⟩
      | cons word' words =>
          obtain ⟨r, hr, hquoting, hwords⟩ := ih (by simp)
            (fun w hw => h w (by simp [hw])) (behind ++ [word])
          refine ⟨r, ?_, hquoting, by simpa using hwords⟩
          rw [List.intercalate_cons_cons, List.append_assoc, List.foldlM_append, hword]
          exact hr

/-! ## What removed characters cost -/

/-- The number of characters in the words. -/
def Reading.size (r : Reading) : Nat := (r.words.map List.length).sum + (r.word.getD []).length

@[simp] theorem Reading.size_push (r : Reading) (cs : List Char) :
    (r.push cs).size = r.size + cs.length := by
  simp [Reading.size, Reading.push, Nat.add_assoc]

@[simp] theorem Reading.size_quote (r : Reading) (q : Quoting) : (r.quote q).size = r.size := rfl

@[simp] theorem Reading.words_push (r : Reading) (cs : List Char) : (r.push cs).words = r.words :=
  rfl

@[simp] theorem Reading.words_quote (r : Reading) (q : Quoting) : (r.quote q).words = r.words :=
  rfl

@[simp] theorem Reading.size_finish (r : Reading) : r.finish.size = r.size := by
  cases h : r.word <;> simp [Reading.size, Reading.finish, h]

theorem Reading.length_finish (r : Reading) :
    r.finish.words.length ≤ r.words.length + 1 := by
  cases h : r.word <;> simp [Reading.finish, h]

/-- `n` characters outside quotes: all words are plain, and a blank stands
behind each finished one. -/
structure Unquoted (sh : Shell) (r : Reading) (n : Nat) : Prop where
  quoting : r.quoting = .plain
  words_plain : ∀ word ∈ r.words, sh.PlainWord word
  word_plain : ∀ word ∈ r.word, sh.PlainWord word
  size_le : r.size + r.words.length ≤ n

/-- `n` characters of which at least one was removed that is no blank behind
a word. The backslash of an escape in double quotes may still come back. -/
def Shortened (r : Reading) (n : Nat) : Prop :=
  r.size + r.words.length + 1 + (if r.quoting = .doubleEscaped then 1 else 0) ≤ n

theorem Shortened.size_le {r : Reading} {n : Nat} (h : Shortened r n) :
    r.size + r.words.length + 1 ≤ n := Nat.le_of_add_right_le h

theorem shortened_of_size {r : Reading} {n : Nat} (hle : r.size + r.words.length + 1 ≤ n)
    (hquoting : r.quoting ≠ .doubleEscaped) : Shortened r n := by
  unfold Shortened
  rw [if_neg hquoting]
  exact hle

/-- One character may be removed, or wait behind a backslash. -/
theorem Shortened.quote {r : Reading} {n : Nat} (h : Shortened r n) (quoting : Quoting) :
    Shortened (r.quote quoting) (n + 1) := by
  have hle := h.size_le
  unfold Shortened
  simp only [Reading.size_quote, Reading.words_quote]
  split <;> omega

/-- One character may be added. -/
theorem Shortened.push {r : Reading} {n : Nat} (h : Shortened r n)
    (hquoting : r.quoting ≠ .doubleEscaped) (c : Char) : Shortened (r.push [c]) (n + 1) := by
  have hle := h.size_le
  exact shortened_of_size (by simp; omega) hquoting

/-- A finished word has its blank. -/
theorem Unquoted.finish {r : Reading} {n : Nat} (h : Unquoted sh r n) :
    Unquoted sh r.finish (n + 1) := by
  refine ⟨h.quoting, ?_, by simp [Reading.finish], ?_⟩
  · intro word hword
    rcases List.mem_append.mp hword with hword | hword
    · exact h.words_plain word hword
    · exact h.word_plain word (by simpa using hword)
  · have hlength := r.length_finish
    have hle := h.size_le
    rw [Reading.size_finish]
    omega

theorem Unquoted.push {r : Reading} {n : Nat} {c : Char} (h : Unquoted sh r n)
    (hc : sh.isPlain c = true) : Unquoted sh (r.push [c]) (n + 1) := by
  refine ⟨h.quoting, h.words_plain, ?_, ?_⟩
  · intro word hword
    obtain rfl : r.word.getD [] ++ [c] = word := by simpa [Reading.push] using hword
    refine ⟨by simp, ?_⟩
    intro d hd
    rcases List.mem_append.mp hd with hd | hd
    · cases hword' : r.word with
      | none => simp [hword'] at hd
      | some word => exact (h.word_plain word hword').2 d (by simpa [hword'] using hd)
    · exact (List.mem_singleton.mp hd) ▸ hc
  · have hle := h.size_le
    rw [Reading.size_push]
    show r.size + [c].length + r.words.length ≤ n + 1
    rw [List.length_singleton]
    omega

theorem stepPlain_unquoted {r r' : Reading} {n : Nat} {c : Char} (h : Unquoted sh r n)
    (hstep : sh.stepPlain r c = some r') : Unquoted sh r' (n + 1) ∨ Shortened r' (n + 1) := by
  have hle := h.size_le
  unfold Shell.stepPlain at hstep
  split at hstep
  · cases hstep
    exact .inl h.finish
  rename_i hblank
  split at hstep
  · cases hstep
    exact .inr (shortened_of_size (by simpa using hle) Quoting.noConfusion)
  rename_i hsingle
  split at hstep
  · cases hstep
    exact .inr (shortened_of_size (by simpa using hle) Quoting.noConfusion)
  rename_i hdouble
  split at hstep
  · cases hstep
    exact .inr (shortened_of_size (by simpa using hle) Quoting.noConfusion)
  rename_i hescape
  split at hstep
  · cases hstep
  rename_i hother
  cases hstep
  refine .inl (h.push ?_)
  simp only [Bool.or_eq_true, decide_eq_true_eq, not_or] at hother
  simp [Shell.isPlain, hblank, hsingle, hdouble, hescape, hother]

theorem length_escapedInDouble (c : Char) : (escapedInDouble c).length ≤ 2 := by
  unfold escapedInDouble
  split
  · simp
  · split <;> simp

/-- One character adds one to the words or to their number, at most. -/
theorem stepPlain_size {r r' : Reading} {c : Char} (hquoting : r.quoting = .plain)
    (hstep : sh.stepPlain r c = some r') :
    r'.size + r'.words.length ≤ r.size + r.words.length + 1 ∧ r'.quoting ≠ .doubleEscaped := by
  have hplain : r.quoting ≠ .doubleEscaped := by
    rw [hquoting]
    exact Quoting.noConfusion
  have hlength := r.length_finish
  unfold Shell.stepPlain at hstep
  split_ifs at hstep <;> cases hstep
  · exact ⟨by rw [Reading.size_finish]; omega, hplain⟩
  · exact ⟨by simp, Quoting.noConfusion⟩
  · exact ⟨by simp, Quoting.noConfusion⟩
  · exact ⟨by simp, Quoting.noConfusion⟩
  · exact ⟨by simp; omega, hplain⟩

theorem step_shortened {r r' : Reading} {n : Nat} {c : Char} (h : Shortened r n)
    (hstep : sh.step r c = some r') : Shortened r' (n + 1) := by
  have hle := h.size_le
  unfold Shell.step at hstep
  cases hquoting : r.quoting with
  | plain =>
      simp only [hquoting] at hstep
      obtain ⟨hsize, hother⟩ := stepPlain_size hquoting hstep
      exact shortened_of_size (by omega) hother
  | escaped =>
      simp only [hquoting] at hstep
      cases hstep
      refine shortened_of_size ?_ Quoting.noConfusion
      split <;> simp <;> omega
  | single =>
      simp only [hquoting] at hstep
      split at hstep <;> cases hstep
      · exact h.quote .plain
      · exact h.push (by simp [hquoting]) c
  | double =>
      simp only [hquoting, Shell.stepDouble] at hstep
      split_ifs at hstep <;> cases hstep
      · exact h.quote .plain
      · exact h.quote .doubleEscaped
      · exact h.push (by simp [hquoting]) c
  | doubleEscaped =>
      simp only [hquoting] at hstep
      cases hstep
      have hescape := length_escapedInDouble c
      -- Here the second character of an escape has room.
      have hback : r.size + r.words.length + 1 + 1 ≤ n := by
        unfold Shortened at h
        rwa [if_pos hquoting] at h
      exact shortened_of_size (by simp; omega) Quoting.noConfusion

/-- Over a line: its words are plain, or shorter than it allows for. -/
theorem foldlM_counted {line : List Char} {r r' : Reading} {n : Nat}
    (h : Unquoted sh r n ∨ Shortened r n) (hline : line.foldlM sh.step r = some r') :
    Unquoted sh r' (n + line.length) ∨ Shortened r' (n + line.length) := by
  induction line generalizing r n with
  | nil =>
      cases hline
      exact h
  | cons c cs ih =>
      rw [List.foldlM_cons] at hline
      obtain ⟨next, hstep, hcs⟩ := Option.bind_eq_some_iff.mp hline
      have hnext : Unquoted sh next (n + 1) ∨ Shortened next (n + 1) := by
        rcases h with h | h
        · unfold Shell.step at hstep
          rw [h.quoting] at hstep
          exact stepPlain_unquoted h hstep
        · exact .inr (step_shortened h hstep)
      rw [List.length_cons, Nat.add_comm cs.length 1, ← Nat.add_assoc]
      exact ih hnext hcs

/-! ## Words joined by spaces -/

theorem length_joined {words : List (List Char)} (hne : words ≠ []) :
    ([' '].intercalate words).length + 1 = (words.map List.length).sum + words.length := by
  induction words with
  | nil => exact absurd rfl hne
  | cons word words ih =>
      cases words with
      | nil => simp
      | cons word' words =>
          have hrest := ih (by simp)
          rw [List.intercalate_cons_cons, List.length_append, List.length_append, List.map_cons,
            List.sum_cons, List.length_cons (a := word)]
          rw [List.length_singleton]
          omega

/-- A list of words that is joined by spaces is read back exactly when all of
them are plain. -/
theorem Shell.words_joined_iff {words : List (List Char)} (hne : words ≠ []) :
    sh.words ([' '].intercalate words) = some words ↔ ∀ word ∈ words, sh.PlainWord word := by
  constructor
  · intro h
    obtain ⟨r, hline, hend⟩ := Option.bind_eq_some_iff.mp h
    have hwords : r.finish.words = words := by
      split at hend
      · exact Option.some.inj hend
      · cases hend
    have hstart : Unquoted sh {} 0 := ⟨rfl, by simp, by simp, by simp [Reading.size]⟩
    have hsize : r.size = (words.map List.length).sum := by
      rw [← Reading.size_finish, Reading.size, hwords]
      rfl
    have hlength := r.length_finish
    have hjoined := length_joined hne
    rw [hwords] at hlength
    rcases foldlM_counted (.inl hstart) hline with hplain | hshort
    · rw [← hwords]
      exact hplain.finish.words_plain
    · have hle := hshort.size_le
      omega
  · intro h
    obtain ⟨r, hline, hquoting, hwords⟩ := foldlM_joined hne h []
    refine Option.bind_eq_some_iff.mpr ⟨r, hline, ?_⟩
    rw [if_pos hquoting, hwords, List.nil_append]

/-- Lists of plain words that are joined to the same line are the same. -/
theorem Shell.joined_injective {words words' : List (List Char)} (hne : words ≠ [])
    (hne' : words' ≠ []) (h : ∀ word ∈ words, sh.PlainWord word)
    (h' : ∀ word ∈ words', sh.PlainWord word)
    (heq : [' '].intercalate words = [' '].intercalate words') : words = words' := by
  have hread := (words_joined_iff hne).mpr h
  rw [heq, (words_joined_iff hne').mpr h'] at hread
  exact (Option.some.inj hread).symm

end

end CppLint.Lib
