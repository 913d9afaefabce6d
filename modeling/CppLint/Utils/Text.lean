/-
CppLint.Utils.Text — the string helpers of the program
(`src/utils/common.h`, `src/utils/std.h`) and `std::stoi`.

A `std::string` is a Lean `String` of which each character stands for one
byte, so every byte string is one (its bytes are the characters 0 to 255)
and every operation below works character by character.
-/
import Mathlib.Algebra.Group.Int.Defs
import Mathlib.Algebra.Group.Nat.Defs
import Mathlib.Data.List.TakeWhile
import CppLint.Utils.Fault

namespace CppLint

open CppLint.Lib

/-- The characters `trim_left` and `trim_right` remove. -/
def isBlank (c : Char) : Bool := c = ' ' || c = '\n'

/-- `trim_left`: a string of blanks only is returned as it is. -/
def trimLeft (str : List Char) : List Char :=
  match str.findIdx? (fun c => !isBlank c) with
  | some idx => str.drop idx
  | none => str

/-- `trim_right`, likewise. -/
def trimRight (str : List Char) : List Char :=
  match str.reverse.findIdx? (fun c => !isBlank c) with
  | some idx => (str.reverse.drop idx).reverse
  | none => str

/-- `trim`. -/
def trim (str : String) : String := String.ofList (trimRight (trimLeft str.toList))

example : trim " /usr/bin/clang-tidy\n" = "/usr/bin/clang-tidy" := by decide

/-- `trim_left` removes the blanks in front. -/
theorem exists_blanks_trimLeft (str : List Char) :
    ∃ blanks, (∀ c ∈ blanks, isBlank c = true) ∧ str = blanks ++ trimLeft str := by
  unfold trimLeft
  split
  · rename_i idx hidx
    refine ⟨str.take idx, ?_, (List.take_append_drop idx str).symm⟩
    obtain ⟨hlt, _, hbefore⟩ := List.findIdx?_eq_some_iff_getElem.mp hidx
    intro c hc
    obtain ⟨j, hj, rfl⟩ := List.mem_iff_getElem.mp hc
    rw [List.length_take] at hj
    rw [List.getElem_take]
    simpa using hbefore j (by omega)
  · exact ⟨[], by simp, rfl⟩

theorem trimLeft_append {blanks str : List Char} {c : Char}
    (hblanks : ∀ b ∈ blanks, isBlank b = true) (hc : isBlank c = false) :
    trimLeft (blanks ++ c :: str) = c :: str := by
  have hnone : blanks.findIdx? (fun b => !isBlank b) = none := by
    simpa using hblanks
  unfold trimLeft
  rw [List.findIdx?_append, hnone]
  simp [List.findIdx?_cons, hc]

/-- A string of blanks is not touched. -/
theorem trimLeft_of_blank {str : List Char} (h : ∀ c ∈ str, isBlank c = true) :
    trimLeft str = str := by
  have hnone : str.findIdx? (fun c => !isBlank c) = none := by
    simpa using h
  unfold trimLeft
  rw [hnone]

/-- `trim_right` is `trim_left` from the other end. -/
theorem trimRight_reverse (str : List Char) : trimRight str.reverse = (trimLeft str).reverse := by
  unfold trimRight trimLeft
  rw [List.reverse_reverse]
  cases str.findIdx? (fun c => !isBlank c) <;> rfl

theorem trimRight_append {blanks str : List Char} {c : Char}
    (hblanks : ∀ b ∈ blanks, isBlank b = true) (hc : isBlank c = false) :
    trimRight (str ++ c :: blanks) = str ++ [c] := by
  have hreverse : str ++ c :: blanks = (blanks.reverse ++ c :: str.reverse).reverse := by simp
  rw [hreverse, trimRight_reverse, trimLeft_append (by simpa using hblanks) hc]
  simp

theorem trimRight_of_blank {str : List Char} (h : ∀ c ∈ str, isBlank c = true) :
    trimRight str = str := by
  have hreverse := trimRight_reverse str.reverse
  rw [trimLeft_of_blank (by simpa using h)] at hreverse
  simpa using hreverse

/-- `ranges::views::split(str, delim)`: all fields between delimiters, empty
ones and a final empty one included. -/
def splitFields (str : List Char) (delim : Char) : List (List Char) := str.splitOn delim

/-- No field of a split contains the delimiter. -/
theorem not_mem_of_mem_splitOn {delim : Char} {str field : List Char}
    (h : field ∈ str.splitOn delim) : delim ∉ field := by
  induction str generalizing field with
  | nil =>
      rw [List.splitOn_nil, List.mem_singleton] at h
      simp [h]
  | cons c cs ih =>
      rw [List.splitOn_cons_eq_if_modifyHead] at h
      obtain ⟨first, rest, hsplit⟩ := List.exists_cons_of_ne_nil (List.splitOn_ne_nil delim cs)
      split at h
      · rcases List.mem_cons.mp h with rfl | h
        · simp
        · exact ih h
      · rename_i hne
        rw [hsplit, List.modifyHead_cons] at h
        rcases List.mem_cons.mp h with rfl | h
        · have hfirst : delim ∉ first := ih (by simp [hsplit])
          have hc : delim ≠ c := fun heq => hne (by simp [heq])
          simp [hfirst, hc]
        · exact ih (by simp [hsplit, h])

/-- The fields joined by the delimiter are the string, and none contains it. -/
theorem splitFields_spec {str : List Char} {delim : Char} {fields : List (List Char)}
    (h : splitFields str delim = fields) :
    str = [delim].intercalate fields ∧ ∀ field ∈ fields, delim ∉ field := by
  subst h
  exact ⟨(List.intercalate_splitOn delim).symm, fun _ hmem => not_mem_of_mem_splitOn hmem⟩

/-- `concat`: the strings joined by the delimiter. -/
def concat (strs : List String) (delim : Char) : String :=
  String.ofList ([delim].intercalate (strs.map String.toList))

/-- `std::isspace` in the C locale. -/
def isSpace (c : Char) : Bool := c = ' ' || ('\t' ≤ c && c ≤ '\r')

/-- The value of a string of decimal digits. -/
def decimalValue (digits : List Char) : Nat :=
  digits.foldl (fun n c => 10 * n + (c.toNat - '0'.toNat)) 0

/-- The sign `strtol` reads, and what follows it. -/
def readSign : List Char → Bool × List Char
  | '-' :: cs => (true, cs)
  | '+' :: cs => (false, cs)
  | cs => (false, cs)

/-- `std::stoi`: leading white space and a sign are skipped, what follows
the digits is ignored. -/
def stoi (str : String) : Except Fault Int :=
  let (negative, rest) := readSign (str.toList.dropWhile isSpace)
  let digits := rest.takeWhile Char.isDigit
  if digits.isEmpty then .error .stoiInvalidArgument
  else
    let value : Int := if negative then - (decimalValue digits) else decimalValue digits
    if - 2 ^ 31 ≤ value ∧ value < 2 ^ 31 then .ok value else .error .stoiOutOfRange

example : stoi " -12ab" = .ok (-12) := by decide

/-- What `std::stoi` returns is an `int`. -/
theorem stoi_bounds {str : String} {n : Int} (h : stoi str = .ok n) :
    - 2 ^ 31 ≤ n ∧ n < 2 ^ 31 := by
  simp only [stoi] at h
  split_ifs at h with hempty hneg hrange hrange
  · injection h with hvalue
    exact hvalue ▸ hrange
  · injection h with hvalue
    exact hvalue ▸ hrange

/-- `std::stoi` returns an `int`, or throws one of its two exceptions. -/
theorem stoi_guarantees {E : Fault → Prop} (hinvalid : E .stoiInvalidArgument)
    (hrange : E .stoiOutOfRange) (str : String) :
    Guarantees (stoi str) (fun n => - 2 ^ 31 ≤ n ∧ n < 2 ^ 31) E := by
  cases h : stoi str with
  | ok n => exact stoi_bounds h
  | error f =>
      simp only [stoi] at h
      split_ifs at h with hempty hneg hin hin
      · cases h
        exact hinvalid
      · cases h
        exact hrange
      · cases h
        exact hrange

/-- The digits of a number have its value. -/
theorem decimalValue_toDigits (n : Nat) : decimalValue (Nat.toDigits 10 n) = n :=
  Nat.ofDigitChars_ten_toDigits

theorem isDigit_toNat {c : Char} (h : c.isDigit = true) : 48 ≤ c.toNat ∧ c.toNat ≤ 57 := by
  simpa [Char.isDigit, UInt32.le_iff_toNat_le] using h

theorem not_isSpace_of_isDigit {c : Char} (h : c.isDigit = true) : isSpace c = false := by
  obtain ⟨hlow, hhigh⟩ := isDigit_toNat h
  have hspace : c ≠ ' ' := by
    rintro rfl
    exact absurd hlow (by decide)
  have hcontrol : ¬ c ≤ '\r' := by
    intro hle
    have hle' : c.toNat ≤ 13 := hle
    omega
  simp [isSpace, hspace, hcontrol]

/-- `str` starts with the number `n` in the range of an `int`: white space, a
sign, and digits up to the first other character. -/
def StartsWithInt (str : String) (n : Int) : Prop :=
  ∃ space sign digits rest, str.toList = space ++ (sign ++ (digits ++ rest)) ∧
    (∀ c ∈ space, isSpace c = true) ∧ sign ∈ [[], ['+'], ['-']] ∧
    digits ≠ [] ∧ (∀ c ∈ digits, c.isDigit = true) ∧ (∀ c ∈ rest.head?, c.isDigit = false) ∧
    n = (if sign = ['-'] then -(decimalValue digits : Int) else decimalValue digits) ∧
    - 2 ^ 31 ≤ n ∧ n < 2 ^ 31

/-- What `readSign` leaves is what follows the sign. -/
theorem readSign_spec (cs : List Char) :
    ∃ sign, sign ∈ [[], ['+'], ['-']] ∧ cs = sign ++ (readSign cs).2 ∧
      (readSign cs).1 = decide (sign = ['-']) := by
  unfold readSign
  split
  · exact ⟨['-'], by simp, by simp, by simp⟩
  · exact ⟨['+'], by simp, by simp, by simp⟩
  · exact ⟨[], by simp, by simp, by simp⟩

/-- A sign in front of a digit is read as it stands. -/
theorem readSign_append {sign : List Char} (hsign : sign ∈ [[], ['+'], ['-']]) {c : Char}
    (hc : c.isDigit = true) (cs : List Char) :
    readSign (sign ++ c :: cs) = (decide (sign = ['-']), c :: cs) := by
  have hplus : c ≠ '+' := by
    rintro rfl
    cases hc
  have hminus : c ≠ '-' := by
    rintro rfl
    cases hc
  simp only [List.mem_cons, List.not_mem_nil, or_false] at hsign
  rcases hsign with rfl | rfl | rfl
  · simp [readSign, hplus, hminus]
  · simp [readSign]
  · simp [readSign]

theorem not_isSpace_of_sign {sign : List Char} (hsign : sign ∈ [[], ['+'], ['-']]) {c : Char}
    (hc : c.isDigit = true) (cs : List Char) :
    ∀ d ∈ (sign ++ c :: cs).head?, isSpace d = false := by
  simp only [List.mem_cons, List.not_mem_nil, or_false] at hsign
  rcases hsign with rfl | rfl | rfl
  · simpa using not_isSpace_of_isDigit hc
  · simp [isSpace]
  · simp [isSpace]

/-- What stands in front of the first character that fails a test is taken. -/
theorem span_append {p : Char → Bool} {l rest : List Char} (hl : ∀ c ∈ l, p c = true)
    (hrest : ∀ c ∈ rest.head?, p c = false) :
    (l ++ rest).takeWhile p = l ∧ (l ++ rest).dropWhile p = rest := by
  rw [List.takeWhile_append_of_pos hl, List.dropWhile_append_of_pos hl]
  cases rest with
  | nil => simp
  | cons c cs =>
      have hc : p c = false := hrest c (by simp)
      simp [hc]

/-- **Acceptance** of `std::stoi`: it returns the number the string starts
with. -/
theorem stoi_eq_ok_iff {str : String} {n : Int} : stoi str = .ok n ↔ StartsWithInt str n := by
  constructor
  · intro h
    obtain ⟨sign, hsign, hrest, hnegative⟩ := readSign_spec (str.toList.dropWhile isSpace)
    have hrange := stoi_bounds h
    simp only [stoi, hnegative, decide_eq_true_eq] at h
    generalize (readSign (str.toList.dropWhile isSpace)).2 = rest at h hrest
    split at h
    · cases h
    rename_i hempty
    generalize hvalue : (if sign = ['-'] then -(decimalValue (rest.takeWhile Char.isDigit) : Int)
      else decimalValue (rest.takeWhile Char.isDigit)) = value at h
    split at h
    · injection h with hn
      subst hn
      refine ⟨str.toList.takeWhile isSpace, sign, rest.takeWhile Char.isDigit,
        rest.dropWhile Char.isDigit, ?_, fun c => List.mem_takeWhile_imp, hsign,
        by simpa using hempty, fun c => List.mem_takeWhile_imp, ?_, hvalue.symm, hrange⟩
      · rw [List.takeWhile_append_dropWhile, ← hrest, List.takeWhile_append_dropWhile]
      · intro c hc
        have hhead := List.head?_dropWhile_not Char.isDigit rest
        rw [hc] at hhead
        simpa using hhead
    · cases h
  · rintro ⟨space, sign, digits, rest, hstr, hspace, hsign, hne, hdigits, hrest, hn, hrange⟩
    obtain ⟨c, cs, rfl⟩ := List.exists_cons_of_ne_nil hne
    have hc : c.isDigit = true := hdigits c (by simp)
    have hdrop := (span_append hspace (not_isSpace_of_sign hsign hc (cs ++ rest))).2
    have htake := (span_append hdigits hrest).1
    rw [List.cons_append] at hstr htake
    unfold stoi
    rw [hstr, hdrop, readSign_append hsign hc]
    simp only [htake, decide_eq_true_eq]
    rw [← hn, if_pos hrange]
    rfl

/-- What `std::stoi` does with a string of digits. -/
theorem stoi_of_digits {str : String} (h : ∀ c ∈ str.toList, c.isDigit = true) :
    stoi str =
      if str = "" then .error .stoiInvalidArgument
      else if decimalValue str.toList < 2 ^ 31 then .ok (decimalValue str.toList)
      else .error .stoiOutOfRange := by
  have hspace : ∀ c ∈ str.toList.head?, isSpace c = false := fun c hc =>
    not_isSpace_of_isDigit (h c (List.mem_of_mem_head? hc))
  have hdrop : str.toList.dropWhile isSpace = str.toList :=
    (span_append (l := []) (by simp) hspace).2
  have hsign : readSign str.toList = (false, str.toList) := by
    cases hl : str.toList with
    | nil => rfl
    | cons c cs => simpa using readSign_append List.mem_cons_self (h c (by simp [hl])) cs
  have htake : str.toList.takeWhile Char.isDigit = str.toList := by
    rw [List.takeWhile_eq_self_iff]
    exact h
  unfold stoi
  rw [hdrop, hsign]
  dsimp only
  rw [htake]
  by_cases hempty : str = ""
  · simp [hempty]
  · have hne : str.toList.isEmpty = false := by simpa using hempty
    rw [hne, if_neg hempty]
    by_cases hlt : decimalValue str.toList < 2 ^ 31
    · rw [if_pos hlt]
      simp
      omega
    · rw [if_neg hlt]
      simp
      omega

/-- The conversion of an integer to `std::size_t`. -/
def sizeT (n : Int) : Nat := (n % 2 ^ 64).toNat

theorem sizeT_natCast_le (n : Nat) : sizeT n ≤ n := by
  unfold sizeT
  omega

theorem sizeT_natCast_of_lt {n : Nat} (h : n < 2 ^ 64) : sizeT n = n := by
  unfold sizeT
  omega

end CppLint
