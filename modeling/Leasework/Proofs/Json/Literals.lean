import Leasework.Json.Text
import Mathlib.Data.List.TakeWhile
import Mathlib.Tactic.SplitIfs

/-!
# `Leasework.Proofs.Json.Literals`: texts and whole numbers in JSON

A text is written one character after the other, and what stands for a character is read as that
character, whatever it is and whatever follows (`literalTail_escape`): a short escape
(`literalTail_short`), a control character by its code (`literalTail_control`), or the character
itself (`literalTail_plain`). So a whole literal is read back (`literalTail_flatMap_escape`).

A whole number is written in decimal digits without a zero in front
(`eq_nil_of_toDigits_eq_zero_cons`), so the reader of numbers takes the whole literal for its whole
part (`wholePart?_toDigits`) and gets the number back if it fits 64 bits (`number?_toString`).
-/

set_option autoImplicit false

namespace Leasework.Json

/-! ### Texts -/

/-- A digit is read with the value it was written for. -/
theorem hexValue?_hexDigit : ∀ {n : Nat}, n < 16 → hexValue? (hexDigit n) = some n := by
  decide

/-- The code of a control character is read from its four digits. -/
theorem hexRun?_control {n : Nat} (control : n < 0x20) :
    hexRun? ['0', '0', hexDigit (n / 16), hexDigit (n % 16)] = some n := by
  have high := hexValue?_hexDigit (n := n / 16) (by omega)
  have low := hexValue?_hexDigit (n := n % 16) (by omega)
  have zero : hexValue? '0' = some 0 := rfl
  have digits : n / 16 * 16 + n % 16 = n := by omega
  simp [hexRun?, zero, high, low, digits]

/-- A character that needs no escape is read as it is. -/
theorem literalTail_plain {c : Char} (mark : c ≠ '"') (backslash : c ≠ '\\')
    (control : ¬ c.toNat < 0x20) (acc rest : List Char) :
    literalTail acc (c :: rest) = literalTail (c :: acc) rest := by
  rw [literalTail, if_neg control]
  · exact mark
  · exact fun _ _ _ _ _ h => absurd h backslash
  · exact fun _ _ h => absurd h backslash

/-- A short escape is read as the character it stands for. -/
theorem literalTail_short {e c : Char} (means : shortEscape? e = some c) (acc rest : List Char) :
    literalTail acc ('\\' :: e :: rest) = literalTail (c :: acc) rest := by
  have plain : e ≠ 'u' := by
    rintro rfl
    cases means
  rw [literalTail, means]
  exact fun _ _ _ _ _ h => absurd h plain

/-- A control character is read from its code. -/
theorem literalTail_control {c : Char} (control : c.toNat < 0x20) (acc rest : List Char) :
    literalTail acc
        ('\\' :: 'u' :: '0' :: '0' :: hexDigit (c.toNat / 16) :: hexDigit (c.toNat % 16) :: rest)
      = literalTail (c :: acc) rest := by
  have low : isLowHalf c.toNat = false := by simp [isLowHalf]; omega
  have high : isHighHalf c.toNat = false := by simp [isHighHalf]; omega
  simp [literalTail, hexRun?_control control, low, high]

/-- What stands for a character is read as the character. -/
theorem literalTail_escape (c : Char) (acc rest : List Char) :
    literalTail acc (escape c ++ rest) = literalTail (c :: acc) rest := by
  unfold escape
  split_ifs with mark backslash backspace feed newline ret tab control
  · subst mark
    exact literalTail_short rfl acc rest
  · subst backslash
    exact literalTail_short rfl acc rest
  · subst backspace
    exact literalTail_short rfl acc rest
  · subst feed
    exact literalTail_short rfl acc rest
  · subst newline
    exact literalTail_short rfl acc rest
  · subst ret
    exact literalTail_short rfl acc rest
  · subst tab
    exact literalTail_short rfl acc rest
  · exact literalTail_control control acc rest
  · exact literalTail_plain mark backslash control acc rest

/-- A literal is read back up to its closing mark. -/
theorem literalTail_flatMap_escape (cs acc rest : List Char) :
    literalTail acc (cs.flatMap escape ++ '"' :: rest)
      = some (String.ofList (acc.reverse ++ cs), rest) := by
  induction cs generalizing acc with
  | nil => simp [literalTail]
  | cons c cs ih =>
    rw [List.flatMap_cons, List.append_assoc, literalTail_escape, ih, List.reverse_cons,
      List.append_assoc, List.singleton_append]

/-- The characters of a literal. -/
def quotedLetters (s : String) : List Char := '"' :: (s.toList.flatMap escape ++ ['"'])

/-- A literal is read back after its opening mark. -/
theorem literalTail_quotedLetters (s : String) (rest : List Char) :
    literalTail [] (s.toList.flatMap escape ++ '"' :: rest) = some (s, rest) := by
  rw [literalTail_flatMap_escape, List.reverse_nil, List.nil_append, String.ofList_toList]

/-- Characters that are pushed one by one stand at the end. -/
theorem toList_foldl_push (cs : List Char) (out : String) :
    (cs.foldl String.push out).toList = out.toList ++ cs := by
  induction cs generalizing out with
  | nil => simp
  | cons c cs ih => simp [ih]

/-- A literal is written at the end of a text. -/
theorem toList_pushQuoted (out s : String) :
    (pushQuoted out s).toList = out.toList ++ quotedLetters s := by
  have escaped (cs : List Char) (out : String) :
      (cs.foldl (fun out c => (escape c).foldl String.push out) out).toList
        = out.toList ++ cs.flatMap escape := by
    induction cs generalizing out with
    | nil => simp
    | cons c cs ih => rw [List.foldl_cons, ih, toList_foldl_push, List.append_assoc,
        List.flatMap_cons]
  simp [pushQuoted, escaped, quotedLetters]

/-! ### Whole numbers -/

/-- A number of more than one digit does not begin with a zero. -/
theorem eq_nil_of_toDigits_eq_zero_cons {n : Nat} {rest : List Char}
    (zero : Nat.toDigits 10 n = '0' :: rest) : rest = [] := by
  induction n using Nat.strongRecOn generalizing rest with
  | ind n ih =>
    by_cases short : n < 10
    · rw [Nat.toDigits_of_lt_base short] at zero
      exact (List.cons.inj zero).2.symm
    · -- The first digit is the first one of a tenth of the number, which is not zero.
      exfalso
      have split : Nat.toDigits 10 n = Nat.toDigits 10 (n / 10) ++ Nat.toDigits 10 (n % 10) := by
        rw [Nat.toDigits_append_toDigits (by omega) (by omega) (by omega), Nat.div_add_mod]
      cases tenth : Nat.toDigits 10 (n / 10) with
      | nil => exact Nat.toDigits_ne_nil tenth
      | cons c cs =>
        rw [split, tenth, List.cons_append] at zero
        obtain ⟨rfl, -⟩ := List.cons.inj zero
        have none : cs = [] := ih (n / 10) (by omega) tenth
        have value : Nat.ofDigitChars 10 (Nat.toDigits 10 (n / 10)) 0 = n / 10 :=
          Nat.ofDigitChars_ten_toDigits
        rw [tenth, none] at value
        have : Nat.ofDigitChars 10 ['0'] 0 = 0 := rfl
        omega

/-- A number is written in digits. -/
theorem isDigit_of_mem_toDigits {n : Nat} {c : Char} (h : c ∈ Nat.toDigits 10 n) :
    c.isDigit = true :=
  Nat.isDigit_of_mem_toDigits (by omega) (by omega) h

/-- The digits of a number are its whole part. -/
theorem wholePart?_toDigits (n : Nat) : wholePart? (Nat.toDigits 10 n) = some [] := by
  have digit (c : Char) (h : c ∈ Nat.toDigits 10 n) : c.isDigit = true :=
    isDigit_of_mem_toDigits h
  cases written : Nat.toDigits 10 n with
  | nil => exact absurd written Nat.toDigits_ne_nil
  | cons c cs =>
    rw [written] at digit
    by_cases zero : c = '0'
    · subst zero
      rw [wholePart?, eq_nil_of_toDigits_eq_zero_cons written]
    · rw [wholePart?, digitRun?, if_pos (digit c List.mem_cons_self),
        List.dropWhile_eq_nil_iff.mpr fun d h => digit d (List.mem_cons_of_mem c h)]
      exact fun _ h => absurd (List.cons.inj h).1 zero

/-- The value of the digits of a number is the number. -/
theorem foldl_toDigits (n : Nat) :
    (Nat.toDigits 10 n).foldl (fun value c => value * 10 + (c.toNat - '0'.toNat)) 0 = n := by
  have value : Nat.ofDigitChars 10 (Nat.toDigits 10 n) 0 = n := Nat.ofDigitChars_ten_toDigits
  simpa only [Nat.ofDigitChars, Nat.mul_comm] using value

/-- The whole numbers that are read as such. -/
def Fits (n : Int) : Prop := -9223372036854775808 ≤ n ∧ n < 18446744073709551616

/-- The digits of a number are read as the number. -/
theorem number?_toDigits {n : Nat} (fits : Fits n) :
    number? (Nat.toDigits 10 n) = some (.integer n) := by
  obtain ⟨low, high⟩ := fits
  unfold number?
  split
  next negative digits signs =>
    obtain ⟨rfl, rfl⟩ : negative = false ∧ digits = Nat.toDigits 10 n := by
      split at signs
      next rest minus =>
        have : '-' ∈ Nat.toDigits 10 n := minus ▸ List.mem_cons_self
        exact absurd (isDigit_of_mem_toDigits this) (by decide)
      next => exact ⟨(Prod.mk.inj signs).1.symm, (Prod.mk.inj signs).2.symm⟩
    -- The kernel is not to decide by itself whether a variable fits 64 bits.
    simp -implicitDefEqProofs only [wholePart?_toDigits, Option.bind_eq_bind, Option.bind_some,
      List.isEmpty_nil, if_true, foldl_toDigits, Bool.false_eq_true, if_false, decide_eq_true low,
      decide_eq_true high, Bool.false_and, Bool.not_false, Bool.and_true]

/-- A minus sign in front negates what is not zero. -/
theorem number?_minus_toDigits {n : Nat} (nonzero : n ≠ 0) (fits : Fits (-n)) :
    number? ('-' :: Nat.toDigits 10 n) = some (.integer (-n)) := by
  obtain ⟨low, high⟩ := fits
  unfold number?
  simp -implicitDefEqProofs only [wholePart?_toDigits, Option.bind_eq_bind, Option.bind_some,
    List.isEmpty_nil, if_true, foldl_toDigits, decide_eq_true low, decide_eq_true high,
    decide_eq_false nonzero, Bool.and_false, Bool.not_false, Bool.and_true]

/-- A number that is not negative is written in digits alone. -/
theorem toList_toString_ofNat (n : Nat) : (toString (n : Int)).toList = Nat.toDigits 10 n := by
  rw [Int.toString_eq_repr]
  exact Nat.toList_repr

/-- A negative number is written with a minus sign. -/
theorem toList_toString_negSucc (n : Nat) :
    (toString (Int.negSucc n)).toList = '-' :: Nat.toDigits 10 (n + 1) := by
  rw [Int.toString_eq_repr]
  show ("-" ++ (n + 1).repr).toList = _
  rw [String.toList_append, Nat.toList_repr]
  rfl

/-- A digit may stand in a number. -/
theorem isNumberPart_of_isDigit {c : Char} (h : c.isDigit = true) : isNumberPart c = true := by
  simp [isNumberPart, h]

/-- The characters of a whole number may all stand in a number. -/
theorem isNumberPart_of_mem_toString {n : Int} {c : Char} (h : c ∈ (toString n).toList) :
    isNumberPart c = true := by
  cases n with
  | ofNat n =>
    rw [Int.ofNat_eq_natCast, toList_toString_ofNat] at h
    exact isNumberPart_of_isDigit (isDigit_of_mem_toDigits h)
  | negSucc n =>
    rw [toList_toString_negSucc, List.mem_cons] at h
    obtain rfl | h := h
    · rfl
    · exact isNumberPart_of_isDigit (isDigit_of_mem_toDigits h)

/-- A whole number is read back. -/
theorem number?_toString {n : Int} (fits : Fits n) :
    number? (toString n).toList = some (.integer n) := by
  cases n with
  | ofNat n =>
    rw [Int.ofNat_eq_natCast, toList_toString_ofNat]
    exact number?_toDigits fits
  | negSucc n =>
    rw [toList_toString_negSucc]
    exact number?_minus_toDigits n.succ_ne_zero fits

end Leasework.Json
