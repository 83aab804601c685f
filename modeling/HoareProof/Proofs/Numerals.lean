import HoareProof.Number.Basic
import HoareProof.Number.Numeral
import Mathlib.Data.List.Induction
import Mathlib.Data.List.TakeWhile
import Mathlib.Tactic.Ring

namespace HoareProof

/-!
Digits and whole numbers.  A whole number is written with the digits of ASCII and
without leading zeros, but it is read from the digits of every script and with any
number of leading zeros.  Reading gives back what was written, and what has been read
can be written within the limit on the length of numerals: more digits than the
numeral had are never needed.
-/

namespace Text

theorem isAsciiDigit_of_isDigit {c : Char} (digit : c.isDigit = true) :
    isAsciiDigit c = true := by
  simp only [Char.isDigit, ge_iff_le, Bool.and_eq_true, decide_eq_true_eq] at digit
  simp only [isAsciiDigit, Bool.and_eq_true, decide_eq_true_eq]
  exact digit

theorem decimalValue?_of_isAsciiDigit {c : Char} (digit : isAsciiDigit c = true) :
    decimalValue? c = some (c.toNat - 48) := by
  unfold isAsciiDigit at digit
  rw [decimalValue?, if_pos digit]

theorem isDigit_of_isAsciiDigit {c : Char} (digit : isAsciiDigit c = true) :
    isDigit c = true := by
  rw [isDigit, decimalValue?_of_isAsciiDigit digit]
  rfl

/-- The value of a digit of any script is a digit. -/
theorem decimalValue?_lt_ten {c : Char} {value : Nat} (found : decimalValue? c = some value) :
    value < 10 := by
  unfold decimalValue? at found
  split at found
  next ascii =>
    simp only [Bool.and_eq_true, decide_eq_true_eq] at ascii
    have atMostNine : c.toNat ≤ 57 := ascii.2
    cases found
    omega
  next =>
    split at found
    · cases found
    · obtain ⟨start, member, rfl⟩ := Option.map_eq_some_iff.mp found
      have inRun := List.find?_some member
      simp only [Bool.and_eq_true, decide_eq_true_eq] at inRun
      omega

/-- A class of characters ends at a text that is empty or starts with a character
outside the class. -/
def Halts (class? : Char -> Bool) (rest : List Char) : Prop :=
  forall c, rest.head? = some c -> class? c = false

theorem halts_nil (class? : Char -> Bool) : Halts class? [] := by
  intro c first
  cases first

theorem takeWhile_append_of_halts {class? : Char -> Bool} {front rest : List Char}
    (inside : forall c, c ∈ front -> class? c = true) (halts : Halts class? rest) :
    (front ++ rest).takeWhile class? = front := by
  rw [List.takeWhile_append_of_pos inside]
  cases rest with
  | nil => simp
  | cons c rest => simp [halts c rfl]

theorem dropWhile_append_of_halts {class? : Char -> Bool} {front rest : List Char}
    (inside : forall c, c ∈ front -> class? c = true) (halts : Halts class? rest) :
    (front ++ rest).dropWhile class? = rest := by
  rw [List.dropWhile_append_of_pos inside]
  cases rest with
  | nil => rfl
  | cons c rest => simp [halts c rfl]

end Text

namespace Numeral

/-- Digits of ASCII only. -/
def IsAscii (digits : List Char) : Prop :=
  forall c, c ∈ digits -> Text.isAsciiDigit c = true

theorem IsAscii.append {front back : List Char} (asciiFront : IsAscii front)
    (asciiBack : IsAscii back) : IsAscii (front ++ back) := by
  intro c member
  rcases List.mem_append.mp member with inFront | inBack
  · exact asciiFront c inFront
  · exact asciiBack c inBack

theorem isAscii_replicate_zero (count : Nat) : IsAscii (List.replicate count '0') := by
  intro c member
  rw [List.eq_of_mem_replicate member]
  rfl

theorem isAscii_toDigits (n : Nat) : IsAscii (Nat.toDigits 10 n) := by
  intro c member
  apply Text.isAsciiDigit_of_isDigit
  exact Nat.isDigit_of_mem_toDigits (by decide) (by decide) member

theorem isDecimal_of_isAsciiDigit {c : Char} (digit : Text.isAsciiDigit c = true) :
    isDecimal c = true := by
  rw [isDecimal, Text.decimalValue?_of_isAsciiDigit digit]
  rfl

theorem IsAscii.all_isDecimal {digits : List Char} (ascii : IsAscii digits) :
    digits.all isDecimal = true :=
  List.all_eq_true.mpr fun c member => isDecimal_of_isAsciiDigit (ascii c member)

/-! ## The value of digits -/

/-- One digit more multiplies the value of the digits before it by ten. -/
theorem ofDigits_concat (digits : List Char) (c : Char) :
    ofDigits (digits ++ [c]) = 10 * ofDigits digits + (Text.decimalValue? c).getD 0 := by
  unfold ofDigits
  rw [List.foldl_append]
  rfl

theorem ofDigits_append (front back : List Char) :
    ofDigits (front ++ back) = ofDigits front * 10 ^ back.length + ofDigits back := by
  induction back using List.reverseRecOn with
  | nil => simp [ofDigits]
  | append_singleton back c inductionHypothesis =>
      rw [← List.append_assoc, ofDigits_concat, inductionHypothesis, ofDigits_concat,
        List.length_append, List.length_singleton]
      ring

theorem ofDigits_replicate_zero (count : Nat) : ofDigits (List.replicate count '0') = 0 := by
  induction count with
  | zero => rfl
  | succ count inductionHypothesis =>
      rw [List.replicate_succ', ofDigits_concat, inductionHypothesis]
      rfl

theorem ofDigits_eq_ofDigitChars {digits : List Char} (ascii : IsAscii digits) :
    ofDigits digits = Nat.ofDigitChars 10 digits 0 := by
  induction digits using List.reverseRecOn with
  | nil => rfl
  | append_singleton digits c inductionHypothesis =>
      have asciiFront : IsAscii digits := fun d member => ascii d (List.mem_append_left [c] member)
      have asciiLast : Text.isAsciiDigit c = true := ascii c (by simp)
      rw [ofDigits_concat, inductionHypothesis asciiFront, Nat.ofDigitChars_append,
        Text.decimalValue?_of_isAsciiDigit asciiLast]
      rfl

/-- The digits of a number have its value. -/
@[simp] theorem ofDigits_toDigits (n : Nat) : ofDigits (Nat.toDigits 10 n) = n := by
  rw [ofDigits_eq_ofDigitChars (isAscii_toDigits n), Nat.ofDigitChars_ten_toDigits]

theorem ofDigits_lt_pow (digits : List Char) : ofDigits digits < 10 ^ digits.length := by
  induction digits using List.reverseRecOn with
  | nil => decide
  | append_singleton digits c inductionHypothesis =>
      have digitBound : (Text.decimalValue? c).getD 0 < 10 := by
        cases found : Text.decimalValue? c with
        | none => decide
        | some value => exact Text.decimalValue?_lt_ten found
      rw [ofDigits_concat, List.length_append, List.length_singleton, pow_succ]
      omega

/-! ## Whole numbers -/

/-- A whole number that is written within the limit is read back. -/
theorem readWhole_toDigits {n : Nat} (short : (Nat.toDigits 10 n).length ≤ lengthLimit) :
    readWhole (String.ofList (Nat.toDigits 10 n)) = .ok n := by
  have allDecimal : (Nat.toDigits 10 n).takeWhile isDecimal = Nat.toDigits 10 n := by
    rw [List.takeWhile_eq_self_iff]
    exact fun c member => isDecimal_of_isAsciiDigit (isAscii_toDigits n c member)
  have nonempty : (Nat.toDigits 10 n).isEmpty = false := by
    simp [Nat.toDigits_ne_nil]
  simp only [readWhole, String.toList_ofList, allDecimal, nonempty, Nat.not_lt.mpr short,
    Nat.lt_irrefl, decide_false, Bool.or_self, Bool.false_eq_true, if_false, ofDigits_toDigits]

/-- A number that has been read needs no more digits than the limit allows. -/
theorem length_toDigits_of_readWhole {text : String} {n : Nat} (read : readWhole text = .ok n) :
    (Nat.toDigits 10 n).length ≤ lengthLimit := by
  unfold readWhole at read
  simp only at read
  split at read
  · cases read
  next withinLimit =>
    split at read
    · cases read
    · injection read with value
      rw [Nat.length_toDigits_le_iff (by decide) (by decide), ← value]
      calc ofDigits (text.toList.takeWhile isDecimal)
          < 10 ^ (text.toList.takeWhile isDecimal).length := ofDigits_lt_pow _
        _ ≤ 10 ^ lengthLimit := Nat.pow_le_pow_right (by decide) (Nat.not_lt.mp withinLimit)

end Numeral
end HoareProof
