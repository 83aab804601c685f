import HoareProof.Proofs.Rounding

namespace HoareProof
namespace Binary64

/-!
The text of a double.  Whatever its layout, positional or scientific, the text
consists of whole digits, a point with digits and an exponent, of which the last two
may be absent but not both.  From such a text the digits and the exponent are read
back, and they have the value of the decimal that was laid out.
-/

/-- A point and digits, or nothing if there are no digits. -/
def pointed : List Char -> List Char
  | [] => []
  | digits => '.' :: digits

/-- The mark and the exponent, or nothing if there is none. -/
def marked : Option Int -> List Char
  | none => []
  | some exponent => 'e' :: exponentText exponent

/-- The parts of a decimal numeral.  A numeral without a fraction has an exponent, so
that it is told from a whole number. -/
structure Layout.Parts where
  whole : List Char
  fraction : List Char
  exponent : Option Int
  wholeAscii : Numeral.IsAscii whole
  fractionAscii : Numeral.IsAscii fraction
  nonempty : whole ≠ []
  distinct : fraction ≠ [] ∨ exponent.isSome = true

namespace Layout.Parts

/-- The numeral of its parts. -/
def text (parts : Layout.Parts) : List Char :=
  parts.whole ++ (pointed parts.fraction ++ marked parts.exponent)

/-- The digits without the point. -/
def digits (parts : Layout.Parts) : Nat :=
  Numeral.ofDigits (parts.whole ++ parts.fraction)

/-- The exponent for the digits without the point. -/
def power (parts : Layout.Parts) : Int :=
  parts.exponent.getD 0 - parts.fraction.length

end Layout.Parts

/-! ## Reading the parts -/

theorem halts_marked {class? : Char -> Bool} (outside : class? 'e' = false) (exponent : Option Int)
    {rest : List Char} (halts : Text.Halts class? rest) :
    Text.Halts class? (marked exponent ++ rest) := by
  intro c first
  cases exponent with
  | none => exact halts c first
  | some exponent =>
      cases first
      exact outside

theorem halts_pointed {class? : Char -> Bool} (outside : class? '.' = false)
    (fraction : List Char) {rest : List Char} (halts : Text.Halts class? rest) :
    Text.Halts class? (pointed fraction ++ rest) := by
  intro c first
  cases fraction with
  | nil => exact halts c first
  | cons digit more =>
      cases first
      exact outside

theorem magnitude?_of_isAscii {digits : List Char} (ascii : Numeral.IsAscii digits)
    (nonempty : digits ≠ []) :
    Numeral.exponent?.magnitude? digits = some (Numeral.ofDigits digits) := by
  simp [Numeral.exponent?.magnitude?, nonempty, ascii.all_isDecimal]

/-- The digits of an exponent, with the zeros in front of them. -/
def exponentDigits (exponent : Int) : List Char :=
  List.replicate (layout.exponentWidth - (Nat.toDigits 10 exponent.natAbs).length) '0' ++
    Nat.toDigits 10 exponent.natAbs

theorem isAscii_exponentDigits (exponent : Int) : Numeral.IsAscii (exponentDigits exponent) :=
  (Numeral.isAscii_replicate_zero _).append (Numeral.isAscii_toDigits _)

theorem exponentDigits_ne_nil (exponent : Int) : exponentDigits exponent ≠ [] := by
  simp [exponentDigits, Nat.toDigits_ne_nil]

theorem ofDigits_exponentDigits (exponent : Int) :
    Numeral.ofDigits (exponentDigits exponent) = exponent.natAbs := by
  rw [exponentDigits, Numeral.ofDigits_append, Numeral.ofDigits_replicate_zero,
    Numeral.ofDigits_toDigits, Nat.zero_mul, Nat.zero_add]

theorem exponentText_eq (exponent : Int) :
    exponentText exponent = (if exponent < 0 then '-' else '+') :: exponentDigits exponent :=
  rfl

theorem exponent?_exponentText (exponent : Int) :
    Numeral.exponent? (exponentText exponent) = some exponent := by
  have magnitude := magnitude?_of_isAscii (isAscii_exponentDigits exponent)
    (exponentDigits_ne_nil exponent)
  rw [ofDigits_exponentDigits] at magnitude
  rw [exponentText_eq]
  by_cases below : exponent < 0
  · rw [if_pos below, Numeral.exponent?, magnitude]
    change some (-(exponent.natAbs : Int)) = some exponent
    rw [Int.ofNat_natAbs_of_nonpos below.le, Int.neg_neg]
  · rw [if_neg below, Numeral.exponent?, magnitude]
    change some (exponent.natAbs : Int) = some exponent
    rw [Int.natAbs_of_nonneg (Int.not_lt.mp below)]

/-- The digits and the exponent of a decimal numeral are read from its text. -/
theorem decimal?_text (parts : Layout.Parts) :
    Numeral.decimal? parts.text = some (parts.digits, parts.power) := by
  obtain ⟨whole, fraction, exponent, wholeAscii, fractionAscii, nonempty, distinct⟩ := parts
  have wholeInside : forall c, c ∈ whole -> Numeral.isDecimal c = true :=
    fun c member => Numeral.isDecimal_of_isAsciiDigit (wholeAscii c member)
  have fractionHalts : Text.Halts Numeral.isDecimal (marked exponent) := by
    have halts := halts_marked rfl exponent (Text.halts_nil Numeral.isDecimal)
    rwa [List.append_nil] at halts
  have wholeHalts := halts_pointed rfl fraction fractionHalts
  have digitsNonempty : (whole ++ fraction).isEmpty = false := by simp [nonempty]
  unfold Numeral.decimal? Layout.Parts.text Layout.Parts.digits Layout.Parts.power
  simp only [Text.takeWhile_append_of_halts wholeInside wholeHalts,
    Text.dropWhile_append_of_halts wholeInside wholeHalts]
  cases fraction with
  | nil =>
      cases exponent with
      | none => simp at distinct
      | some exponent =>
          simp [pointed, marked, nonempty, exponent?_exponentText]
  | cons digit more =>
      have fractionInside : forall c, c ∈ digit :: more -> Numeral.isDecimal c = true :=
        fun c member => Numeral.isDecimal_of_isAsciiDigit (fractionAscii c member)
      simp only [pointed, List.cons_append]
      rw [← List.cons_append, Text.takeWhile_append_of_halts fractionInside fractionHalts,
        Text.dropWhile_append_of_halts fractionInside fractionHalts]
      simp only [digitsNonempty, Bool.false_eq_true, if_false]
      cases exponent with
      | none => simp [marked]
      | some exponent => simp [marked, exponent?_exponentText]

/-! ## Laying out digits -/

theorem pointed_of_ne_nil {digits : List Char} (nonempty : digits ≠ []) :
    pointed digits = '.' :: digits := by
  cases digits with
  | nil => exact absurd rfl nonempty
  | cons first more => rfl

/-- A text is a numeral for digits with the point after the first `whole` of them.
Zeros may have been added behind the digits. -/
def Shows (text digits : List Char) (whole : Int) : Prop :=
  ∃ (parts : Layout.Parts) (zeros : Nat), text = parts.text ∧
    parts.digits = Numeral.ofDigits digits * 10 ^ zeros ∧
      parts.power = whole - digits.length - zeros

section

variable {digits : List Char}

/-- The point stands before all digits, after zeros. -/
theorem shows_leading (ascii : Numeral.IsAscii digits) (nonempty : digits ≠ []) (zeros : Nat) :
    Shows ('0' :: '.' :: (List.replicate zeros '0' ++ digits)) digits (-zeros) := by
  have fractionNonempty : List.replicate zeros '0' ++ digits ≠ [] :=
    List.append_ne_nil_of_right_ne_nil _ nonempty
  let parts : Layout.Parts :=
    { whole := ['0'], fraction := List.replicate zeros '0' ++ digits, exponent := none
      wholeAscii := Numeral.isAscii_replicate_zero 1
      fractionAscii := (Numeral.isAscii_replicate_zero _).append ascii
      nonempty := List.cons_ne_nil _ _
      distinct := Or.inl fractionNonempty }
  refine ⟨parts, 0, ?_, ?_, ?_⟩
  · simp [parts, Layout.Parts.text, pointed_of_ne_nil fractionNonempty, marked]
  · have leading : parts.whole ++ parts.fraction = List.replicate (zeros + 1) '0' ++ digits := by
      simp [parts, List.replicate_succ]
    rw [Layout.Parts.digits, leading, Numeral.ofDigits_append, Numeral.ofDigits_replicate_zero]
    simp
  · simp [parts, Layout.Parts.power]
    omega

/-- The point stands after all digits and zeros. -/
theorem shows_trailing (ascii : Numeral.IsAscii digits) (nonempty : digits ≠ []) (zeros : Nat) :
    Shows (digits ++ List.replicate zeros '0' ++ ['.', '0']) digits (digits.length + zeros) := by
  let parts : Layout.Parts :=
    { whole := digits ++ List.replicate zeros '0', fraction := ['0'], exponent := none
      wholeAscii := ascii.append (Numeral.isAscii_replicate_zero _)
      fractionAscii := Numeral.isAscii_replicate_zero 1
      nonempty := List.append_ne_nil_of_left_ne_nil nonempty _
      distinct := Or.inl (List.cons_ne_nil _ _) }
  refine ⟨parts, zeros + 1, ?_, ?_, ?_⟩
  · simp [parts, Layout.Parts.text, pointed, marked]
  · have trailing : parts.whole ++ parts.fraction = digits ++ List.replicate (zeros + 1) '0' := by
      simp [parts, List.replicate_succ']
    rw [Layout.Parts.digits, trailing, Numeral.ofDigits_append, Numeral.ofDigits_replicate_zero]
    simp
  · simp [parts, Layout.Parts.power]

/-- The point stands between two digits, and an exponent may stand behind them. -/
theorem shows_between {front back : List Char} (asciiFront : Numeral.IsAscii front)
    (asciiBack : Numeral.IsAscii back) (frontNonempty : front ≠ []) (exponent : Option Int)
    (distinct : back ≠ [] ∨ exponent.isSome = true) :
    Shows (front ++ (pointed back ++ marked exponent)) (front ++ back)
      (front.length + exponent.getD 0) := by
  refine ⟨⟨front, back, exponent, asciiFront, asciiBack, frontNonempty, distinct⟩, 0, rfl, ?_, ?_⟩
  · simp [Layout.Parts.digits]
  · simp [Layout.Parts.power]

theorem shows_positional (ascii : Numeral.IsAscii digits) (nonempty : digits ≠ []) (whole : Int) :
    Shows (positional digits whole) digits whole := by
  by_cases small : whole ≤ 0
  · have magnitude : -(whole.natAbs : Int) = whole := by omega
    have shows := shows_leading ascii nonempty whole.natAbs
    rw [magnitude] at shows
    simpa only [positional, small, if_true] using shows
  · by_cases padded : digits.length ≤ whole.toNat
    · have place : (digits.length : Int) + (whole.toNat - digits.length : Nat) = whole := by omega
      have shows := shows_trailing ascii nonempty (whole.toNat - digits.length)
      rw [place] at shows
      simpa [positional, small, List.take_of_length_le padded, List.drop_of_length_le padded]
        using shows
    · have backNonempty : digits.drop whole.toNat ≠ [] :=
        fun empty => padded (List.drop_eq_nil_iff.mp empty)
      have frontNonempty : digits.take whole.toNat ≠ [] := by
        intro empty
        rcases List.take_eq_nil_iff.mp empty with noPlace | noDigit
        · omega
        · exact nonempty noDigit
      have shows := shows_between (fun c member => ascii c (List.mem_of_mem_take member))
        (fun c member => ascii c (List.mem_of_mem_drop member)) frontNonempty none
        (Or.inl backNonempty)
      have place : ((digits.take whole.toNat).length : Int) + (none : Option Int).getD 0 = whole := by
        simp
        omega
      have noZeros : whole.toNat - digits.length = 0 := by omega
      rw [List.take_append_drop, place, pointed_of_ne_nil backNonempty] at shows
      simpa [positional, small, noZeros, backNonempty, marked] using shows

theorem shows_scientific (ascii : Numeral.IsAscii digits) (nonempty : digits ≠ [])
    (exponent : Int) : Shows (scientific digits exponent) digits (exponent + 1) := by
  cases digits with
  | nil => exact absurd rfl nonempty
  | cons first more =>
      have firstAscii : Numeral.IsAscii [first] :=
        fun c member => ascii c (List.mem_cons.mpr (Or.inl (List.mem_singleton.mp member)))
      have moreAscii : Numeral.IsAscii more :=
        fun c member => ascii c (List.mem_cons_of_mem first member)
      have shows := shows_between firstAscii moreAscii (List.cons_ne_nil _ _) (some exponent)
        (Or.inr rfl)
      have place : ([first].length : Int) + (some exponent).getD 0 = exponent + 1 :=
        Int.add_comm 1 exponent
      rw [place] at shows
      cases more <;> exact shows

end

/-! ## The text of a double -/

/-- The digits of a number end in some zeros, and only what stands before them is
laid out. -/
theorem exists_significant (digits : Nat) :
    ∃ (significant : List Char) (zeros : Nat),
      ((Nat.toDigits 10 digits).reverse.dropWhile (· == '0')).reverse = significant ∧
        Numeral.IsAscii significant ∧
          (Nat.toDigits 10 digits).length = significant.length + zeros ∧
            digits = Numeral.ofDigits significant * 10 ^ zeros := by
  let back := (Nat.toDigits 10 digits).reverse.takeWhile (· == '0')
  let front := (Nat.toDigits 10 digits).reverse.dropWhile (· == '0')
  have zeros : back = List.replicate back.length '0' := by
    apply List.eq_replicate_of_mem
    intro c member
    have isZero : (c == '0') = true := List.mem_takeWhile_imp (p := (· == '0')) member
    exact beq_iff_eq.mp isZero
  have split : Nat.toDigits 10 digits = front.reverse ++ List.replicate back.length '0' := by
    rw [← List.reverse_inj, List.reverse_append, List.reverse_reverse, List.reverse_replicate,
      ← zeros]
    exact List.takeWhile_append_dropWhile.symm
  refine ⟨front.reverse, back.length, rfl, ?_, ?_, ?_⟩
  · intro c member
    apply Numeral.isAscii_toDigits digits c
    rw [split]
    exact List.mem_append_left _ member
  · rw [split, List.length_append, List.length_replicate]
  · have value := Numeral.ofDigits_toDigits digits
    rw [split, Numeral.ofDigits_append, Numeral.ofDigits_replicate_zero,
      List.length_replicate, Nat.add_zero] at value
    exact value.symm

/-- The text of a decimal is a numeral of the same value. -/
theorem exists_parts_text {decimal : Decimal} (positive : 0 < decimal.digits) :
    ∃ parts : Layout.Parts, decimal.text = parts.text ∧
      ofDecimal false parts.digits parts.power =
        ofDecimal false decimal.digits decimal.exponent := by
  obtain ⟨significant, dropped, isSignificant, ascii, length, value⟩ :=
    exists_significant decimal.digits
  have valuePositive : 0 < Numeral.ofDigits significant := by
    rw [value] at positive
    exact Nat.pos_of_mul_pos_right positive
  have nonempty : significant ≠ [] := by
    intro empty
    subst empty
    exact absurd valuePositive (by decide)
  have shows : Shows decimal.text significant
      ((Nat.toDigits 10 decimal.digits).length - 1 + decimal.exponent + 1) := by
    unfold Decimal.text
    simp only [isSignificant]
    split
    · exact shows_positional ascii nonempty _
    · exact shows_scientific ascii nonempty _
  obtain ⟨parts, added, isText, digits, power⟩ := shows
  refine ⟨parts, isText, ?_⟩
  have sameOrder : parts.power + added = decimal.exponent + dropped := by
    rw [power, length]
    push_cast
    ring
  rw [digits, value, ofDecimal_mul_pow valuePositive, ofDecimal_mul_pow valuePositive, sameOrder]

/-- The text of a magnitude is a numeral that reads back as the magnitude. -/
theorem exists_parts_magnitudeText {units : Nat} (exact : Representable units) :
    ∃ parts : Layout.Parts, magnitudeText units = parts.text ∧
      ofDecimal false parts.digits parts.power = .finite false units exact := by
  by_cases zero : units = 0
  · subst zero
    let parts : Layout.Parts := ⟨['0'], ['0'], none, Numeral.isAscii_replicate_zero 1,
      Numeral.isAscii_replicate_zero 1, List.cons_ne_nil _ _, Or.inl (List.cons_ne_nil _ _)⟩
    exact ⟨parts, rfl, rfl⟩
  · have positive : 0 < units := Nat.pos_of_ne_zero zero
    have reads := ofDecimal_shortestDecimal positive exact
    have digitsPositive : 0 < (shortestDecimal units).digits := by
      apply Nat.pos_of_ne_zero
      intro noDigits
      rw [noDigits] at reads
      injection reads with _ noUnits
      exact zero noUnits.symm
    obtain ⟨parts, isText, sameValue⟩ := exists_parts_text digitsPositive
    refine ⟨parts, ?_, sameValue.trans reads⟩
    simp only [magnitudeText, beq_iff_eq, zero, if_false, isText]

end Binary64
end HoareProof
