import HoareProof.Token.Lexer
import HoareProof.Proofs.Numerals

namespace HoareProof

/-!
The classes of lexemes.  A word, a number and a symbol are described by their characters
alone, without the text they stand in.  The token that starts at a place is of one of these
classes, and where none starts, no text at that place is of any.  How far a token goes
depends on the characters behind it, but only in one direction: a token stays what it is
when the text behind it is cut off or gives way to a boundary, which is a space, a closing
parenthesis, a semicolon, or the end of the text.
-/

namespace Text

theorem Halts.append {class? : Char -> Bool} {front back : List Char}
    (haltsFront : Halts class? front) (haltsBack : Halts class? back) :
    Halts class? (front ++ back) := by
  cases front with
  | nil => exact haltsBack
  | cons c front => exact haltsFront

theorem Halts.cut {class? : Char -> Bool} {front back : List Char}
    (halts : Halts class? (front ++ back)) : Halts class? front := by
  cases front with
  | nil => exact halts_nil class?
  | cons c front => exact halts

theorem halts_dropWhile (class? : Char -> Bool) (chars : List Char) :
    Halts class? (chars.dropWhile class?) := by
  intro c first
  simpa [first] using List.head?_dropWhile_not class? chars

/-- A run of a class ends exactly where the class halts. -/
theorem takeWhile_append_eq_left_iff {class? : Char -> Bool} {front rest : List Char} :
    (front ++ rest).takeWhile class? = front ↔
      (forall c, c ∈ front -> class? c = true) ∧ Halts class? rest := by
  constructor
  · intro isFront
    have inside : forall c, c ∈ front -> class? c = true := by
      intro c member
      rw [← isFront] at member
      exact List.mem_takeWhile_imp member
    have noMore : rest.takeWhile class? = [] := by
      simpa [List.takeWhile_append_of_pos inside] using isFront
    have parts := List.takeWhile_append_dropWhile (p := class?) (l := rest)
    rw [noMore, List.nil_append] at parts
    exact ⟨inside, parts ▸ halts_dropWhile class? rest⟩
  · rintro ⟨inside, halts⟩
    exact takeWhile_append_of_halts inside halts

end Text

namespace Token

/-! ## Boundaries -/

/-- A character behind which a name or a number has ended. -/
def isBoundary (c : Char) : Bool :=
  isSpace c || c = ')' || c = ';'

/-- Nothing, or a text that starts with a boundary. -/
def Bounded (rest : List Char) : Prop :=
  forall c, rest.head? = some c -> isBoundary c = true

theorem bounded_nil : Bounded [] := by
  intro c first
  cases first

theorem bounded_cons {c : Char} (boundary : isBoundary c = true) (rest : List Char) :
    Bounded (c :: rest) := by
  intro first isFirst
  cases isFirst
  exact boundary

theorem Bounded.halts {rest : List Char} (bounded : Bounded rest) {class? : Char -> Bool}
    (outside : forall c, isBoundary c = true -> class? c = false) : Text.Halts class? rest :=
  fun c first => outside c (bounded c first)

theorem eq_of_isBoundary {c : Char} (boundary : isBoundary c = true) :
    c = ' ' ∨ c = '\t' ∨ c = '\r' ∨ c = '\n' ∨ c = ')' ∨ c = ';' := by
  simpa [isBoundary, isSpace, or_assoc] using boundary

theorem continuesName_of_isBoundary {c : Char} (boundary : isBoundary c = true) :
    continuesName c = false := by
  rcases eq_of_isBoundary boundary with rfl | rfl | rfl | rfl | rfl | rfl <;> rfl

theorem isDigit_of_isBoundary {c : Char} (boundary : isBoundary c = true) :
    Text.isDigit c = false := by
  rcases eq_of_isBoundary boundary with rfl | rfl | rfl | rfl | rfl | rfl <;> rfl

theorem isAsciiDigit_of_startsName {c : Char} (starts : startsName c = true) :
    Text.isAsciiDigit c = false := by
  simp only [startsName, Bool.or_eq_true, Bool.and_eq_true, decide_eq_true_eq, Char.le_def,
    UInt32.le_iff_toNat_le, ← Char.val_inj, ← UInt32.toNat_inj] at starts
  simp only [Text.isAsciiDigit, Bool.and_eq_false_iff, decide_eq_false_iff_not, Char.le_def,
    UInt32.le_iff_toNat_le]
  simp at starts ⊢
  omega

theorem isSpace_of_continuesName {c : Char} (continues : continuesName c = true) :
    isSpace c = false := by
  rw [← Bool.not_eq_true]
  intro space
  have boundary : isBoundary c = true := by simp [isBoundary, space]
  rw [continuesName_of_isBoundary boundary] at continues
  cases continues

/-! ## The classes -/

/-- A fraction, which may be missing: a point and digits. -/
inductive IsFraction : List Char -> Prop where
  | none : IsFraction []
  | some {digits : List Char} (nonempty : digits ≠ [])
      (inside : forall c, c ∈ digits -> Text.isDigit c = true) : IsFraction ('.' :: digits)

/-- An exponent, which may be missing: a mark, an optional sign, and digits of which the
first is an ASCII digit. -/
inductive IsExponent : List Char -> Prop where
  | none : IsExponent []
  | some {mark digit : Char} {sign more : List Char} (isMark : mark = 'e' ∨ mark = 'E')
      (isSign : sign = [] ∨ sign = ['+'] ∨ sign = ['-'])
      (first : Text.isAsciiDigit digit = true)
      (inside : forall c, c ∈ more -> Text.isDigit c = true) :
      IsExponent (mark :: (sign ++ digit :: more))

/-- The symbols and their kinds. -/
def symbols : List (TokenKind × List Char) := [
  (.plus, ['+']), (.minus, ['-']), (.star, ['*']), (.and, ['∧']), (.or, ['∨']), (.not, ['¬']),
  (.atMost, ['≤']), (.atLeast, ['≥']), (.openParen, ['(']), (.closeParen, [')']),
  (.semicolon, [';']), (.not, ['!']), (.equal, ['=', '=']), (.equal, ['=']),
  (.assign, [':', '=']), (.atLeast, ['>', '=']), (.greater, ['>']), (.atMost, ['<', '=']),
  (.less, ['<']), (.and, ['&', '&']), (.or, ['|', '|'])]

/-- The characters of a token of a kind, whatever stands around them. -/
inductive IsLexeme : TokenKind -> List Char -> Prop where
  | word {first : Char} {more : List Char} (starts : startsName first = true)
      (inside : forall c, c ∈ more -> continuesName c = true) :
      IsLexeme (wordKind (first :: more)) (first :: more)
  | whole {first : Char} {more : List Char} (starts : Text.isAsciiDigit first = true)
      (inside : forall c, c ∈ more -> Text.isDigit c = true) : IsLexeme .whole (first :: more)
  | decimal {first : Char} {more fraction exponent : List Char}
      (starts : Text.isAsciiDigit first = true)
      (inside : forall c, c ∈ more -> Text.isDigit c = true) (isFraction : IsFraction fraction)
      (isExponent : IsExponent exponent) (distinct : fraction ≠ [] ∨ exponent ≠ []) :
      IsLexeme .decimal (first :: (more ++ (fraction ++ exponent)))
  | symbol {kind : TokenKind} {chars : List Char} (listed : (kind, chars) ∈ symbols) :
      IsLexeme kind chars

/-! ## Symbols -/

/-- A character that can be the second one of a symbol. -/
def joins (c : Char) : Bool :=
  c = '=' || c = '&' || c = '|'

theorem joins_of_isBoundary {c : Char} (boundary : isBoundary c = true) : joins c = false := by
  rcases eq_of_isBoundary boundary with rfl | rfl | rfl | rfl | rfl | rfl <;> rfl

/-- Of the text behind it, a symbol depends on the first character only, and on that only
if it can join. -/
theorem symbol?_of_halts (c : Char) {rest : List Char} (halts : Text.Halts joins rest) :
    symbol? c rest = symbol? c [] := by
  cases rest with
  | nil => rfl
  | cons second rest =>
      have alone := halts second rfl
      simp only [joins, Bool.or_eq_false_iff, decide_eq_false_iff_not] at alone
      unfold symbol?
      split <;> simp_all

theorem symbol?_cons_congr (c second : Char) (rest other : List Char) :
    symbol? c (second :: rest) = symbol? c (second :: other) := by
  unfold symbol?
  split <;> simp_all

/-- A symbol of one character does not need the text behind it. -/
theorem symbol?_nil_of_single {c : Char} {rest : List Char} {kind : TokenKind}
    (found : symbol? c rest = .ok (kind, [c])) : symbol? c [] = .ok (kind, [c]) := by
  unfold symbol? at found
  split at found <;> cases found <;> rfl

theorem symbol?_cut {c : Char} {more middle back : List Char} {kind : TokenKind}
    (found : symbol? c (more ++ (middle ++ back)) = .ok (kind, c :: more)) :
    symbol? c (more ++ middle) = .ok (kind, c :: more) := by
  cases more with
  | nil =>
      cases middle with
      | nil => exact symbol?_nil_of_single found
      | cons second middle => exact (symbol?_cons_congr c second _ _).trans found
  | cons second more => exact (symbol?_cons_congr c second _ _).trans found

theorem symbol?_bounded {c : Char} {more rest : List Char} {kind : TokenKind}
    (found : symbol? c more = .ok (kind, c :: more)) (bounded : Bounded rest) :
    symbol? c (more ++ rest) = .ok (kind, c :: more) := by
  cases more with
  | nil => exact (symbol?_of_halts c (bounded.halts fun _ => joins_of_isBoundary)).trans found
  | cons second more => exact (symbol?_cons_congr c second _ _).trans found

theorem mem_symbols_of_symbol? {c : Char} {rest lexeme : List Char} {kind : TokenKind}
    (found : symbol? c rest = .ok (kind, lexeme)) :
    (kind, lexeme) ∈ symbols ∧ ∃ more left, lexeme = c :: more ∧ rest = more ++ left := by
  unfold symbol? at found
  split at found <;> cases found <;> simp [symbols]

/-- Where the characters of a symbol stand, some symbol is found; it may be a longer one. -/
theorem exists_symbol?_of_mem {c : Char} {more : List Char} {kind : TokenKind}
    (listed : (kind, c :: more) ∈ symbols) (rest : List Char) :
    ∃ found, symbol? c (more ++ rest) = .ok found := by
  simp only [symbols, List.mem_cons, Prod.mk.injEq, List.cons.injEq, List.not_mem_nil,
    or_false] at listed
  unfold symbol?
  split <;> grind

/-! ## Fractions and exponents -/

theorem fraction_of_head? {rest : List Char} (noPoint : rest.head? ≠ some '.') :
    fraction rest = [] := by
  unfold fraction
  split
  · exact absurd rfl noPoint
  · rfl

theorem fraction_of_digit {digit : Char} (isDigit : Text.isDigit digit = true)
    (more : List Char) :
    fraction ('.' :: digit :: more) = '.' :: (digit :: more).takeWhile Text.isDigit := by
  simp [fraction, isDigit]

theorem fraction_spec (chars : List Char) :
    IsFraction (fraction chars) ∧ ∃ left, chars = fraction chars ++ left ∧
      (fraction chars ≠ [] -> Text.Halts Text.isDigit left) := by
  unfold fraction
  split
  next rest =>
    by_cases noDigit : rest.takeWhile Text.isDigit = []
    · simp [noDigit, IsFraction.none]
    · simp only [List.isEmpty_iff, noDigit, if_false]
      refine ⟨.some noDigit fun c member => List.mem_takeWhile_imp member,
        rest.dropWhile Text.isDigit, ?_, fun _ => Text.halts_dropWhile _ rest⟩
      rw [List.cons_append, List.takeWhile_append_dropWhile]
  next => exact ⟨.none, chars, rfl, fun present => absurd rfl present⟩

theorem fraction_append {part rest : List Char} (isFraction : IsFraction part)
    (present : part ≠ []) (halts : Text.Halts Text.isDigit rest) :
    fraction (part ++ rest) = part := by
  cases isFraction with
  | none => exact absurd rfl present
  | @some digits nonempty inside =>
      cases digits with
      | nil => exact absurd rfl nonempty
      | cons digit more =>
          rw [List.cons_append, List.cons_append,
            fraction_of_digit (inside digit List.mem_cons_self), ← List.cons_append,
            Text.takeWhile_append_of_halts inside halts]

theorem fraction_eq_nil_of_append {front back : List Char}
    (missing : fraction (front ++ back) = []) : fraction front = [] := by
  rcases fraction_spec front with ⟨isFraction, left, isFront, -⟩
  generalize fraction front = part at isFraction isFront
  subst isFront
  cases isFraction with
  | none => rfl
  | @some digits nonempty inside =>
      cases digits with
      | nil => exact absurd rfl nonempty
      | cons digit more =>
          simp only [List.cons_append] at missing
          rw [fraction_of_digit (inside digit List.mem_cons_self)] at missing
          cases missing

/-- What is known of a fraction that has been found in front of a text. -/
theorem isFraction_of_fraction_append {part rest : List Char}
    (found : fraction (part ++ rest) = part) :
    IsFraction part ∧ (part ≠ [] -> Text.Halts Text.isDigit rest) := by
  rcases fraction_spec (part ++ rest) with ⟨isFraction, left, split, halts⟩
  rw [found] at isFraction split halts
  rw [List.append_cancel_left_eq] at split
  exact ⟨isFraction, split ▸ halts⟩

theorem fraction_cut {part middle back : List Char}
    (found : fraction (part ++ (middle ++ back)) = part) : fraction (part ++ middle) = part := by
  by_cases missing : part = []
  · subst missing
    exact fraction_eq_nil_of_append found
  · rcases isFraction_of_fraction_append found with ⟨isFraction, halts⟩
    exact fraction_append isFraction missing (halts missing).cut

theorem exponent_of_digit {mark digit : Char} {sign : List Char}
    (isMark : mark = 'e' ∨ mark = 'E') (isSign : sign = [] ∨ sign = ['+'] ∨ sign = ['-'])
    (first : Text.isAsciiDigit digit = true) (more : List Char) :
    exponent (mark :: (sign ++ digit :: more)) =
      mark :: (sign ++ (digit :: more).takeWhile Text.isDigit) := by
  have noPlus : digit ≠ '+' := by
    rintro rfl
    cases first
  have noMinus : digit ≠ '-' := by
    rintro rfl
    cases first
  rcases isSign with rfl | rfl | rfl <;> simp [exponent, isMark, first, noPlus, noMinus]

/-- The sign at the head of a text, if there is one. -/
theorem exists_sign (rest : List Char) :
    ∃ sign left, rest = sign ++ left ∧ (sign = [] ∨ sign = ['+'] ∨ sign = ['-']) ∧
      (sign = [] -> left.head? ≠ some '+' ∧ left.head? ≠ some '-') := by
  by_cases plus : rest.head? = some '+'
  · rcases List.head?_eq_some_iff.mp plus with ⟨left, rfl⟩
    exact ⟨['+'], left, rfl, by simp, by simp⟩
  by_cases minus : rest.head? = some '-'
  · rcases List.head?_eq_some_iff.mp minus with ⟨left, rfl⟩
    exact ⟨['-'], left, rfl, by simp, by simp⟩
  exact ⟨[], rest, rfl, by simp, fun _ => ⟨plus, minus⟩⟩

/-- There is an exponent only where a mark, an optional sign and an ASCII digit stand. -/
theorem exponent_cases (chars : List Char) :
    exponent chars = [] ∨ ∃ mark sign digit more, (mark = 'e' ∨ mark = 'E') ∧
      (sign = [] ∨ sign = ['+'] ∨ sign = ['-']) ∧ Text.isAsciiDigit digit = true ∧
        chars = mark :: (sign ++ digit :: more) := by
  cases chars with
  | nil => exact .inl rfl
  | cons mark rest =>
      by_cases isMark : mark = 'e' ∨ mark = 'E'
      · rcases exists_sign rest with ⟨sign, left, rfl, isSign, noSign⟩
        cases left with
        | nil =>
            left
            rcases isSign with rfl | rfl | rfl <;> simp [exponent]
        | cons digit more =>
            by_cases first : Text.isAsciiDigit digit = true
            · exact .inr ⟨mark, sign, digit, more, isMark, isSign, first, rfl⟩
            · left
              rcases isSign with rfl | rfl | rfl <;> simp_all [exponent]
      · left
        simp [exponent, isMark]

theorem exponent_spec (chars : List Char) :
    IsExponent (exponent chars) ∧ ∃ left, chars = exponent chars ++ left ∧
      (exponent chars ≠ [] -> Text.Halts Text.isDigit left) := by
  rcases exponent_cases chars with missing | ⟨mark, sign, digit, more, isMark, isSign, first, rfl⟩
  · rw [missing]
    exact ⟨.none, chars, rfl, fun present => absurd rfl present⟩
  · have isDigit := Text.isDigit_of_isAsciiDigit first
    rw [exponent_of_digit isMark isSign first, List.takeWhile_cons_of_pos isDigit]
    refine ⟨.some isMark isSign first fun c member => List.mem_takeWhile_imp member,
      more.dropWhile Text.isDigit, ?_, fun _ => Text.halts_dropWhile _ more⟩
    simp [List.takeWhile_append_dropWhile]

theorem exponent_append {part rest : List Char} (isExponent : IsExponent part)
    (present : part ≠ []) (halts : Text.Halts Text.isDigit rest) :
    exponent (part ++ rest) = part := by
  cases isExponent with
  | none => exact absurd rfl present
  | @some mark digit sign more isMark isSign first inside =>
      have isDigit := Text.isDigit_of_isAsciiDigit first
      rw [List.cons_append, List.append_assoc, List.cons_append,
        exponent_of_digit isMark isSign first, List.takeWhile_cons_of_pos isDigit,
        Text.takeWhile_append_of_halts inside halts]

theorem exponent_eq_nil_of_append {front back : List Char}
    (missing : exponent (front ++ back) = []) : exponent front = [] := by
  rcases exponent_cases front with
    noExponent | ⟨mark, sign, digit, more, isMark, isSign, first, rfl⟩
  · exact noExponent
  · rw [List.cons_append, List.append_assoc, List.cons_append,
      exponent_of_digit isMark isSign first] at missing
    cases missing

/-- What is known of an exponent that has been found in front of a text. -/
theorem isExponent_of_exponent_append {part rest : List Char}
    (found : exponent (part ++ rest) = part) :
    IsExponent part ∧ (part ≠ [] -> Text.Halts Text.isDigit rest) := by
  rcases exponent_spec (part ++ rest) with ⟨isExponent, left, split, halts⟩
  rw [found] at isExponent split halts
  rw [List.append_cancel_left_eq] at split
  exact ⟨isExponent, split ▸ halts⟩

theorem exponent_cut {part middle back : List Char}
    (found : exponent (part ++ (middle ++ back)) = part) : exponent (part ++ middle) = part := by
  by_cases missing : part = []
  · subst missing
    exact exponent_eq_nil_of_append found
  · rcases isExponent_of_exponent_append found with ⟨isExponent, halts⟩
    exact exponent_append isExponent missing (halts missing).cut

theorem exponent_of_bounded {rest : List Char} (bounded : Bounded rest) : exponent rest = [] := by
  cases rest with
  | nil => rfl
  | cons c rest =>
      rcases eq_of_isBoundary (bounded c rfl) with rfl | rfl | rfl | rfl | rfl | rfl <;> rfl

/-! ## Numbers -/

/-- The kind of a number with a fraction and an exponent. -/
def numberKind (fractionPart exponentPart : List Char) : TokenKind :=
  if fractionPart.isEmpty && exponentPart.isEmpty then .whole else .decimal

/-- The digits, the fraction and the exponent of a number, in front of a text. -/
structure IsNumber (digits fractionPart exponentPart rest : List Char) : Prop where
  inside : forall c, c ∈ digits -> Text.isDigit c = true
  halts : Text.Halts Text.isDigit (fractionPart ++ (exponentPart ++ rest))
  fraction_eq : fraction (fractionPart ++ (exponentPart ++ rest)) = fractionPart
  exponent_eq : exponent (exponentPart ++ rest) = exponentPart

theorem IsNumber.number_eq {digits fractionPart exponentPart rest : List Char}
    (parts : IsNumber digits fractionPart exponentPart rest) :
    number (digits ++ (fractionPart ++ (exponentPart ++ rest))) =
      (numberKind fractionPart exponentPart, digits ++ (fractionPart ++ exponentPart)) := by
  simp only [number, Text.takeWhile_append_of_halts parts.inside parts.halts,
    Text.dropWhile_append_of_halts parts.inside parts.halts, parts.fraction_eq, List.drop_left,
    parts.exponent_eq, numberKind, List.append_assoc]

theorem exists_isNumber (chars : List Char) :
    ∃ digits fractionPart exponentPart rest,
      chars = digits ++ (fractionPart ++ (exponentPart ++ rest)) ∧
        IsNumber digits fractionPart exponentPart rest := by
  have whole := List.takeWhile_append_dropWhile (p := Text.isDigit) (l := chars)
  rcases fraction_spec (chars.dropWhile Text.isDigit) with ⟨-, afterFraction, fractionSplit, -⟩
  rcases exponent_spec afterFraction with ⟨-, rest, exponentSplit, -⟩
  rw [exponentSplit] at fractionSplit
  refine ⟨chars.takeWhile Text.isDigit, fraction (chars.dropWhile Text.isDigit),
    exponent afterFraction, rest, ?_, ?_, ?_, ?_, ?_⟩
  · rw [← fractionSplit, whole]
  · exact fun c member => List.mem_takeWhile_imp member
  · rw [← fractionSplit]
    exact Text.halts_dropWhile _ chars
  · rw [← fractionSplit]
  · rw [← exponentSplit]

/-- The parts of a number that has been found. -/
theorem exists_isNumber_of_number {lexeme rest : List Char} {kind : TokenKind}
    (found : number (lexeme ++ rest) = (kind, lexeme)) :
    ∃ digits fractionPart exponentPart, lexeme = digits ++ (fractionPart ++ exponentPart) ∧
      kind = numberKind fractionPart exponentPart ∧
        IsNumber digits fractionPart exponentPart rest := by
  rcases exists_isNumber (lexeme ++ rest) with
    ⟨digits, fractionPart, exponentPart, left, split, parts⟩
  rw [split, parts.number_eq, Prod.mk.injEq] at found
  rcases found with ⟨rfl, rfl⟩
  have sameRest : rest = left := by simpa [List.append_assoc] using split
  exact ⟨digits, fractionPart, exponentPart, rfl, rfl, sameRest ▸ parts⟩

theorem IsNumber.cut {digits fractionPart exponentPart middle back : List Char}
    (parts : IsNumber digits fractionPart exponentPart (middle ++ back)) :
    IsNumber digits fractionPart exponentPart middle := by
  have regroup : fractionPart ++ (exponentPart ++ (middle ++ back)) =
      fractionPart ++ (exponentPart ++ middle) ++ back := by
    simp only [List.append_assoc]
  have isFraction := parts.fraction_eq
  rw [← List.append_assoc exponentPart] at isFraction
  exact ⟨parts.inside, (regroup ▸ parts.halts).cut, fraction_cut isFraction,
    exponent_cut parts.exponent_eq⟩

/-- A number stays what it is in front of a boundary: neither a digit nor a point nor a
mark is one. -/
theorem IsNumber.bounded {digits fractionPart exponentPart rest : List Char}
    (parts : IsNumber digits fractionPart exponentPart []) (bounded : Bounded rest) :
    IsNumber digits fractionPart exponentPart rest := by
  rcases parts with ⟨inside, halts, fraction_eq, exponent_eq⟩
  rw [List.append_nil] at halts fraction_eq
  have restHalts : Text.Halts Text.isDigit rest := bounded.halts fun _ => isDigit_of_isBoundary
  rcases isFraction_of_fraction_append fraction_eq with ⟨isFraction, fractionHalts⟩
  rcases isExponent_of_exponent_append exponent_eq with ⟨isExponent, -⟩
  refine ⟨inside, ?_, ?_, ?_⟩
  · rw [← List.append_assoc]
    exact halts.append restHalts
  · by_cases missing : fractionPart = []
    · subst missing
      apply fraction_of_head?
      intro point
      cases isExponent with
      | none => exact absurd (bounded '.' point) (by decide)
      | some isMark =>
          cases point
          simp at isMark
    · exact fraction_append isFraction missing ((fractionHalts missing).append restHalts)
  · by_cases missing : exponentPart = []
    · subst missing
      exact exponent_of_bounded bounded
    · exact exponent_append isExponent missing restHalts

theorem number_cut {lexeme middle back : List Char} {kind : TokenKind}
    (found : number (lexeme ++ (middle ++ back)) = (kind, lexeme)) :
    number (lexeme ++ middle) = (kind, lexeme) := by
  rcases exists_isNumber_of_number found with
    ⟨digits, fractionPart, exponentPart, rfl, rfl, parts⟩
  simpa only [List.append_assoc] using parts.cut.number_eq

theorem number_bounded {lexeme rest : List Char} {kind : TokenKind}
    (found : number lexeme = (kind, lexeme)) (bounded : Bounded rest) :
    number (lexeme ++ rest) = (kind, lexeme) := by
  have foundAlone : number (lexeme ++ []) = (kind, lexeme) := by
    rw [List.append_nil]
    exact found
  rcases exists_isNumber_of_number foundAlone with
    ⟨digits, fractionPart, exponentPart, rfl, rfl, parts⟩
  simpa only [List.append_assoc] using (parts.bounded bounded).number_eq

/-- The number at the head of a text that starts with an ASCII digit. -/
theorem isLexeme_of_number {c : Char} {rest lexeme : List Char} {kind : TokenKind}
    (starts : Text.isAsciiDigit c = true) (found : number (c :: rest) = (kind, lexeme)) :
    IsLexeme kind lexeme ∧ ∃ more left, lexeme = c :: more ∧ rest = more ++ left := by
  rcases exists_isNumber (c :: rest) with
    ⟨digits, fractionPart, exponentPart, left, split, parts⟩
  rw [split, parts.number_eq, Prod.mk.injEq] at found
  rcases found with ⟨rfl, rfl⟩
  have isFraction := (isFraction_of_fraction_append parts.fraction_eq).1
  have isExponent := (isExponent_of_exponent_append parts.exponent_eq).1
  cases digits with
  | nil =>
      have noDigit := parts.halts c (by rw [← List.nil_append (fractionPart ++ _), ← split]; rfl)
      rw [Text.isDigit_of_isAsciiDigit starts] at noDigit
      cases noDigit
  | cons digit digits =>
      cases split
      refine ⟨?_, digits ++ (fractionPart ++ exponentPart), left, rfl, by simp⟩
      have inside : forall c, c ∈ digits -> Text.isDigit c = true :=
        fun c member => parts.inside c (List.mem_cons_of_mem _ member)
      by_cases distinct : fractionPart ≠ [] ∨ exponentPart ≠ []
      · have kind : numberKind fractionPart exponentPart = .decimal := by
          rcases distinct with present | present <;> simp [numberKind, present]
        rw [kind]
        exact .decimal starts inside isFraction isExponent distinct
      · simp only [not_or, not_not] at distinct
        rcases distinct with ⟨rfl, rfl⟩
        simpa [numberKind] using IsLexeme.whole starts inside

/-! ## Tokens -/

theorem lexeme?_of_digit {c : Char} (starts : Text.isAsciiDigit c = true) (rest : List Char) :
    lexeme? c rest = .ok (number (c :: rest)) :=
  if_pos starts

theorem lexeme?_of_letter {c : Char} (starts : startsName c = true) (rest : List Char) :
    lexeme? c rest = .ok (wordKind (c :: rest.takeWhile continuesName),
      c :: rest.takeWhile continuesName) := by
  simp [lexeme?, isAsciiDigit_of_startsName starts, starts]

theorem lexeme?_of_other {c : Char} (noDigit : Text.isAsciiDigit c = false)
    (noLetter : startsName c = false) (rest : List Char) : lexeme? c rest = symbol? c rest := by
  simp [lexeme?, noDigit, noLetter]

/-- A character starts a number, starts a word, or at most a symbol. -/
theorem starts_cases (c : Char) :
    Text.isAsciiDigit c = true ∨ startsName c = true ∨
      (Text.isAsciiDigit c = false ∧ startsName c = false) := by
  cases Text.isAsciiDigit c <;> cases startsName c <;> simp

/-- The token that starts at a place starts with the character there, its characters are
the next ones of the text, and they are of the class of its kind. -/
theorem isLexeme_of_lexeme? {c : Char} {rest lexeme : List Char} {kind : TokenKind}
    (found : lexeme? c rest = .ok (kind, lexeme)) :
    IsLexeme kind lexeme ∧ ∃ more left, lexeme = c :: more ∧ rest = more ++ left := by
  rcases starts_cases c with starts | starts | ⟨noDigit, noLetter⟩
  · rw [lexeme?_of_digit starts] at found
    exact isLexeme_of_number starts (Except.ok.inj found)
  · rw [lexeme?_of_letter starts] at found
    cases found
    exact ⟨.word starts fun _ member => List.mem_takeWhile_imp member,
      rest.takeWhile continuesName, rest.dropWhile continuesName, rfl,
      List.takeWhile_append_dropWhile.symm⟩
  · rw [lexeme?_of_other noDigit noLetter] at found
    rcases mem_symbols_of_symbol? found with ⟨listed, isNext⟩
    exact ⟨.symbol listed, isNext⟩

/-- A token stays what it is when the text behind it is cut off somewhere. -/
theorem lexeme?_cut {c : Char} {more middle back : List Char} {kind : TokenKind}
    (found : lexeme? c (more ++ (middle ++ back)) = .ok (kind, c :: more)) :
    lexeme? c (more ++ middle) = .ok (kind, c :: more) := by
  rcases starts_cases c with starts | starts | ⟨noDigit, noLetter⟩
  · rw [lexeme?_of_digit starts] at found ⊢
    rw [← List.cons_append] at found ⊢
    rw [number_cut (Except.ok.inj found)]
  · rw [lexeme?_of_letter starts] at found ⊢
    simp only [Except.ok.injEq, Prod.mk.injEq, List.cons.injEq, true_and] at found
    rcases found with ⟨isKind, isWord⟩
    rcases Text.takeWhile_append_eq_left_iff.mp isWord with ⟨inside, halts⟩
    rw [isWord] at isKind
    rw [Text.takeWhile_append_of_halts inside halts.cut, isKind]
  · rw [lexeme?_of_other noDigit noLetter] at found ⊢
    exact symbol?_cut found

/-- A token stays what it is in front of a boundary. -/
theorem lexeme?_bounded {c : Char} {more rest : List Char} {kind : TokenKind}
    (found : lexeme? c more = .ok (kind, c :: more)) (bounded : Bounded rest) :
    lexeme? c (more ++ rest) = .ok (kind, c :: more) := by
  rcases starts_cases c with starts | starts | ⟨noDigit, noLetter⟩
  · rw [lexeme?_of_digit starts] at found ⊢
    rw [← List.cons_append, number_bounded (Except.ok.inj found) bounded]
  · rw [lexeme?_of_letter starts] at found ⊢
    simp only [Except.ok.injEq, Prod.mk.injEq, List.cons.injEq, true_and] at found
    rcases found with ⟨isKind, isWord⟩
    rw [isWord] at isKind
    have inside : forall c, c ∈ more -> continuesName c = true := by
      rw [← isWord]
      exact fun c member => List.mem_takeWhile_imp member
    rw [Text.takeWhile_append_of_halts inside
      (bounded.halts fun _ => continuesName_of_isBoundary), isKind]
  · rw [lexeme?_of_other noDigit noLetter] at found ⊢
    exact symbol?_bounded found bounded

/-- Where no token is found, the text does not start with a lexeme of any kind. -/
theorem not_isLexeme_of_lexeme? {c : Char} {rest front back : List Char} {cause : LexicalCause}
    (fails : lexeme? c rest = .error cause) (chars : c :: rest = front ++ back)
    (kind : TokenKind) : Not (IsLexeme kind front) := by
  intro isLexeme
  rcases starts_cases c with starts | starts | ⟨noDigit, noLetter⟩
  · rw [lexeme?_of_digit starts] at fails
    cases fails
  · rw [lexeme?_of_letter starts] at fails
    cases fails
  · rw [lexeme?_of_other noDigit noLetter] at fails
    cases isLexeme with
    | word starts =>
        cases chars
        rw [starts] at noLetter
        cases noLetter
    | whole starts =>
        cases chars
        rw [starts] at noDigit
        cases noDigit
    | decimal starts =>
        cases chars
        rw [starts] at noDigit
        cases noDigit
    | symbol listed =>
        cases front with
        | nil => exact absurd listed (by simp [symbols])
        | cons first more =>
            cases chars
            rcases exists_symbol?_of_mem listed back with ⟨found, isFound⟩
            cases isFound.symm.trans fails

end Token
end HoareProof
