import HoareProof.Proofs.Scanning
import HoareProof.Proofs.StatementLanguage
import HoareProof.Proofs.TermLanguage

namespace HoareProof

/-!
What becomes of a text that cannot be read.  A text outside the grammar has no value, wherever
in it the grammar is left, and so has a text that has no tokens.  The one thing that is an error
is a number without a value, and the error names a token of the text that is to blame for it: a
whole number of too many digits, or a number with a character that counts as a digit where
numbers are scanned but has no decimal value.

So no text raises an error whose digits are those of ASCII and are not too many in a row.
-/

namespace Text

/-- Some character is digit-like but no decimal digit of any script. -/
def HasStray (chars : List Char) : Prop :=
  ∃ c, c ∈ chars ∧ isDigitLike c = true ∧ Numeral.isDecimal c = false

theorem isDecimal_of_not_hasStray {chars : List Char} (noStray : ¬ HasStray chars) {c : Char}
    (member : c ∈ chars) (digit : isDigit c = true) : Numeral.isDecimal c = true := by
  cases isDecimal : Numeral.isDecimal c with
  | true => rfl
  | false =>
      have digitLike : isDigitLike c = true := by
        rwa [isDigit, ← Numeral.isDecimal, isDecimal, Bool.false_or] at digit
      exact absurd ⟨c, member, digitLike, isDecimal⟩ noStray

end Text

/-! ## Number tokens -/

namespace Token

theorem wordKind_ne_number (word : List Char) :
    wordKind word ≠ .whole ∧ wordKind word ≠ .decimal := by
  unfold wordKind
  cases found : keywords.lookup (String.ofList word) with
  | none => exact ⟨by decide, by decide⟩
  | some kind =>
      obtain ⟨front, back, listed, _⟩ := List.lookup_eq_some_iff.mp found
      have member : (String.ofList word, kind) ∈ keywords := by simp [listed]
      have noNumber : forall entry, entry ∈ keywords ->
          entry.2 ≠ .whole ∧ entry.2 ≠ .decimal := by decide
      exact noNumber _ member

/-- A whole number is a run of digits. -/
theorem IsLexeme.digits_of_whole {chars : List Char} (isLexeme : IsLexeme .whole chars) :
    chars ≠ [] ∧ forall c, c ∈ chars -> Text.isDigit c = true := by
  generalize isKind : TokenKind.whole = kind at isLexeme
  cases isLexeme with
  | word => exact absurd isKind.symm (wordKind_ne_number _).1
  | whole starts inside =>
      exact ⟨List.cons_ne_nil _ _,
        List.forall_mem_cons.mpr ⟨Text.isDigit_of_isAsciiDigit starts, inside⟩⟩
  | decimal => cases isKind
  | symbol listed =>
      subst isKind
      simp [symbols] at listed

/-- A decimal number is a run of digits with a fraction and an exponent behind it. -/
theorem IsLexeme.parts_of_decimal {chars : List Char} (isLexeme : IsLexeme .decimal chars) :
    ∃ digits fraction exponent, chars = digits ++ (fraction ++ exponent) ∧ digits ≠ [] ∧
      (forall c, c ∈ digits -> Text.isDigit c = true) ∧ IsFraction fraction ∧
        IsExponent exponent := by
  generalize isKind : TokenKind.decimal = kind at isLexeme
  cases isLexeme with
  | word => exact absurd isKind.symm (wordKind_ne_number _).2
  | whole => cases isKind
  | decimal starts inside isFraction isExponent =>
      exact ⟨_ :: _, _, _, rfl, List.cons_ne_nil _ _,
        List.forall_mem_cons.mpr ⟨Text.isDigit_of_isAsciiDigit starts, inside⟩, isFraction,
        isExponent⟩
  | symbol listed =>
      subst isKind
      simp [symbols] at listed

/-- The characters of a token stand in the text one after the other. -/
theorem Reads.text_contiguous {position next : Position} {chars left : List Char}
    {tokens : List Token} (reads : Reads position chars tokens next left) :
    forall token, token ∈ tokens -> token.text.toList <:+: chars := by
  induction reads with
  | stay => exact fun _ member => absurd member List.not_mem_nil
  | space _ _ inductionHypothesis =>
      intro token member
      exact (inductionHypothesis token member).trans (List.suffix_cons _ _).isInfix
  | @token _ _ c more rest _ _ _ _ _ _ inductionHypothesis =>
      intro token member
      rcases List.mem_cons.mp member with rfl | further
      · rw [String.toList_ofList]
        exact ⟨[], rest, rfl⟩
      · have behind : rest <:+: c :: (more ++ rest) := (List.suffix_append (c :: more) rest).isInfix
        exact (inductionHypothesis token further).trans behind

end Token

/-! ## Numbers without a value -/

namespace Numeral

open Token (IsFraction IsExponent)

/-- A run of digits without a value is too long, or has a character that is no decimal digit. -/
theorem readWhole_eq_error {text : String} {error : NumeralError} (nonempty : text.toList ≠ [])
    (digits : forall c, c ∈ text.toList -> Text.isDigit c = true)
    (fails : readWhole text = .error error) :
    (∃ count, error = .tooLong count ∧ lengthLimit < count ∧ count ≤ text.toList.length) ∨
      error = .notWhole text ∧ Text.HasStray text.toList := by
  unfold readWhole at fails
  simp only at fails
  split at fails
  next long =>
    cases fails
    exact .inl ⟨_, rfl, long, (List.takeWhile_prefix isDecimal).length_le⟩
  next =>
    split at fails
    next unread =>
      cases fails
      refine .inr ⟨rfl, ?_⟩
      -- Without such a character all of the digits would have been taken.
      by_contra noStray
      have allTaken : text.toList.takeWhile isDecimal = text.toList := by
        rw [List.takeWhile_eq_self_iff]
        exact fun c member => Text.isDecimal_of_not_hasStray noStray member (digits c member)
      simp [allTaken, nonempty] at unread
    · cases fails

theorem exists_magnitude? {digits : List Char} (nonempty : digits ≠ [])
    (decimal : forall c, c ∈ digits -> isDecimal c = true) :
    ∃ magnitude, exponent?.magnitude? digits = some magnitude := by
  have all : digits.all isDecimal = true := List.all_eq_true.mpr decimal
  exact ⟨ofDigits digits, by simp [exponent?.magnitude?, nonempty, all]⟩

theorem exists_exponent? {sign more : List Char} {digit : Char}
    (isSign : sign = [] ∨ sign = ['+'] ∨ sign = ['-'])
    (first : Text.isAsciiDigit digit = true)
    (decimal : forall c, c ∈ digit :: more -> isDecimal c = true) :
    ∃ power, exponent? (sign ++ digit :: more) = some power := by
  obtain ⟨magnitude, found⟩ := exists_magnitude? (List.cons_ne_nil digit more) decimal
  rcases isSign with rfl | rfl | rfl
  · have noSign : digit ≠ '+' ∧ digit ≠ '-' := by
      constructor <;> rintro rfl <;> cases first
    exact ⟨magnitude, by simp [exponent?, noSign, found]⟩
  · exact ⟨magnitude, by simp [exponent?, found]⟩
  · exact ⟨-magnitude, by simp [exponent?, found]⟩

theorem halts_of_isExponent {exponent : List Char} (isExponent : IsExponent exponent) :
    Text.Halts isDecimal exponent := by
  cases isExponent with
  | none => exact Text.halts_nil isDecimal
  | some isMark =>
      intro c first
      cases first
      rcases isMark with rfl | rfl <;> rfl

theorem halts_of_isFraction {fraction rest : List Char} (isFraction : IsFraction fraction)
    (halts : Text.Halts isDecimal rest) : Text.Halts isDecimal (fraction ++ rest) := by
  cases isFraction with
  | none => exact halts
  | some =>
      intro c first
      cases first
      rfl

/-- An exponent is missing, or it is a mark with a power behind it. -/
theorem exists_power_of_isExponent {exponent : List Char} (isExponent : IsExponent exponent)
    (decimal : forall c, c ∈ exponent -> Text.isDigit c = true -> isDecimal c = true) :
    exponent = [] ∨ ∃ mark rest power, exponent = mark :: rest ∧ (mark = 'e' ∨ mark = 'E') ∧
      exponent? rest = some power := by
  cases isExponent with
  | none => exact .inl rfl
  | @some mark digit sign more isMark isSign first inside =>
      have digits : forall c, c ∈ digit :: more -> isDecimal c = true := by
        intro c member
        apply decimal c (by simp [List.mem_cons.mp member])
        rcases List.mem_cons.mp member with rfl | further
        · exact Text.isDigit_of_isAsciiDigit first
        · exact inside c further
      obtain ⟨power, found⟩ := exists_exponent? isSign first digits
      exact .inr ⟨mark, _, power, rfl, isMark, found⟩

/-- A decimal number whose digits are decimal digits, of whatever script, has a value. -/
theorem exists_decimal? {digits fraction exponent : List Char} (nonempty : digits ≠ [])
    (isFraction : IsFraction fraction) (isExponent : IsExponent exponent)
    (decimal : forall c, c ∈ digits -> isDecimal c = true)
    (decimalBehind : forall c, c ∈ fraction ++ exponent -> Text.isDigit c = true ->
      isDecimal c = true) :
    ∃ value, decimal? (digits ++ (fraction ++ exponent)) = some value := by
  have haltsExponent := halts_of_isExponent isExponent
  have haltsFraction := halts_of_isFraction isFraction haltsExponent
  have tail := exists_power_of_isExponent isExponent fun c member =>
    decimalBehind c (List.mem_append_right fraction member)
  unfold decimal?
  simp only [Text.takeWhile_append_of_halts decimal haltsFraction,
    Text.dropWhile_append_of_halts decimal haltsFraction]
  cases isFraction with
  | none =>
      rcases tail with rfl | ⟨mark, rest, power, rfl, rfl | rfl, found⟩ <;>
        simp [*]
  | @some places _ inside =>
      have decimalPlaces : forall c, c ∈ places -> isDecimal c = true := fun c member =>
        decimalBehind c (by simp [member]) (inside c member)
      simp only [List.cons_append, Text.takeWhile_append_of_halts decimalPlaces haltsExponent,
        Text.dropWhile_append_of_halts decimalPlaces haltsExponent]
      rcases tail with rfl | ⟨mark, rest, power, rfl, rfl | rfl, found⟩ <;>
        simp [*]

end Numeral

namespace Parsing

/-- The number tokens that have no value, each with the error that says why. -/
inductive Faulty : Token -> NumeralError -> Prop where
  | overlong {token : Token} {count : Nat} (kind : token.kind = .whole)
      (long : Numeral.lengthLimit < count) (within : count ≤ token.text.toList.length) :
      Faulty token (.tooLong count)
  | whole {token : Token} (kind : token.kind = .whole)
      (stray : Text.HasStray token.text.toList) : Faulty token (.notWhole token.text)
  | decimal {token : Token} (kind : token.kind = .decimal)
      (stray : Text.HasStray token.text.toList) : Faulty token (.notDecimal token.text)

theorem wholeValue_eq_error_iff {token : Token} {error : NumeralError} :
    wholeValue token = .error (.numeral error) ↔ Numeral.readWhole token.text = .error error := by
  unfold wholeValue
  split <;> simp_all

theorem decimalValue_eq_error_iff {token : Token} {error : NumeralError} :
    decimalValue token = .error (.numeral error) ↔
      Numeral.readDecimal token.text = .error error := by
  unfold decimalValue
  split <;> simp_all

/-- Where a number of a text has no value, its characters are at fault. -/
theorem Unreadable.faulty {token : Token} {error : NumeralError}
    (unreadable : Unreadable token error)
    (isLexeme : Token.IsLexeme token.kind token.text.toList) : Faulty token error := by
  cases unreadable with
  | whole kind fails =>
      rw [kind] at isLexeme
      rcases isLexeme.digits_of_whole with ⟨nonempty, digits⟩
      rcases Numeral.readWhole_eq_error nonempty digits (wholeValue_eq_error_iff.mp fails) with
        ⟨count, rfl, long, within⟩ | ⟨rfl, stray⟩
      · exact .overlong kind long within
      · exact .whole kind stray
  | decimal kind fails =>
      rw [kind] at isLexeme
      rcases isLexeme.parts_of_decimal with
        ⟨digits, fraction, exponent, isText, nonempty, inside, isFraction, isExponent⟩
      have unread := decimalValue_eq_error_iff.mp fails
      rw [Numeral.readDecimal] at unread
      split at unread
      · cases unread
      next noValue =>
        cases unread
        refine .decimal kind ?_
        by_contra noStray
        have decimal : forall c, c ∈ digits ++ (fraction ++ exponent) -> Text.isDigit c = true ->
            Numeral.isDecimal c = true := by
          intro c member
          rw [← isText] at member
          exact Text.isDecimal_of_not_hasStray noStray member
        have decimalDigits : forall c, c ∈ digits -> Numeral.isDecimal c = true :=
          fun c member => decimal c (List.mem_append_left _ member) (inside c member)
        obtain ⟨value, found⟩ := Numeral.exists_decimal? nonempty isFraction isExponent
          decimalDigits fun c member => decimal c (List.mem_append_right digits member)
        rw [isText, found] at noValue
        cases noValue

/-! ## Texts -/

/-- A text whose digits are those of ASCII, with no more of them in a row than a whole number
may have. -/
structure PlainDigits (text : String) : Prop where
  ascii : forall c, c ∈ text.toList -> Text.isDigit c = true -> Text.isAsciiDigit c = true
  short : forall run, run <:+: text.toList -> (forall c, c ∈ run -> Text.isDigit c = true) ->
    run.length ≤ Numeral.lengthLimit

theorem PlainDigits.not_hasStray {text : String} (plain : PlainDigits text) {chars : List Char}
    (contiguous : chars <:+: text.toList) : ¬ Text.HasStray chars := by
  rintro ⟨c, member, digitLike, noDecimal⟩
  have digit : Text.isDigit c = true := by rw [Text.isDigit, digitLike, Bool.or_true]
  have ascii := plain.ascii c (contiguous.subset member) digit
  rw [Numeral.isDecimal_of_isAsciiDigit ascii] at noDecimal
  cases noDecimal

theorem PlainDigits.not_faulty {text : String} (plain : PlainDigits text) {token : Token}
    (isLexeme : Token.IsLexeme token.kind token.text.toList)
    (contiguous : token.text.toList <:+: text.toList) (error : NumeralError) :
    ¬ Faulty token error := by
  intro faulty
  cases faulty with
  | overlong kind long within =>
      rw [kind] at isLexeme
      have short := plain.short _ contiguous isLexeme.digits_of_whole.2
      omega
  | whole _ stray => exact plain.not_hasStray contiguous stray
  | decimal _ stray => exact plain.not_hasStray contiguous stray

/-- What reading a text comes to, with respect to a grammar.  The text has the value that its
tokens derive; an error is that of a faulty number token, and a text with plain digits gives
none. -/
structure ReadsOrBlames {Value : Type} (text : String) (derives : List Token -> Value -> Prop)
    (outcome : Except NumeralError (Option Value)) : Prop where
  reads : forall value, outcome = .ok (some value) ↔
    ∃ stream, Token.ofText text = .ok stream ∧ derives stream.tokens value
  blames : forall error, outcome = .error error ->
    ∃ stream token, Token.ofText text = .ok stream ∧ token ∈ stream.tokens ∧ Faulty token error
  plain : PlainDigits text -> ∃ value?, outcome = .ok value?

theorem readsOrBlames_of_agrees {Value : Type} {parser : Parser Value}
    {derives : List Token -> Value -> Prop}
    (agrees : forall tokens value, parser tokens = .ok (value, []) ↔ derives tokens value)
    (blames : Blames parser) (text : String) :
    ReadsOrBlames text derives (readAll? parser text) := by
  have blamed : forall error, readAll? parser text = .error error ->
      ∃ stream token, Token.ofText text = .ok stream ∧ token ∈ stream.tokens ∧
        Token.IsLexeme token.kind token.text.toList ∧ token.text.toList <:+: text.toList ∧
          Faulty token error := by
    intro error fails
    rcases blamed_of_readAll? blames fails with ⟨stream, lexed, token, member, unreadable⟩
    have scanned := Token.reads_of_scan_ok lexed
    have isLexeme := scanned.isLexeme token member
    exact ⟨stream, token, lexed, member, isLexeme, scanned.text_contiguous token member,
      unreadable.faulty isLexeme⟩
  refine ⟨?_, ?_, ?_⟩
  · intro value
    simp only [readAll?_eq_some_iff, agrees]
  · intro error fails
    rcases blamed error fails with ⟨stream, token, lexed, member, _, _, faulty⟩
    exact ⟨stream, token, lexed, member, faulty⟩
  · intro plain
    cases outcome : readAll? parser text with
    | ok value? => exact ⟨value?, rfl⟩
    | error error =>
        rcases blamed error outcome with ⟨_, token, _, _, isLexeme, contiguous, faulty⟩
        exact absurd faulty (plain.not_faulty isLexeme contiguous error)

/-- Whatever the text, the three readers give a value, no value, or the error of a number of the
text that has none. -/
theorem malformed_text_has_no_value (text : String) :
    ReadsOrBlames text (Expr.InfixForm.Derives .disjunction) (Expr.ofText? .infixed text) ∧
      ReadsOrBlames text Expr.PrefixForm.Term (Expr.ofText? .prefixed text) ∧
        ReadsOrBlames text (Stmt.Derives .sequence) (Stmt.ofText? text) :=
  ⟨readsOrBlames_of_agrees Expr.infixParser_eq_ok_iff Expr.infixParser_blames text,
    readsOrBlames_of_agrees Expr.prefixParser_eq_ok_iff Expr.prefixParser_blames text,
    readsOrBlames_of_agrees Stmt.parser_eq_ok_iff Stmt.parser_blames text⟩

/-- A number that has no value and a parenthesis that was never opened.  A reader of assertions
comes to the number first; a reader of statements expects none and does not look at it. -/
def squaredAndClosed : String := "1² + )"

theorem squaredAndClosed_has_no_value :
    Expr.ofText? .infixed squaredAndClosed = .error (.notWhole "1²") ∧
      (∃ stream token, Token.ofText squaredAndClosed = .ok stream ∧ token ∈ stream.tokens ∧
        Faulty token (.notWhole "1²")) ∧
      Stmt.ofText? squaredAndClosed = .ok none ∧
      PlainDigits "(+ 12 )" ∧ ∃ value?, Expr.ofText? .prefixed "(+ 12 )" = .ok value? := by
  have fails : Expr.ofText? .infixed squaredAndClosed = .error (.notWhole "1²") := rfl
  have ascii : ("(+ 12 )".toList.all fun c => !Text.isDigit c || Text.isAsciiDigit c) = true := rfl
  have plain : PlainDigits "(+ 12 )" := by
    constructor
    · intro c member digit
      simpa [digit] using List.all_eq_true.mp ascii c member
    · intro run contiguous _
      exact contiguous.length_le.trans (by decide +kernel)
  exact ⟨fails, (malformed_text_has_no_value squaredAndClosed).1.blames _ fails, rfl, plain,
    (malformed_text_has_no_value "(+ 12 )").2.1.plain plain⟩

end Parsing
end HoareProof
