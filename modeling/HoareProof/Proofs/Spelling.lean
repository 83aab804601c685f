import HoareProof.Expr.Printer
import HoareProof.Proofs.DecimalText
import HoareProof.Proofs.Lexemes

namespace HoareProof

/-!
Texts and the tokens they are scanned as.  Whether characters form a token depends on
the character behind them, so a text is said to spell tokens in front of another text;
spellings then follow each other.  Names, numbers and operators are spelled in front of
a boundary, with the text that is written for them.
-/

namespace Position

/-- The place behind some characters that start at a place. -/
def passed (position : Position) (chars : List Char) : Position :=
  chars.foldl advance position

theorem passed_cons (position : Position) (c : Char) (chars : List Char) :
    position.passed (c :: chars) = (position.advance c).passed chars :=
  rfl

theorem passed_append (position : Position) (front back : List Char) :
    position.passed (front ++ back) = (position.passed front).passed back :=
  List.foldl_append

end Position

namespace Token

/-- Tokens put in front of a stream. -/
def Stream.prepend (tokens : List Token) (stream : Stream) : Stream :=
  { stream with tokens := tokens ++ stream.tokens }

/-- From every place, the characters in front are scanned as accepted tokens and the
scan goes on with the rest. -/
def Spells (front : List Char) (accepted : List Token -> Prop) (rest : List Char) : Prop :=
  forall position, ∃ tokens next, accepted tokens ∧
    scan 0 position (front ++ rest) = (scan 0 next rest).map (Stream.prepend tokens)

/-- One token of a kind and a text. -/
def Single (kind : TokenKind) (text : List Char) (tokens : List Token) : Prop :=
  ∃ token, tokens = [token] ∧ token.kind = kind ∧ token.text = String.ofList text

/-- Accepted tokens followed by accepted tokens. -/
def Followed (first second : List Token -> Prop) (tokens : List Token) : Prop :=
  ∃ front back, tokens = front ++ back ∧ first front ∧ second back

theorem Spells.mono {front rest : List Char} {accepted wider : List Token -> Prop}
    (spells : Spells front accepted rest) (widens : forall tokens, accepted tokens -> wider tokens) :
    Spells front wider rest := by
  intro position
  obtain ⟨tokens, next, isAccepted, scanned⟩ := spells position
  exact ⟨tokens, next, widens tokens isAccepted, scanned⟩

theorem Spells.append {front back rest : List Char} {first second : List Token -> Prop}
    (spellsFront : Spells front first (back ++ rest)) (spellsBack : Spells back second rest) :
    Spells (front ++ back) (Followed first second) rest := by
  intro position
  obtain ⟨frontTokens, between, isFirst, scannedFront⟩ := spellsFront position
  obtain ⟨backTokens, next, isSecond, scannedBack⟩ := spellsBack between
  refine ⟨frontTokens ++ backTokens, next, ⟨frontTokens, backTokens, rfl, isFirst, isSecond⟩, ?_⟩
  rw [List.append_assoc, scannedFront, scannedBack]
  cases scan 0 next rest with
  | error e => rfl
  | ok stream =>
      simp only [Except.map, Stream.prepend, List.append_assoc]

theorem scan_space {c : Char} (space : isSpace c = true) (position : Position)
    (rest : List Char) : scan 0 position (c :: rest) = scan 0 (position.advance c) rest := by
  rw [scan, if_pos space]

theorem spells_space (rest : List Char) : Spells [' '] (· = []) rest := by
  intro position
  refine ⟨[], position.advance ' ', rfl, ?_⟩
  rw [List.singleton_append, scan_space rfl]
  cases scan 0 (position.advance ' ') rest <;> rfl

/-- A space between two spellings leaves no token. -/
theorem Spells.spaced {front back rest : List Char} {first second : List Token -> Prop}
    (spellsFront : Spells front first (' ' :: (back ++ rest))) (spellsBack : Spells back second rest) :
    Spells (front ++ ' ' :: back) (Followed first second) rest := by
  apply (spellsFront.append ((spells_space (back ++ rest)).append spellsBack)).mono
  rintro _ ⟨_, _, rfl, isFirst, _, _, rfl, rfl, isSecond⟩
  exact ⟨_, _, rfl, isFirst, isSecond⟩

/-- The characters of a token that has been read are passed over. -/
theorem scan_pending (more rest : List Char) (position : Position) :
    scan more.length position (more ++ rest) = scan 0 (position.passed more) rest := by
  induction more generalizing position with
  | nil => rfl
  | cons c more inductionHypothesis => exact inductionHypothesis (position.advance c)

theorem scan_lexeme {c : Char} {more rest : List Char} {kind : TokenKind}
    (noSpace : isSpace c = false) (found : lexeme? c (more ++ rest) = .ok (kind, c :: more))
    (position : Position) :
    scan 0 position (c :: (more ++ rest)) =
      (scan 0 (position.passed (c :: more)) rest).map
        (Stream.prepend [⟨kind, String.ofList (c :: more), position⟩]) := by
  simp only [scan, noSpace, Bool.false_eq_true, if_false, found, List.length_cons,
    Nat.add_sub_cancel, scan_pending, Position.passed_cons]
  cases scan 0 ((position.advance c).passed more) rest <;> rfl

theorem spells_lexeme {c : Char} {more rest : List Char} {kind : TokenKind}
    (notSpace : isSpace c = false) (found : lexeme? c (more ++ rest) = .ok (kind, c :: more)) :
    Spells (c :: more) (Single kind (c :: more)) rest := by
  intro position
  exact ⟨[⟨kind, String.ofList (c :: more), position⟩], position.passed (c :: more),
    ⟨_, rfl, rfl, rfl⟩, scan_lexeme notSpace found position⟩

/-- A text that spells tokens up to its end has those tokens. -/
theorem Spells.ofText {text : String} {accepted : List Token -> Prop}
    (spells : Spells text.toList accepted []) :
    ∃ stream, Token.ofText text = .ok stream ∧ accepted stream.tokens := by
  obtain ⟨tokens, next, isAccepted, scanned⟩ := spells .start
  refine ⟨⟨tokens, next⟩, ?_, isAccepted⟩
  rw [List.append_nil] at scanned
  rw [Token.ofText, scanned]
  simp [scan, Except.map, Stream.prepend]

/-! ## Words -/

/-- A text that can be the name of a variable: letters, digits and underscores that do
not start with a digit, and no keyword. -/
def isName (name : String) : Bool :=
  match name.toList with
  | [] => false
  | first :: more =>
    startsName first && more.all continuesName && (keywords.lookup name).isNone

theorem isEmpty_of_isName {name : String} (named : isName name = true) : name.isEmpty = false := by
  rw [← Bool.not_eq_true, String.isEmpty_iff]
  rintro rfl
  cases named

/-- A word up to a boundary is one token, of the kind of the word. -/
theorem spells_word {first : Char} {more rest : List Char} (starts : startsName first = true)
    (continues : more.all continuesName = true) (bounded : Bounded rest) :
    Spells (first :: more) (Single (wordKind (first :: more)) (first :: more)) rest := by
  have ends := Text.takeWhile_append_of_halts (List.all_eq_true.mp continues)
    (bounded.halts fun _ => continuesName_of_isBoundary)
  apply spells_lexeme (isSpace_of_continuesName (by simp [continuesName, starts]))
  rw [lexeme?_of_letter starts, ends]

theorem spells_name {name : String} (named : isName name = true) {rest : List Char}
    (bounded : Bounded rest) : Spells name.toList (Single .name name.toList) rest := by
  unfold isName at named
  split at named
  · cases named
  next first more chars =>
    simp only [Bool.and_eq_true, Option.isNone_iff_eq_none] at named
    obtain ⟨⟨starts, continues⟩, noKeyword⟩ := named
    have kind : wordKind (first :: more) = .name := by
      rw [wordKind, ← chars, String.ofList_toList, noKeyword]
      rfl
    rw [chars, ← kind]
    exact spells_word starts continues bounded

/-! ## Numbers -/

theorem fraction_pointed {digits rest : List Char} (ascii : Numeral.IsAscii digits)
    (noPoint : rest.head? ≠ some '.') (halts : Text.Halts Text.isDigit rest) :
    fraction (Binary64.pointed digits ++ rest) = Binary64.pointed digits := by
  cases digits with
  | nil => exact fraction_of_head? noPoint
  | cons digit more =>
      have isFraction : IsFraction ('.' :: digit :: more) :=
        .some (List.cons_ne_nil _ _) fun c member => Text.isDigit_of_isAsciiDigit (ascii c member)
      exact fraction_append isFraction (List.cons_ne_nil _ _) halts

theorem isExponent_marked (power : Option Int) : IsExponent (Binary64.marked power) := by
  cases power with
  | none => exact .none
  | some power =>
      have ascii := Binary64.isAscii_exponentDigits power
      have isSign : [if power < 0 then '-' else '+'] = ['+'] ∨
          [if power < 0 then '-' else '+'] = ['-'] := by
        by_cases below : power < 0 <;> simp [below]
      cases digits : Binary64.exponentDigits power with
      | nil => exact absurd digits (Binary64.exponentDigits_ne_nil power)
      | cons digit more =>
          rw [digits] at ascii
          have inside : forall c, c ∈ more -> Text.isDigit c = true := fun c member =>
            Text.isDigit_of_isAsciiDigit (ascii c (List.mem_cons_of_mem digit member))
          have made : IsExponent ('e' :: ([if power < 0 then '-' else '+'] ++ digit :: more)) :=
            .some (.inl rfl) (.inr isSign) (ascii digit List.mem_cons_self) inside
          rw [Binary64.marked, Binary64.exponentText_eq, digits]
          exact made

theorem exponent_marked (power : Option Int) {rest : List Char} (bounded : Bounded rest) :
    exponent (Binary64.marked power ++ rest) = Binary64.marked power := by
  by_cases missing : Binary64.marked power = []
  · rw [missing]
    exact exponent_of_bounded bounded
  · exact exponent_append (isExponent_marked power) missing
      (bounded.halts fun _ => isDigit_of_isBoundary)

/-- The number at the head of a text ends at a boundary.  It is a decimal as soon as it
has a fraction or an exponent. -/
theorem number_eq {whole digits rest : List Char} (wholeAscii : Numeral.IsAscii whole)
    (digitsAscii : Numeral.IsAscii digits) (power : Option Int) (bounded : Bounded rest) :
    number (whole ++ (Binary64.pointed digits ++ Binary64.marked power) ++ rest) =
      (numberKind (Binary64.pointed digits) (Binary64.marked power),
        whole ++ (Binary64.pointed digits ++ Binary64.marked power)) := by
  have restHalts := bounded.halts fun _ => isDigit_of_isBoundary
  have powerHalts := Binary64.halts_marked rfl power restHalts
  have noPoint : (Binary64.marked power ++ rest).head? ≠ some '.' := by
    intro point
    have notBoundary : isBoundary '.' = false := rfl
    cases power with
    | none => exact absurd (bounded '.' point) (by rw [notBoundary]; decide)
    | some power => cases point
  have parts : IsNumber whole (Binary64.pointed digits) (Binary64.marked power) rest :=
    ⟨fun c member => Text.isDigit_of_isAsciiDigit (wholeAscii c member),
      Binary64.halts_pointed rfl digits powerHalts,
      fraction_pointed digitsAscii noPoint powerHalts, exponent_marked power bounded⟩
  simpa only [List.append_assoc] using parts.number_eq

/-- A number up to a boundary is one token. -/
theorem spells_number {whole digits rest : List Char} (nonempty : whole ≠ [])
    (wholeAscii : Numeral.IsAscii whole) (digitsAscii : Numeral.IsAscii digits)
    (power : Option Int) (bounded : Bounded rest) :
    Spells (whole ++ (Binary64.pointed digits ++ Binary64.marked power))
      (Single (numberKind (Binary64.pointed digits) (Binary64.marked power))
        (whole ++ (Binary64.pointed digits ++ Binary64.marked power))) rest := by
  have isNumber := number_eq wholeAscii digitsAscii power bounded
  cases whole with
  | nil => exact absurd rfl nonempty
  | cons first more =>
      have digit : Text.isAsciiDigit first = true := wholeAscii first List.mem_cons_self
      simp only [List.cons_append] at isNumber ⊢
      apply spells_lexeme (isSpace_of_continuesName (by simp [continuesName, digit]))
      rw [lexeme?_of_digit digit, isNumber]

theorem spells_whole (n : Nat) {rest : List Char} (bounded : Bounded rest) :
    Spells (Nat.toDigits 10 n) (Single .whole (Nat.toDigits 10 n)) rest := by
  have spells := spells_number Nat.toDigits_ne_nil (Numeral.isAscii_toDigits n)
    (Numeral.isAscii_replicate_zero 0) none bounded
  simpa [Binary64.pointed, Binary64.marked, numberKind] using spells

theorem spells_decimal (parts : Binary64.Layout.Parts) {rest : List Char}
    (bounded : Bounded rest) : Spells parts.text (Single .decimal parts.text) rest := by
  have spells := spells_number parts.nonempty parts.wholeAscii parts.fractionAscii parts.exponent
    bounded
  have notWhole : numberKind (Binary64.pointed parts.fraction)
      (Binary64.marked parts.exponent) = .decimal := by
    rcases parts.distinct with hasFraction | hasExponent
    · rw [Binary64.pointed_of_ne_nil hasFraction]
      rfl
    · obtain ⟨power, isPower⟩ := Option.isSome_iff_exists.mp hasExponent
      rw [isPower, numberKind, Bool.and_comm]
      rfl
  rw [notWhole] at spells
  exact spells

/-! ## Symbols -/

theorem spells_opening (rest : List Char) : Spells ['('] (Single .openParen ['(']) rest :=
  spells_lexeme rfl rfl

theorem spells_closing (rest : List Char) : Spells [')'] (Single .closeParen [')']) rest :=
  spells_lexeme rfl rfl

/-- Accepted tokens between parentheses. -/
def Grouped (accepted : List Token -> Prop) (tokens : List Token) : Prop :=
  ∃ opening inner closing, tokens = opening :: (inner ++ [closing]) ∧
    opening.kind = .openParen ∧ closing.kind = .closeParen ∧ accepted inner

theorem Spells.grouped {inner rest : List Char} {accepted : List Token -> Prop}
    (spells : Spells inner accepted (')' :: rest)) :
    Spells ('(' :: (inner ++ [')'])) (Grouped accepted) rest := by
  apply ((spells_opening _).append (spells.append (spells_closing rest))).mono
  rintro _ ⟨_, _, rfl, ⟨opening, rfl, opens, _⟩, tokens, _, rfl, isAccepted,
    closing, rfl, closes, _⟩
  exact ⟨opening, tokens, closing, rfl, opens, closes, isAccepted⟩

theorem spells_minus (rest : List Char) : Spells ['-'] (Single .minus ['-']) rest :=
  spells_lexeme rfl rfl

theorem spells_negation (rest : List Char) : Spells ['¬'] (Single .not ['¬']) rest :=
  spells_lexeme rfl rfl

theorem spells_truth (value : Bool) {rest : List Char} (bounded : Bounded rest) :
    Spells (if value then "true" else "false").toList
      (Single (if value then .trueWord else .falseWord) (if value then "true" else "false").toList)
      rest := by
  cases value
  · exact spells_word rfl rfl bounded
  · exact spells_word rfl rfl bounded

end Token

namespace Operator

/-- The kind of the token that an operator is spelled with, in either form. -/
def kind? : Operator -> Option TokenKind
  | .add => some .plus
  | .sub => some .minus
  | .mul => some .star
  | .equal => some .equal
  | .less => some .less
  | .greater => some .greater
  | .atMost => some .atMost
  | .atLeast => some .atLeast
  | .and => some .and
  | .or => some .or
  | .not => some .not
  | .other _ => none

theorem spells_human {op : Operator} {kind : TokenKind} (known : op.kind? = some kind)
    (rest : List Char) :
    Token.Spells op.human.toList (Token.Single kind op.human.toList) (' ' :: rest) := by
  cases op <;> cases known <;> exact Token.spells_lexeme rfl rfl

theorem spells_solver {op : Operator} {kind : TokenKind} (known : op.kind? = some kind)
    (rest : List Char) :
    Token.Spells op.solver.toList (Token.Single kind op.solver.toList) (' ' :: rest) := by
  have bounded := Token.bounded_cons (c := ' ') rfl rest
  cases op with
  | and | or | not =>
      cases known
      exact Token.spells_word rfl rfl bounded
  | other text => cases known
  | add | sub | mul | equal | less | greater | atMost | atLeast =>
      cases known
      exact Token.spells_lexeme rfl rfl

end Operator
end HoareProof
