import HoareProof.Proofs.Regrouping

namespace HoareProof
namespace Expr

/-!
Rows of operands.  Inside a pair of parentheses a layout is a row: operands, each of them an atom
or something in parentheses with negations in front of it, and operators between them.  The
characters of a row determine it, by induction on what stands in parentheses, because an atom
ends where no character of a name follows and no two operators start alike.

A row has two, three or four operands, or one under a negation, and once the groupings have been
chosen it is the row of one assertion only.  So the normal forms of two assertions are equal
exactly when the assertions are, up to the choice of groupings.
-/

/-- What stands in a row: an assertion with some negations in front of it. -/
@[ext] structure Operand where
  negations : Nat
  subject : Expr

/-- Operands with operators between them. -/
@[ext] structure Row where
  operands : List Operand
  operators : List Operator

/-- The part of a row that an operand of an application takes. -/
def piece : Expr -> Row
  | .binary op left right =>
      if left.isAtom && right.isAtom then ⟨[⟨0, left⟩, ⟨0, right⟩], [op]⟩
      else ⟨[⟨0, .binary op left right⟩], []⟩
  | .unary op operand =>
      if operand.isAtom then ⟨[⟨1, operand⟩], []⟩ else ⟨[⟨0, .unary op operand⟩], []⟩
  | e => ⟨[⟨0, e⟩], []⟩

/-- One negation more in front of the first operand. -/
def negateFirst : List Operand -> List Operand
  | [] => []
  | first :: rest => ⟨first.negations + 1, first.subject⟩ :: rest

/-- The row of an application. -/
def line : Expr -> Row
  | .binary op left right =>
      ⟨left.piece.operands ++ right.piece.operands,
        left.piece.operators ++ op :: right.piece.operators⟩
  | .unary _ operand => ⟨negateFirst operand.piece.operands, operand.piece.operators⟩
  | e => e.piece

/-- An assertion that stands in a row as a whole: an atom, or something in parentheses. -/
def IsSubject (e : Expr) : Prop :=
  e.isAtom = true ∨ e.isBare = false

/-- The three forms of a piece. -/
inductive Piece : Expr -> Row -> Prop where
  | pair {op : Operator} {x y : Expr} (first : x.isAtom = true) (second : y.isAtom = true) :
      Piece (.binary op x y) ⟨[⟨0, x⟩, ⟨0, y⟩], [op]⟩
  | negated {x : Expr} (atom : x.isAtom = true) : Piece (.unary .not x) ⟨[⟨1, x⟩], []⟩
  | single {e : Expr} (subject : e.IsSubject) : Piece e ⟨[⟨0, e⟩], []⟩

theorem piece_spec {e : Expr} (integral : e.Integral) : Piece e e.piece := by
  cases e with
  | hole | var | const | truth => exact .single (.inl rfl)
  | binary op left right =>
      rw [piece]
      split
      next atoms =>
        rw [Bool.and_eq_true] at atoms
        exact .pair atoms.1 atoms.2
      next notAtoms => exact .single (.inr (by simpa [isBare] using notAtoms))
  | unary op operand =>
      rcases legible_unary_iff.mp integral with ⟨rfl, _⟩
      rw [piece]
      split
      next atom => exact .negated atom
      next notAtom => exact .single (.inr (by simpa [isBare] using notAtom))

namespace Operand

/-- The characters of an operand. -/
def chars (operand : Operand) : List Char :=
  List.replicate operand.negations '¬' ++ operand.subject.layout signOf

end Operand

/-- The characters of a row. -/
def rowChars : List Operand -> List Operator -> List Char
  | [], _ => []
  | first :: _, [] => first.chars
  | first :: rest, op :: operators => first.chars ++ (signOf op ++ rowChars rest operators)

theorem rowChars_append {front back : List Operand} {first second : List Operator}
    (balanced : front.length = first.length + 1) (op : Operator) :
    rowChars (front ++ back) (first ++ op :: second) =
      rowChars front first ++ (signOf op ++ rowChars back second) := by
  induction front generalizing first with
  | nil => simp at balanced
  | cons operand front inductionHypothesis =>
      cases first with
      | nil =>
          have alone : front = [] := by simpa using balanced
          subst alone
          rfl
      | cons other first =>
          have remaining : front.length = first.length + 1 := by simpa using balanced
          simp only [List.cons_append, rowChars, inductionHypothesis remaining, List.append_assoc]

theorem rowChars_negateFirst {operands : List Operand} (nonempty : operands ≠ [])
    (operators : List Operator) :
    rowChars (negateFirst operands) operators = '¬' :: rowChars operands operators := by
  cases operands with
  | nil => exact absurd rfl nonempty
  | cons first rest =>
      cases operators <;> simp [negateFirst, rowChars, Operand.chars, List.replicate_succ]

theorem Piece.balanced {e : Expr} {row : Row} (piece : Piece e row) :
    row.operands.length = row.operators.length + 1 := by
  cases piece <;> rfl

theorem Piece.layout_eq {e : Expr} {row : Row} (piece : Piece e row) :
    e.layout signOf = rowChars row.operands row.operators := by
  cases piece with
  | pair first second => simp [layout, enclose, first, second, rowChars, Operand.chars]
  | negated atom =>
      simp [layout, enclose, atom, rowChars, Operand.chars, signOf, Operator.human]
  | single => simp [rowChars, Operand.chars]

/-- What is not bare is laid out as its row in parentheses. -/
theorem layout_eq_line {e : Expr} (integral : e.Integral) (tall : e.isBare = false) :
    e.layout signOf = '(' :: (rowChars e.line.operands e.line.operators ++ [')']) := by
  cases e with
  | hole | var | const | truth => cases tall
  | binary op left right =>
      rcases legible_binary_iff.mp integral with ⟨_, leftIntegral, rightIntegral⟩
      have leftPiece := piece_spec leftIntegral
      have rightPiece := piece_spec rightIntegral
      have notBare : (left.isAtom && right.isAtom) = false := tall
      rw [layout, notBare, leftPiece.layout_eq, rightPiece.layout_eq, line,
        rowChars_append leftPiece.balanced]
      rfl
  | unary op operand =>
      rcases legible_unary_iff.mp integral with ⟨rfl, operandIntegral⟩
      have operandPiece := piece_spec operandIntegral
      have nonempty : operand.piece.operands ≠ [] := by
        intro empty
        have balanced := operandPiece.balanced
        rw [empty] at balanced
        simp at balanced
      have notBare : operand.isAtom = false := tall
      rw [layout, notBare, operandPiece.layout_eq, line, rowChars_negateFirst nonempty]
      rfl

/-! ## A row is read in one way -/

/-- An operand as an assertion. -/
def ofOperand (operand : Operand) : Expr :=
  operand.negations.repeat negate operand.subject

/-- Reads a row.  Of three operands the last two stand together if the last is an atom. -/
def ofRow : Row -> Expr
  | ⟨[first], []⟩ => ofOperand first
  | ⟨[first, second], [op]⟩ => .binary op (ofOperand first) (ofOperand second)
  | ⟨[first, second, third], [inner, outer]⟩ =>
      if third.negations = 0 ∧ third.subject.isAtom = true then
        .binary inner (ofOperand first) (.binary outer (ofOperand second) (ofOperand third))
      else .binary outer (.binary inner (ofOperand first) (ofOperand second)) (ofOperand third)
  | ⟨[first, second, third, fourth], [left, op, right]⟩ =>
      .binary op (.binary left (ofOperand first) (ofOperand second))
        (.binary right (ofOperand third) (ofOperand fourth))
  | _ => .hole

theorem Piece.ofRow_eq {e : Expr} {row : Row} (piece : Piece e row) : ofRow row = e := by
  cases piece <;> rfl

theorem ofRow_line {e : Expr} (integral : e.Integral) (settled : e.Settled)
    (tall : e.isBare = false) : ofRow e.line = e := by
  cases e with
  | hole | var | const | truth => cases tall
  | binary op left right =>
      rcases legible_binary_iff.mp integral with ⟨_, leftIntegral, rightIntegral⟩
      have leftPiece := piece_spec leftIntegral
      have rightPiece := piece_spec rightIntegral
      rw [line]
      generalize left.piece = leftRow at leftPiece
      generalize right.piece = rightRow at rightPiece
      cases leftPiece with
      | pair first second =>
          cases rightPiece with
          | pair third fourth => rfl
          | negated atom => rfl
          | single subject =>
              have applied := settled.third_applied first second
              simp [ofRow, ofOperand, applied, Nat.repeat]
      | negated atom =>
          cases rightPiece with
          | pair first second => simp [ofRow, ofOperand, second, negate, Nat.repeat]
          | negated other => rfl
          | single subject => rfl
      | single subject =>
          cases rightPiece with
          | pair first second => simp [ofRow, ofOperand, second, Nat.repeat]
          | negated atom => rfl
          | single other => rfl
  | unary op operand =>
      rcases legible_unary_iff.mp integral with ⟨rfl, operandIntegral⟩
      have operandPiece := piece_spec operandIntegral
      rw [line]
      generalize operand.piece = row at operandPiece
      cases operandPiece with
      | pair first second => exact absurd second (by simp [settled.not_negated first])
      | negated atom => rfl
      | single subject => rfl

/-! ## The characters of a row determine it -/

/-- Reads an atom from its human form. -/
def ofAtomText (text : String) : Expr :=
  if Token.isName text then .var text
  else
    match text.toList with
    | 't' :: _ => .truth true
    | 'f' :: _ => .truth false
    | '-' :: digits => .const (.whole (-Numeral.ofDigits digits))
    | digits => .const (.whole (Numeral.ofDigits digits))

theorem ofAtomText_numeral (n : Int) :
    ofAtomText (Number.wholeText n) = .const (.whole n) := by
  have digits := Numeral.isAscii_toDigits n.natAbs
  by_cases negative : n < 0
  · have chars : (Number.wholeText n).toList = '-' :: Nat.toDigits 10 n.natAbs := by
      simp [Number.wholeText, negative]
    have notName : Token.isName (Number.wholeText n) = false := by
      simp [Token.isName, chars, Token.startsName]
    have value : -(n.natAbs : Int) = n := by omega
    rw [ofAtomText, notName, chars]
    simp only [Bool.false_eq_true, if_false]
    rw [Numeral.ofDigits_toDigits, value]
  · have chars : (Number.wholeText n).toList = Nat.toDigits 10 n.natAbs := by
      simp [Number.wholeText, negative]
    have value : (n.natAbs : Int) = n := by omega
    have read := Numeral.ofDigits_toDigits n.natAbs
    cases split : Nat.toDigits 10 n.natAbs with
    | nil => exact absurd split Nat.toDigits_ne_nil
    | cons c rest =>
        rw [split] at digits chars read
        have digit := digits c List.mem_cons_self
        have notName : Token.isName (Number.wholeText n) = false := by
          have notStart : Token.startsName c = false := by
            cases starts : Token.startsName c with
            | false => rfl
            | true => rw [Token.isAsciiDigit_of_startsName starts] at digit; cases digit
          simp [Token.isName, chars, notStart]
        rw [ofAtomText, notName, chars]
        simp only [Bool.false_eq_true, if_false]
        split
        next same => cases same; cases digit
        next same => cases same; cases digit
        next same => cases same; cases digit
        next => rw [read, value]

theorem ofAtomText_human {e : Expr} (integral : e.Integral) (atom : e.isAtom = true) :
    ofAtomText e.human = e := by
  cases e with
  | binary | unary => cases atom
  | hole => exact absurd integral.complete (by decide)
  | truth value => cases value <;> rfl
  | var name => exact if_pos (legible_var_iff.mp integral)
  | const value =>
      cases value with
      | double | notANumber =>
          exact absurd (legible_const_iff.mp integral) (by simp [Number.isWhole])
      | whole n => exact ofAtomText_numeral n

/-- A text behind which an atom has ended. -/
abbrev Ends (rest : List Char) : Prop :=
  Text.Halts Token.continuesName rest

theorem run_ne_minus {run : List Char} (nonempty : run ≠ [])
    (continues : forall c, c ∈ run -> Token.continuesName c = true) (rest other : List Char) :
    run ++ rest ≠ '-' :: other := by
  intro split
  cases run with
  | nil => exact nonempty rfl
  | cons c run =>
      cases (List.cons.inj split).1
      exact absurd (continues '-' List.mem_cons_self) (by decide)

/-- Atoms are separated by what stands behind them. -/
theorem atom_eq {a b : Expr} (aIntegral : a.Integral) (bIntegral : b.Integral)
    (aAtom : a.isAtom = true) (bAtom : b.isAtom = true) {u v : List Char} (uEnds : Ends u)
    (vEnds : Ends v) (same : a.human.toList ++ u = b.human.toList ++ v) : a = b ∧ u = v := by
  rcases exists_run aIntegral aAtom with ⟨aSign, aRun, aChars, aIsSign, aNonempty, aContinues⟩
  rcases exists_run bIntegral bAtom with ⟨bSign, bRun, bChars, bIsSign, bNonempty, bContinues⟩
  rw [aChars, bChars, List.append_assoc, List.append_assoc] at same
  have sameSign : aSign = bSign := by
    rcases aIsSign with rfl | rfl <;> rcases bIsSign with rfl | rfl
    · rfl
    · exact absurd same (run_ne_minus aNonempty aContinues u (bRun ++ v))
    · exact absurd same.symm (run_ne_minus bNonempty bContinues v (aRun ++ u))
    · rfl
  rw [sameSign, List.append_cancel_left_eq] at same
  have sameRun : aRun = bRun := by
    rw [← Text.takeWhile_append_of_halts aContinues uEnds, same,
      Text.takeWhile_append_of_halts bContinues vEnds]
  have sameRest : u = v := by
    rw [← Text.dropWhile_append_of_halts aContinues uEnds, same,
      Text.dropWhile_append_of_halts bContinues vEnds]
  have sameText : a.human = b.human := by
    apply String.toList_inj.mp
    rw [aChars, bChars, sameSign, sameRun]
  refine ⟨?_, sameRest⟩
  rw [← ofAtomText_human aIntegral aAtom, sameText, ofAtomText_human bIntegral bAtom]

/-- An assertion is told from every other one that can stand in its place. -/
def Separates (e : Expr) : Prop :=
  forall other : Expr, other.Integral -> other.Settled -> other.IsSubject ->
    forall u v, Ends u -> Ends v -> e.layout signOf ++ u = other.layout signOf ++ v ->
      e = other ∧ u = v

/-- No subject starts with a negation, and none but those in parentheses with a parenthesis. -/
theorem IsSubject.exists_cons {e : Expr} (integral : e.Integral) (subject : e.IsSubject) :
    ∃ c rest, e.layout signOf = c :: rest ∧ c ≠ '¬' ∧ (e.isAtom = true -> c ≠ '(') := by
  rcases subject with atom | tall
  · rw [layout_atom atom]
    rcases exists_run integral atom with ⟨sign, run, chars, _, nonempty, _⟩
    cases split : e.human.toList with
    | nil => simp_all
    | cons c rest =>
        have inside := isAtomChar_of_mem_human integral atom c (by simp [split])
        refine ⟨c, rest, rfl, ?_, ?_⟩
        · rintro rfl
          cases inside
        · rintro _ rfl
          cases inside
  · refine ⟨'(', _, layout_eq_line integral tall, by decide, ?_⟩
    intro atom
    cases e with
    | binary | unary => cases atom
    | hole | var | const | truth => cases tall

theorem separates_atom {e : Expr} (integral : e.Integral) (atom : e.isAtom = true) :
    e.Separates := by
  intro other otherIntegral _ subject u v uEnds vEnds same
  rcases subject with otherAtom | tall
  · rw [layout_atom atom, layout_atom otherAtom] at same
    exact atom_eq integral otherIntegral atom otherAtom uEnds vEnds same
  · rcases IsSubject.exists_cons integral (.inl atom) with ⟨c, rest, chars, _, notParen⟩
    rw [chars, layout_eq_line otherIntegral tall] at same
    exact absurd (List.cons.inj same).1 (notParen atom)

theorem replicate_append_inj {m n : Nat} {front back : List Char}
    (frontStarts : front.head? ≠ some '¬') (backStarts : back.head? ≠ some '¬')
    (same : List.replicate m '¬' ++ front = List.replicate n '¬' ++ back) :
    m = n ∧ front = back := by
  induction m generalizing n with
  | zero =>
      cases n with
      | zero => exact ⟨rfl, same⟩
      | succ n =>
          rw [List.replicate_zero, List.nil_append] at same
          rw [same] at frontStarts
          exact absurd rfl frontStarts
  | succ m inductionHypothesis =>
      cases n with
      | zero =>
          rw [List.replicate_zero, List.nil_append] at same
          rw [← same] at backStarts
          exact absurd rfl backStarts
      | succ n =>
          have smaller := inductionHypothesis (List.cons.inj same).2
          exact ⟨congrArg (· + 1) smaller.1, smaller.2⟩

/-- An operand with a settled assertion that stands in the row as a whole. -/
structure Operand.Fine (operand : Operand) : Prop where
  integral : operand.subject.Integral
  settled : operand.subject.Settled
  subject : operand.subject.IsSubject

theorem operand_eq {first second : Operand} (firstFine : first.Fine) (secondFine : second.Fine)
    (separates : first.subject.Separates) {u v : List Char} (uEnds : Ends u) (vEnds : Ends v)
    (same : first.chars ++ u = second.chars ++ v) : first = second ∧ u = v := by
  rcases firstFine.subject.exists_cons firstFine.integral with ⟨c, _, firstChars, firstStart, _⟩
  rcases secondFine.subject.exists_cons secondFine.integral with
    ⟨d, _, secondChars, secondStart, _⟩
  rw [Operand.chars, Operand.chars, List.append_assoc, List.append_assoc] at same
  rcases replicate_append_inj (by simpa [firstChars] using firstStart)
    (by simpa [secondChars] using secondStart) same with ⟨sameCount, sameChars⟩
  rcases separates _ secondFine.integral secondFine.settled secondFine.subject u v uEnds vEnds
    sameChars with ⟨sameSubject, sameRest⟩
  exact ⟨Operand.ext sameCount sameSubject, sameRest⟩

/-- The operator whose sign starts with a character. -/
def ofSign? : Char -> Option Operator
  | '+' => some .add
  | '-' => some .sub
  | '*' => some .mul
  | '=' => some .equal
  | '<' => some .less
  | '>' => some .greater
  | '≤' => some .atMost
  | '≥' => some .atLeast
  | '∧' => some .and
  | '∨' => some .or
  | _ => none

theorem ofSign?_signOf {op : Operator} (binary : op.isBinary = true) (rest : List Char) :
    (signOf op ++ rest).head?.bind ofSign? = some op := by
  cases op with
  | not | other => cases binary
  | _ => rfl

theorem ends_signOf {op : Operator} (binary : op.isBinary = true) (rest : List Char) :
    Ends (signOf op ++ rest) := by
  intro c first
  cases op with
  | not | other => cases binary
  | _ =>
      cases first
      rfl

theorem sign_eq {first second : Operator} (firstBinary : first.isBinary = true)
    (secondBinary : second.isBinary = true) {u v : List Char}
    (same : signOf first ++ u = signOf second ++ v) : first = second ∧ u = v := by
  have sameOperator : first = second := by
    have read := ofSign?_signOf firstBinary u
    rw [same, ofSign?_signOf secondBinary v] at read
    exact (Option.some.inj read).symm
  rw [sameOperator, List.append_cancel_left_eq] at same
  exact ⟨sameOperator, same⟩

/-- Nothing, or a text that starts with a closing parenthesis. -/
abbrev Closes (rest : List Char) : Prop :=
  Text.Halts (· != ')') rest

theorem Closes.ends {rest : List Char} (closes : Closes rest) : Ends rest := by
  intro c first
  have isClosing : c = ')' := by simpa using closes c first
  subst isClosing
  rfl

theorem Closes.ne_sign {rest : List Char} (closes : Closes rest) {op : Operator}
    (binary : op.isBinary = true) (behind : List Char) : rest ≠ signOf op ++ behind := by
  intro same
  have read := ofSign?_signOf binary behind
  rw [← same] at read
  rcases Option.bind_eq_some_iff.mp read with ⟨c, first, isSign⟩
  have isClosing : c = ')' := by simpa using closes c first
  subst isClosing
  cases isSign

/-- A row of operands that stand in it as wholes, with an operator between any two. -/
structure Row.Sound (row : Row) : Prop where
  balanced : row.operands.length = row.operators.length + 1
  operands : forall operand, operand ∈ row.operands -> operand.Fine
  operators : forall op, op ∈ row.operators -> op.isBinary = true

theorem Row.Sound.tail {first : Operand} {op : Operator} {operands : List Operand}
    {operators : List Operator} (sound : Row.Sound ⟨first :: operands, op :: operators⟩) :
    Row.Sound ⟨operands, operators⟩ where
  balanced := by simpa using sound.balanced
  operands operand member := sound.operands operand (List.mem_cons_of_mem _ member)
  operators other member := sound.operators other (List.mem_cons_of_mem _ member)

theorem row_eq {front back : List Operand} {first second : List Operator}
    (frontSound : Row.Sound ⟨front, first⟩) (backSound : Row.Sound ⟨back, second⟩)
    (separates : forall operand, operand ∈ front -> operand.subject.Separates)
    {u v : List Char} (uCloses : Closes u) (vCloses : Closes v)
    (same : rowChars front first ++ u = rowChars back second ++ v) :
    front = back ∧ first = second ∧ u = v := by
  induction front generalizing first back second with
  | nil => exact absurd frontSound.balanced (by simp)
  | cons operand front inductionHypothesis =>
      cases back with
      | nil => exact absurd backSound.balanced (by simp)
      | cons other back =>
          have fine := frontSound.operands operand List.mem_cons_self
          have otherFine := backSound.operands other List.mem_cons_self
          have separated := separates operand List.mem_cons_self
          cases first with
          | nil =>
              have alone : front = [] := by simpa using frontSound.balanced
              subst alone
              cases second with
              | nil =>
                  have otherAlone : back = [] := by simpa using backSound.balanced
                  subst otherAlone
                  rcases operand_eq fine otherFine separated uCloses.ends vCloses.ends same with
                    ⟨rfl, rfl⟩
                  exact ⟨rfl, rfl, rfl⟩
              | cons op second =>
                  have binary := backSound.operators op List.mem_cons_self
                  rw [rowChars, rowChars, List.append_assoc, List.append_assoc] at same
                  have sameRest := (operand_eq fine otherFine separated uCloses.ends
                    (ends_signOf binary _) same).2
                  exact absurd sameRest (uCloses.ne_sign binary _)
          | cons op first =>
              have binary := frontSound.operators op List.mem_cons_self
              cases second with
              | nil =>
                  have otherAlone : back = [] := by simpa using backSound.balanced
                  subst otherAlone
                  rw [rowChars, rowChars, List.append_assoc, List.append_assoc] at same
                  have sameRest := (operand_eq fine otherFine separated (ends_signOf binary _)
                    vCloses.ends same).2
                  exact absurd sameRest.symm (vCloses.ne_sign binary _)
              | cons otherOp second =>
                  have otherBinary := backSound.operators otherOp List.mem_cons_self
                  rw [rowChars, rowChars, List.append_assoc, List.append_assoc, List.append_assoc,
                    List.append_assoc] at same
                  rcases operand_eq fine otherFine separated (ends_signOf binary _)
                    (ends_signOf otherBinary _) same with ⟨rfl, sameRest⟩
                  rcases sign_eq binary otherBinary sameRest with ⟨rfl, sameRow⟩
                  rcases inductionHypothesis frontSound.tail backSound.tail
                    (fun later member => separates later (List.mem_cons_of_mem _ member))
                    sameRow with ⟨rfl, rfl, rfl⟩
                  exact ⟨rfl, rfl, rfl⟩

theorem Piece.sound {e : Expr} {row : Row} (piece : Piece e row) (integral : e.Integral)
    (settled : e.Settled) : row.Sound := by
  refine ⟨piece.balanced, ?_, ?_⟩
  · intro operand member
    cases piece with
    | pair first second =>
        rcases legible_binary_iff.mp integral with ⟨_, leftIntegral, rightIntegral⟩
        rcases settled with ⟨_, leftSettled, rightSettled⟩
        rcases List.mem_pair.mp member with rfl | rfl
        · exact ⟨leftIntegral, leftSettled, .inl first⟩
        · exact ⟨rightIntegral, rightSettled, .inl second⟩
    | negated atom =>
        rcases legible_unary_iff.mp integral with ⟨_, operandIntegral⟩
        cases List.mem_singleton.mp member
        exact ⟨operandIntegral, settled.2, .inl atom⟩
    | single subject =>
        cases List.mem_singleton.mp member
        exact ⟨integral, settled, subject⟩
  · intro op member
    cases piece with
    | pair first second =>
        cases List.mem_singleton.mp member
        exact (legible_binary_iff.mp integral).1
    | negated => cases member
    | single => cases member

theorem length_negateFirst (operands : List Operand) :
    (negateFirst operands).length = operands.length := by
  cases operands <;> rfl

theorem exists_of_mem_negateFirst {operands : List Operand} {operand : Operand}
    (member : operand ∈ negateFirst operands) :
    ∃ original, original ∈ operands ∧ operand.subject = original.subject := by
  cases operands with
  | nil => cases member
  | cons first rest =>
      rcases List.mem_cons.mp member with rfl | later
      · exact ⟨first, List.mem_cons_self, rfl⟩
      · exact ⟨operand, List.mem_cons_of_mem _ later, rfl⟩

theorem line_sound {e : Expr} (integral : e.Integral) (settled : e.Settled) : e.line.Sound := by
  cases e with
  | hole | var | const | truth => exact (piece_spec integral).sound integral settled
  | binary op left right =>
      rcases legible_binary_iff.mp integral with ⟨binary, leftIntegral, rightIntegral⟩
      have leftSound := (piece_spec leftIntegral).sound leftIntegral settled.2.1
      have rightSound := (piece_spec rightIntegral).sound rightIntegral settled.2.2
      refine ⟨?_, ?_, ?_⟩
      · simp only [line, List.length_append, List.length_cons, leftSound.balanced,
          rightSound.balanced]
        omega
      · intro operand member
        rcases List.mem_append.mp member with ofLeft | ofRight
        · exact leftSound.operands operand ofLeft
        · exact rightSound.operands operand ofRight
      · intro other member
        rcases List.mem_append.mp member with ofLeft | atOrRight
        · exact leftSound.operators other ofLeft
        · rcases List.mem_cons.mp atOrRight with rfl | ofRight
          · exact binary
          · exact rightSound.operators other ofRight
  | unary op operand =>
      rcases legible_unary_iff.mp integral with ⟨_, operandIntegral⟩
      have sound := (piece_spec operandIntegral).sound operandIntegral settled.2
      refine ⟨(length_negateFirst _).trans sound.balanced, ?_, sound.operators⟩
      intro negated member
      rcases exists_of_mem_negateFirst member with ⟨original, isOperand, sameSubject⟩
      have fine := sound.operands original isOperand
      exact ⟨sameSubject ▸ fine.integral, sameSubject ▸ fine.settled, sameSubject ▸ fine.subject⟩

theorem Piece.separates {e : Expr} {row : Row} (piece : Piece e row) (integral : e.Integral)
    (whole : e.IsSubject -> e.Separates) :
    forall operand, operand ∈ row.operands -> operand.subject.Separates := by
  intro operand member
  cases piece with
  | pair first second =>
      rcases legible_binary_iff.mp integral with ⟨_, leftIntegral, rightIntegral⟩
      rcases List.mem_pair.mp member with rfl | rfl
      · exact separates_atom leftIntegral first
      · exact separates_atom rightIntegral second
  | negated atom =>
      rcases legible_unary_iff.mp integral with ⟨_, operandIntegral⟩
      cases List.mem_singleton.mp member
      exact separates_atom operandIntegral atom
  | single subject =>
      cases List.mem_singleton.mp member
      exact whole subject

/-- What is in parentheses is separated from others if the operands of its row are. -/
theorem separates_of_line {e : Expr} (integral : e.Integral) (settled : e.Settled)
    (tall : e.isBare = false)
    (separates : forall operand, operand ∈ e.line.operands -> operand.subject.Separates) :
    e.Separates := by
  intro other otherIntegral otherSettled subject u v _ _ same
  rw [layout_eq_line integral tall] at same
  rcases subject with atom | otherTall
  · rcases IsSubject.exists_cons otherIntegral (.inl atom) with ⟨c, rest, chars, _, notParen⟩
    rw [chars] at same
    exact absurd (List.cons.inj same).1.symm (notParen atom)
  · have sameRow : rowChars e.line.operands e.line.operators ++ ')' :: u =
        rowChars other.line.operands other.line.operators ++ ')' :: v := by
      rw [layout_eq_line otherIntegral otherTall] at same
      simpa using same
    have closes : forall rest, Closes (')' :: rest) := by
      intro rest c first
      cases first
      rfl
    rcases row_eq (line_sound integral settled) (line_sound otherIntegral otherSettled) separates
      (closes u) (closes v) sameRow with ⟨sameOperands, sameOperators, sameRest⟩
    have sameLine : e.line = other.line := Row.ext sameOperands sameOperators
    refine ⟨?_, (List.cons.inj sameRest).2⟩
    rw [← ofRow_line integral settled tall, sameLine, ofRow_line otherIntegral otherSettled otherTall]

theorem separates_subject {e : Expr} (integral : e.Integral) (settled : e.Settled)
    (subject : e.IsSubject) : e.Separates := by
  induction e with
  | hole | var | const | truth => exact separates_atom integral rfl
  | binary op left right leftHypothesis rightHypothesis =>
      rcases legible_binary_iff.mp integral with ⟨_, leftIntegral, rightIntegral⟩
      apply separates_of_line integral settled (subject.resolve_left (by simp))
      intro operand member
      rcases List.mem_append.mp member with ofLeft | ofRight
      · exact (piece_spec leftIntegral).separates leftIntegral
          (leftHypothesis leftIntegral settled.2.1) operand ofLeft
      · exact (piece_spec rightIntegral).separates rightIntegral
          (rightHypothesis rightIntegral settled.2.2) operand ofRight
  | unary op operand inductionHypothesis =>
      rcases legible_unary_iff.mp integral with ⟨_, operandIntegral⟩
      apply separates_of_line integral settled (subject.resolve_left (by simp))
      intro negated member
      rcases exists_of_mem_negateFirst member with ⟨original, isOperand, sameSubject⟩
      rw [sameSubject]
      exact (piece_spec operandIntegral).separates operandIntegral
        (inductionHypothesis operandIntegral settled.2) original isOperand

/-- Settled assertions with the same layout are equal. -/
theorem eq_of_layout_eq {a b : Expr} (aIntegral : a.Integral) (bIntegral : b.Integral)
    (aSettled : a.Settled) (bSettled : b.Settled)
    (same : a.layout signOf = b.layout signOf) : a = b := by
  have aPiece := piece_spec aIntegral
  have bPiece := piece_spec bIntegral
  have sameRow : rowChars a.piece.operands a.piece.operators ++ [] =
      rowChars b.piece.operands b.piece.operators ++ [] := by
    rw [← aPiece.layout_eq, ← bPiece.layout_eq, same]
  have separates := aPiece.separates aIntegral (separates_subject aIntegral aSettled)
  rcases row_eq (aPiece.sound aIntegral aSettled) (bPiece.sound bIntegral bSettled) separates
    (Text.halts_nil _) (Text.halts_nil _) sameRow with ⟨sameOperands, sameOperators, _⟩
  have samePiece : a.piece = b.piece := Row.ext sameOperands sameOperators
  rw [← aPiece.ofRow_eq, samePiece, bPiece.ofRow_eq]

/-- The normal forms of two assertions are equal exactly when the assertions are equal as soon
as one grouping has been chosen in both. -/
theorem normalizedText_eq_iff {a b : Expr} (aIntegral : a.Integral) (bIntegral : b.Integral)
    (aWordless : a.WordlessNames) (bWordless : b.WordlessNames) :
    normalizedText a.human = normalizedText b.human ↔ a.regrouped = b.regrouped := by
  constructor
  · intro same
    have sameLayout := layout_eq_of_normalizedText_eq aIntegral bIntegral aWordless bWordless same
    apply eq_of_layout_eq (integral_regrouped aIntegral) (integral_regrouped bIntegral)
      (settled_regrouped a) (settled_regrouped b)
    rw [layout_regrouped, layout_regrouped, sameLayout]
  · intro same
    rw [normalizedText_human aIntegral, normalizedText_human bIntegral,
      ← layout_regrouped wordOf a, ← layout_regrouped wordOf b, same]

end Expr
end HoareProof
