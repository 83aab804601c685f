import HoareProof.Expr.Reader
import HoareProof.Proofs.Parsers

namespace HoareProof
namespace Expr
namespace InfixForm

open Parsing

/-!
The grammar of the infix form.  The grammar says which tokens derive which assertion,
level by level and with left recursion, as one would write it down; the parser walks
over the tokens once and never goes back.  They agree: what the parser reads, the
grammar derives, and what the grammar derives, the parser reads, provided that the
token behind it cannot continue it.
-/

/-- The levels of the grammar, from the tightest to the loosest. -/
inductive Level where
  | atom | product | sum | comparison | negation | conjunction | disjunction
deriving DecidableEq, Repr

/-- The signs between two operands: the level at which they join them, the kind of their
token, and the operator they mean. -/
inductive Sign : Level -> TokenKind -> Operator -> Prop where
  | star : Sign .product .star .mul
  | plus : Sign .sum .plus .add
  | minus : Sign .sum .minus .sub
  | equal : Sign .comparison .equal .equal
  | less : Sign .comparison .less .less
  | greater : Sign .comparison .greater .greater
  | atMost : Sign .comparison .atMost .atMost
  | atLeast : Sign .comparison .atLeast .atLeast
  | and : Sign .conjunction .and .and
  | or : Sign .disjunction .or .or

/-- The tokens that derive an assertion at a level. -/
inductive Derives : Level -> List Token -> Expr -> Prop where
  | number {token : Token} {value : Number} (denotes : Denotes token value) :
      Derives .atom [token] (.const value)
  | negativeNumber {sign token : Token} {value : Number} (minus : sign.kind = .minus)
      (denotes : Denotes token value) : Derives .atom [sign, token] (.const value.neg)
  | truth {token : Token} (kind : token.kind = .trueWord) : Derives .atom [token] (.truth true)
  | falsehood {token : Token} (kind : token.kind = .falseWord) :
      Derives .atom [token] (.truth false)
  | name {token : Token} (kind : token.kind = .name) : Derives .atom [token] (.var token.text)
  | group {opening closing : Token} {tokens : List Token} {e : Expr}
      (opens : opening.kind = .openParen) (closes : closing.kind = .closeParen)
      (inner : Derives .disjunction tokens e) :
      Derives .atom (opening :: (tokens ++ [closing])) e
  | ofAtom {tokens : List Token} {e : Expr} (inner : Derives .atom tokens e) :
      Derives .product tokens e
  | multiply {token : Token} {op : Operator} {first second : List Token} {left right : Expr}
      (sign : Sign .product token.kind op) (leftDerives : Derives .product first left)
      (rightDerives : Derives .atom second right) :
      Derives .product (first ++ token :: second) (.binary op left right)
  | ofProduct {tokens : List Token} {e : Expr} (inner : Derives .product tokens e) :
      Derives .sum tokens e
  | add {token : Token} {op : Operator} {first second : List Token} {left right : Expr}
      (sign : Sign .sum token.kind op) (leftDerives : Derives .sum first left)
      (rightDerives : Derives .product second right) :
      Derives .sum (first ++ token :: second) (.binary op left right)
  | ofSum {tokens : List Token} {e : Expr} (inner : Derives .sum tokens e) :
      Derives .comparison tokens e
  | compare {token : Token} {op : Operator} {first second : List Token} {left right : Expr}
      (sign : Sign .comparison token.kind op) (leftDerives : Derives .sum first left)
      (rightDerives : Derives .sum second right) :
      Derives .comparison (first ++ token :: second) (.binary op left right)
  | ofComparison {tokens : List Token} {e : Expr} (inner : Derives .comparison tokens e) :
      Derives .negation tokens e
  | negate {token : Token} {tokens : List Token} {e : Expr} (kind : token.kind = .not)
      (inner : Derives .negation tokens e) : Derives .negation (token :: tokens) (.negate e)
  | ofNegation {tokens : List Token} {e : Expr} (inner : Derives .negation tokens e) :
      Derives .conjunction tokens e
  | conjoin {token : Token} {op : Operator} {first second : List Token} {left right : Expr}
      (sign : Sign .conjunction token.kind op)
      (leftDerives : Derives .conjunction first left)
      (rightDerives : Derives .negation second right) :
      Derives .conjunction (first ++ token :: second) (.binary op left right)
  | ofConjunction {tokens : List Token} {e : Expr} (inner : Derives .conjunction tokens e) :
      Derives .disjunction tokens e
  | disjoin {token : Token} {op : Operator} {first second : List Token} {left right : Expr}
      (sign : Sign .disjunction token.kind op)
      (leftDerives : Derives .disjunction first left)
      (rightDerives : Derives .conjunction second right) :
      Derives .disjunction (first ++ token :: second) (.binary op left right)

/-- The operators that the parser looks for at a level. -/
def Level.operator? : Level -> TokenKind -> Option Operator
  | .product => productOperator?
  | .sum => sumOperator?
  | .comparison => comparison?
  | .conjunction => conjunctionOperator?
  | .disjunction => disjunctionOperator?
  | _ => fun _ => none

theorem Sign.operator? {level : Level} {kind : TokenKind} {op : Operator}
    (sign : Sign level kind op) : level.operator? kind = some op := by
  cases sign <;> rfl

theorem sign_of_operator? (level : Level) {kind : TokenKind} {op : Operator}
    (isOperator : level.operator? kind = some op) : Sign level kind op := by
  cases level <;> cases kind <;> cases isOperator <;> constructor

/-! ## What the parser reads is derived -/

/-- A parser that reads only what the grammar derives at a level, and leaves the rest
of the tokens as they are. -/
def Sound (parser : Parser Expr) (level : Level) : Prop :=
  forall tokens e rest, parser tokens = .ok (e, rest) ->
    ∃ used, tokens = used ++ rest ∧ Derives level used e

theorem Sound.length_le {parser : Parser Expr} {level : Level} (sound : Sound parser level)
    {tokens rest : List Token} {e : Expr} (read : parser tokens = .ok (e, rest)) :
    rest.length ≤ tokens.length := by
  obtain ⟨used, rfl, _⟩ := sound tokens e rest read
  simp

section

variable {operand : Parser Expr} {operator? : TokenKind -> Option Operator} {next level : Level}

/-- The operators of a level join what has been derived at it with one more operand. -/
def Joins (operator? : TokenKind -> Option Operator) (next level : Level) : Prop :=
  forall {token op first second left right}, operator? token.kind = some op ->
    Derives level first left -> Derives next second right ->
      Derives level (first ++ token :: second) (.binary op left right)

theorem chainFrom_sound (sound : Sound operand next) (joins : Joins operator? next level)
    (bound : Nat) : forall (left : Expr) (used tokens : List Token) (e : Expr) (rest : List Token),
      Derives level used left -> chainFrom operand operator? bound left tokens = .ok (e, rest) ->
        ∃ more, tokens = more ++ rest ∧ Derives level (used ++ more) e := by
  induction bound with
  | zero =>
      intro left used tokens e rest derives read
      cases read
      exact ⟨[], rfl, by rwa [List.append_nil]⟩
  | succ bound inductionHypothesis =>
      intro left used tokens e rest derives read
      cases tokens with
      | nil =>
          cases read
          exact ⟨[], rfl, by rwa [List.append_nil]⟩
      | cons token tokens =>
          simp only [chainFrom] at read
          split at read
          · cases read
            exact ⟨[], rfl, by rwa [List.append_nil]⟩
          next op isOperator =>
            split at read
            · cases read
            next right afterRight readRight =>
              obtain ⟨second, rfl, rightDerives⟩ := sound _ _ _ readRight
              have joined := joins isOperator derives rightDerives
              obtain ⟨more, rfl, moreDerives⟩ := inductionHypothesis _ _ _ _ _ joined read
              refine ⟨token :: (second ++ more), ?_, ?_⟩
              · simp
              · simpa using moreDerives

theorem chain_sound (sound : Sound operand next) (joins : Joins operator? next level)
    (includes : forall tokens e, Derives next tokens e -> Derives level tokens e) :
    Sound (chain operand operator?) level := by
  intro tokens e rest read
  simp only [chain] at read
  split at read
  · cases read
  next left afterLeft readLeft =>
    obtain ⟨used, rfl, leftDerives⟩ := sound _ _ _ readLeft
    obtain ⟨more, rfl, derives⟩ :=
      chainFrom_sound sound joins _ _ _ _ _ _ (includes _ _ leftDerives) read
    exact ⟨used ++ more, (List.append_assoc _ _ _).symm, derives⟩

end

section

variable {atomParser : Parser Expr}

theorem product_sound (sound : Sound atomParser .atom) : Sound (product atomParser) .product :=
  chain_sound sound (fun isOperator => .multiply (sign_of_operator? .product isOperator))
    fun _ _ => .ofAtom

theorem sum_sound (sound : Sound atomParser .atom) : Sound (sum atomParser) .sum :=
  chain_sound (product_sound sound) (fun isOperator => .add (sign_of_operator? .sum isOperator))
    fun _ _ => .ofProduct

theorem comparison_sound (sound : Sound atomParser .atom) :
    Sound (comparison atomParser) .comparison := by
  intro tokens e rest read
  simp only [comparison] at read
  split at read
  · cases read
  next left readLeft =>
    cases read
    obtain ⟨used, rfl, leftDerives⟩ := sum_sound sound _ _ _ readLeft
    exact ⟨used, rfl, .ofSum leftDerives⟩
  next left token afterLeft readLeft =>
    obtain ⟨first, rfl, leftDerives⟩ := sum_sound sound _ _ _ readLeft
    split at read
    · cases read
      exact ⟨first, rfl, .ofSum leftDerives⟩
    next op isComparison =>
      split at read
      · cases read
      next right afterRight readRight =>
        cases read
        obtain ⟨second, rfl, rightDerives⟩ := sum_sound sound _ _ _ readRight
        have sign := sign_of_operator? .comparison isComparison
        exact ⟨first ++ token :: second, by simp, .compare sign leftDerives rightDerives⟩

theorem negation_sound (sound : Sound atomParser .atom) :
    Sound (negation atomParser) .negation := by
  intro tokens
  induction tokens with
  | nil =>
      intro e rest read
      obtain ⟨used, split, derives⟩ := comparison_sound sound _ _ _ read
      exact ⟨used, split, .ofComparison derives⟩
  | cons token tokens inductionHypothesis =>
      intro e rest read
      simp only [negation] at read
      split at read
      next kind =>
        split at read
        · cases read
        next operand afterOperand readOperand =>
          cases read
          obtain ⟨used, rfl, derives⟩ := inductionHypothesis _ _ readOperand
          exact ⟨token :: used, rfl, .negate kind derives⟩
      · obtain ⟨used, split, derives⟩ := comparison_sound sound _ _ _ read
        exact ⟨used, split, .ofComparison derives⟩

theorem conjunction_sound (sound : Sound atomParser .atom) :
    Sound (conjunction atomParser) .conjunction :=
  chain_sound (negation_sound sound)
    (fun isOperator => .conjoin (sign_of_operator? .conjunction isOperator)) fun _ _ => .ofNegation

theorem disjunction_sound (sound : Sound atomParser .atom) :
    Sound (disjunction atomParser) .disjunction :=
  chain_sound (conjunction_sound sound)
    (fun isOperator => .disjoin (sign_of_operator? .disjunction isOperator))
    fun _ _ => .ofConjunction

end

theorem negativeNumber_sound {sign : Token} (minus : sign.kind = .minus) {tokens rest : List Token}
    {e : Expr} (read : negativeNumber tokens = .ok (e, rest)) :
    ∃ used, sign :: tokens = used ++ rest ∧ Derives .atom used e := by
  cases tokens with
  | nil => cases read
  | cons token tokens =>
      simp only [negativeNumber] at read
      split at read
      next kind =>
        obtain ⟨value, reads, result⟩ := bind_eq_ok_iff.mp read
        cases result
        exact ⟨[sign, token], rfl, .negativeNumber minus (.whole kind reads)⟩
      next kind =>
        obtain ⟨value, reads, result⟩ := bind_eq_ok_iff.mp read
        cases result
        exact ⟨[sign, token], rfl, .negativeNumber minus (.decimal kind reads)⟩
      · cases read

theorem atom_sound (bound : Nat) : Sound (atom bound) .atom := by
  induction bound with
  | zero =>
      intro tokens e rest read
      cases read
  | succ bound inductionHypothesis =>
      intro tokens e rest read
      cases tokens with
      | nil => cases read
      | cons token tokens =>
          simp only [atom] at read
          split at read
          next kind =>
            obtain ⟨value, reads, result⟩ := bind_eq_ok_iff.mp read
            cases result
            exact ⟨[token], rfl, .number (.whole kind reads)⟩
          next kind =>
            obtain ⟨value, reads, result⟩ := bind_eq_ok_iff.mp read
            cases result
            exact ⟨[token], rfl, .number (.decimal kind reads)⟩
          next kind => exact negativeNumber_sound kind read
          next kind =>
            cases read
            exact ⟨[token], rfl, .truth kind⟩
          next kind =>
            cases read
            exact ⟨[token], rfl, .falsehood kind⟩
          next kind =>
            cases read
            exact ⟨[token], rfl, .name kind⟩
          next opens =>
            obtain ⟨⟨inner, afterInner⟩, readInner, readClosing⟩ := bind_eq_ok_iff.mp read
            obtain ⟨afterClosing, isClosing, result⟩ := bind_eq_ok_iff.mp readClosing
            obtain ⟨closing, rfl, closes⟩ := expect_eq_ok_iff.mp isClosing
            cases result
            obtain ⟨used, rfl, derives⟩ := disjunction_sound inductionHypothesis _ _ _ readInner
            exact ⟨token :: (used ++ [closing]), by simp, .group opens closes derives⟩
          · cases read

/-! ## What is derived is read -/

/-- The place of a level in the order of the levels. -/
def Level.rank : Level -> Nat
  | .atom => 0
  | .product => 1
  | .sum => 2
  | .comparison => 3
  | .negation => 4
  | .conjunction => 5
  | .disjunction => 6

/-- The level at which a token of a kind joins two operands. -/
def joined? : TokenKind -> Option Level
  | .star => some .product
  | .plus => some .sum
  | .minus => some .sum
  | .equal => some .comparison
  | .less => some .comparison
  | .greater => some .comparison
  | .atMost => some .comparison
  | .atLeast => some .comparison
  | .and => some .conjunction
  | .or => some .disjunction
  | _ => none

/-- The tokens behind an assertion of a level cannot continue it: the first of them
joins no operands, or does so at a looser level only. -/
def Level.Stops (level : Level) (rest : List Token) : Prop :=
  forall token, rest.head? = some token -> forall joined, joined? token.kind = some joined ->
    level.rank < joined.rank

theorem Level.Stops.mono {tight loose : Level} (order : tight.rank ≤ loose.rank)
    {rest : List Token} (stops : loose.Stops rest) : tight.Stops rest := by
  intro token first joined joins
  exact Nat.lt_of_le_of_lt order (stops token first joined joins)

theorem Level.stops_nil (level : Level) : level.Stops [] := by
  intro token first
  cases first

theorem Level.stops_of_joined?_eq_none (level : Level) {token : Token} {rest : List Token}
    (noOperator : joined? token.kind = none) : level.Stops (token :: rest) := by
  intro first isFirst joined joins
  cases isFirst
  rw [noOperator] at joins
  cases joins

theorem joined?_of_operator? {level : Level} {kind : TokenKind} {op : Operator}
    (isOperator : level.operator? kind = some op) : joined? kind = some level := by
  cases sign_of_operator? level isOperator <;> rfl

theorem Level.Stops.operator? {level : Level} {rest : List Token} (stops : level.Stops rest)
    {token : Token} (first : rest.head? = some token) : level.operator? token.kind = none := by
  cases isOperator : level.operator? token.kind with
  | none => rfl
  | some op =>
      have later := stops token first level (joined?_of_operator? isOperator)
      exact absurd later (Nat.lt_irrefl _)

/-- An operator of a level stops every tighter one. -/
theorem Level.stops_of_operator? {tight : Level} (level : Level) (order : tight.rank < level.rank)
    {token : Token} {op : Operator} (isOperator : level.operator? token.kind = some op)
    (rest : List Token) : tight.Stops (token :: rest) := by
  intro first isFirst joined joins
  cases isFirst
  rw [joined?_of_operator? isOperator] at joins
  cases joins
  exact order

/-- The parser of a level, given the parser of atoms. -/
def Level.parser : Level -> Parser Expr -> Parser Expr
  | .atom, atomParser => atomParser
  | .product, atomParser => InfixForm.product atomParser
  | .sum, atomParser => InfixForm.sum atomParser
  | .comparison, atomParser => InfixForm.comparison atomParser
  | .negation, atomParser => InfixForm.negation atomParser
  | .conjunction, atomParser => InfixForm.conjunction atomParser
  | .disjunction, atomParser => InfixForm.disjunction atomParser

theorem Level.parser_sound {atomParser : Parser Expr} (sound : Sound atomParser .atom)
    (level : Level) : Sound (level.parser atomParser) level := by
  cases level
  · exact sound
  · exact product_sound sound
  · exact sum_sound sound
  · exact comparison_sound sound
  · exact negation_sound sound
  · exact conjunction_sound sound
  · exact disjunction_sound sound

/-- The level of the operands that a level chains; a level that chains nothing is its
own. -/
def Level.operand : Level -> Level
  | .product => .atom
  | .sum => .product
  | .conjunction => .negation
  | .disjunction => .conjunction
  | level => level

/-- What the parser of a level does with the tokens behind an assertion it has read:
it looks for another operator, if the level chains operands. -/
def Level.resume (level : Level) (atomParser : Parser Expr) (e : Expr) : Parser Expr :=
  fun rest =>
    if level.operand.rank < level.rank then
      chainFrom (level.operand.parser atomParser) level.operator? rest.length e rest
    else .ok (e, rest)

theorem Level.parser_eq_chain {level : Level} (chains : level.operand.rank < level.rank)
    (atomParser : Parser Expr) :
    level.parser atomParser = chain (level.operand.parser atomParser) level.operator? := by
  cases level <;> first | rfl | exact absurd chains (Nat.lt_irrefl _)

section

variable {operand : Parser Expr} {operator? : TokenKind -> Option Operator} {next : Level}

/-- A bound that counts at least the tokens does not matter. -/
theorem chainFrom_bound (sound : Sound operand next) (bound : Nat) :
    forall (left : Expr) (tokens : List Token), tokens.length ≤ bound ->
      chainFrom operand operator? bound left tokens =
        chainFrom operand operator? tokens.length left tokens := by
  induction bound using Nat.strongRecOn with
  | ind bound inductionHypothesis =>
      intro left tokens enough
      cases tokens with
      | nil => cases bound <;> rfl
      | cons token tokens =>
          cases bound with
          | zero => cases enough
          | succ bound =>
              simp only [List.length_cons, chainFrom]
              split
              · rfl
              · split
                · rfl
                next op _ right rest readRight =>
                  have shorter := sound.length_le readRight
                  have within : tokens.length ≤ bound := Nat.le_of_succ_le_succ enough
                  rw [inductionHypothesis bound (Nat.lt_succ_self _) _ _ (by omega),
                    inductionHypothesis tokens.length (by omega) _ _ shorter]

theorem chainFrom_stop {bound : Nat} {left : Expr} {rest : List Token}
    (stops : forall token, rest.head? = some token -> operator? token.kind = none) :
    chainFrom operand operator? bound left rest = .ok (left, rest) := by
  cases bound with
  | zero => rfl
  | succ bound =>
      cases rest with
      | nil => rfl
      | cons token rest => simp only [chainFrom, stops token rfl]

theorem chain_of_operand {tokens rest : List Token} {e : Expr}
    (read : operand tokens = .ok (e, rest)) :
    chain operand operator? tokens = chainFrom operand operator? rest.length e rest := by
  simp only [chain, read]

/-- A chain that has come to an operator goes on behind the operand after it. -/
theorem chainFrom_join (sound : Sound operand next) {token : Token} {op : Operator}
    (isOperator : operator? token.kind = some op) {second rest : List Token} {left right : Expr}
    (readRight : operand (second ++ rest) = .ok (right, rest)) :
    chainFrom operand operator? (token :: (second ++ rest)).length left
        (token :: (second ++ rest)) =
      chainFrom operand operator? rest.length (.binary op left right) rest := by
  simp only [List.length_cons, chainFrom, isOperator, readRight]
  exact chainFrom_bound sound _ _ _ (sound.length_le readRight)

end

theorem Level.resume_stop {level : Level} {rest : List Token} (stops : level.Stops rest)
    (atomParser : Parser Expr) (e : Expr) : level.resume atomParser e rest = .ok (e, rest) := by
  unfold Level.resume
  split
  · exact chainFrom_stop fun token first => stops.operator? first
  · rfl

/-- The parser of a level gets past tokens and holds an assertion then, if the tokens
behind them cannot continue its last operand. -/
def Reads (level : Level) (tokens : List Token) (e : Expr) : Prop :=
  forall bound rest, tokens.length ≤ bound -> level.operand.Stops rest ->
    level.parser (atom bound) (tokens ++ rest) = level.resume (atom bound) e rest

theorem Level.operand_rank_le (level : Level) : level.operand.rank ≤ level.rank := by
  cases level <;> decide

section

variable {level : Level} {tokens first second : List Token} {e left right : Expr}

theorem Reads.complete (reads : Reads level tokens e) {bound : Nat} {rest : List Token}
    (enough : tokens.length ≤ bound) (stops : level.Stops rest) :
    level.parser (atom bound) (tokens ++ rest) = .ok (e, rest) := by
  rw [reads bound rest enough (stops.mono level.operand_rank_le), level.resume_stop stops]

/-- What the tighter level reads, a chain of a single operand reads. -/
theorem Reads.single (chains : level.operand.rank < level.rank)
    (reads : Reads level.operand tokens e) : Reads level tokens e := by
  intro bound rest enough stops
  rw [Level.parser_eq_chain chains, chain_of_operand (reads.complete enough stops), Level.resume,
    if_pos chains]

theorem Reads.join (chains : level.operand.rank < level.rank) {token : Token} {op : Operator}
    (isOperator : level.operator? token.kind = some op) (readsLeft : Reads level first left)
    (readsRight : Reads level.operand second right) :
    Reads level (first ++ token :: second) (.binary op left right) := by
  intro bound rest enough stops
  rw [List.length_append, List.length_cons] at enough
  have operandSound := level.operand.parser_sound (atom_sound bound)
  have untilOperator := readsLeft bound (token :: (second ++ rest)) (by omega)
    (Level.stops_of_operator? level chains isOperator _)
  -- The left operand ends at the operator, where the chain of this level resumes.
  rw [List.append_assoc, List.cons_append, untilOperator, Level.resume, if_pos chains,
    Level.resume, if_pos chains]
  exact chainFrom_join operandSound isOperator (readsRight.complete (by omega) stops)

theorem Reads.ofSum (reads : Reads .sum tokens e) : Reads .comparison tokens e := by
  intro bound rest enough stops
  have readSum : sum (atom bound) (tokens ++ rest) = .ok (e, rest) :=
    reads.complete enough (stops.mono (by decide))
  change comparison (atom bound) (tokens ++ rest) = .ok (e, rest)
  simp only [comparison, readSum]
  cases rest with
  | nil => rfl
  | cons token rest =>
      have noComparison : comparison? token.kind = none := stops.operator? rfl
      simp only [noComparison]

theorem Reads.compare {token : Token} {op : Operator}
    (isComparison : comparison? token.kind = some op) (readsLeft : Reads .sum first left)
    (readsRight : Reads .sum second right) :
    Reads .comparison (first ++ token :: second) (.binary op left right) := by
  intro bound rest enough stops
  rw [List.length_append, List.length_cons] at enough
  have readLeft : sum (atom bound) (first ++ token :: (second ++ rest)) =
      .ok (left, token :: (second ++ rest)) :=
    readsLeft.complete (by omega) (Level.stops_of_operator? .comparison (by decide) isComparison _)
  have readRight : sum (atom bound) (second ++ rest) = .ok (right, rest) :=
    readsRight.complete (by omega) (stops.mono (by decide))
  change comparison (atom bound) (first ++ token :: second ++ rest) = .ok (_, rest)
  simp only [comparison, List.append_assoc, List.cons_append, readLeft, isComparison, readRight]

theorem Reads.ofComparison (starts : ∃ token more, tokens = token :: more ∧ token.kind ≠ .not)
    (reads : Reads .comparison tokens e) : Reads .negation tokens e := by
  intro bound rest enough stops
  have readComparison : comparison (atom bound) (tokens ++ rest) = .ok (e, rest) :=
    reads.complete enough (stops.mono (by decide))
  change negation (atom bound) (tokens ++ rest) = .ok (e, rest)
  obtain ⟨token, more, rfl, notNot⟩ := starts
  rw [List.cons_append] at readComparison ⊢
  rw [negation, if_neg notNot, readComparison]

theorem Reads.negate {token : Token} (kind : token.kind = .not) (reads : Reads .negation tokens e) :
    Reads .negation (token :: tokens) (.negate e) := by
  intro bound rest enough stops
  have readOperand : negation (atom bound) (tokens ++ rest) = .ok (e, rest) :=
    reads.complete (Nat.le_of_succ_le enough) stops
  change negation (atom bound) (token :: (tokens ++ rest)) = .ok (_, rest)
  rw [negation, if_pos kind, readOperand]

/-- An atom is read whatever stands behind it. -/
theorem reads_atom (nonempty : tokens ≠ [])
    (reads : forall bound rest, tokens.length ≤ bound + 1 ->
      atom (bound + 1) (tokens ++ rest) = .ok (e, rest)) : Reads .atom tokens e := by
  intro bound rest enough _
  cases bound with
  | zero => exact absurd (List.eq_nil_of_length_eq_zero (Nat.le_zero.mp enough)) nonempty
  | succ bound => exact reads bound rest enough

theorem Reads.group {opening closing : Token} (opens : opening.kind = .openParen)
    (closes : closing.kind = .closeParen) (reads : Reads .disjunction tokens e) :
    Reads .atom (opening :: (tokens ++ [closing])) e := by
  apply reads_atom (List.cons_ne_nil _ _)
  intro bound rest enough
  simp only [List.length_cons, List.length_append, List.length_nil] at enough
  have readInner : disjunction (atom bound) (tokens ++ closing :: rest) = .ok (e, closing :: rest) :=
    reads.complete (by omega) (Level.disjunction.stops_of_joined?_eq_none (by rw [closes]; rfl))
  have closed : expect .closeParen (closing :: rest) = .ok rest :=
    expect_eq_ok_iff.mpr ⟨closing, rfl, closes⟩
  simp [atom, opens, readInner, closed, pure, Except.pure]

end

/-- No assertion of a tighter level than negation starts with the sign of negation. -/
theorem Derives.head_ne_not {level : Level} {tokens : List Token} {e : Expr}
    (derives : Derives level tokens e) :
    level.rank < Level.negation.rank -> ∃ token more, tokens = token :: more ∧ token.kind ≠ .not := by
  induction derives with
  | number denotes =>
      intro _
      cases denotes with
      | whole kind | decimal kind => exact ⟨_, _, rfl, by rw [kind]; decide⟩
  | negativeNumber minus =>
      intro _
      exact ⟨_, _, rfl, by rw [minus]; decide⟩
  | truth kind | falsehood kind | name kind =>
      intro _
      exact ⟨_, _, rfl, by rw [kind]; decide⟩
  | group opens =>
      intro _
      exact ⟨_, _, rfl, by rw [opens]; decide⟩
  | ofAtom _ starts | ofProduct _ starts | ofSum _ starts =>
      intro _
      exact starts (by decide)
  | multiply _ _ _ starts | add _ _ _ starts | compare _ _ _ starts =>
      intro _
      obtain ⟨token, more, rfl, notNot⟩ := starts (by decide)
      exact ⟨token, _, List.cons_append, notNot⟩
  | ofComparison | negate | ofNegation | conjoin | ofConjunction | disjoin =>
      intro tight
      exact absurd tight (by decide)

theorem Derives.reads {level : Level} {tokens : List Token} {e : Expr}
    (derives : Derives level tokens e) : Reads level tokens e := by
  induction derives with
  | number denotes =>
      apply reads_atom (List.cons_ne_nil _ _)
      intro bound rest _
      cases denotes with
      | whole kind reads | decimal kind reads => simp [atom, kind, reads, pure, Except.pure]
  | negativeNumber minus denotes =>
      apply reads_atom (List.cons_ne_nil _ _)
      intro bound rest _
      cases denotes with
      | whole kind reads | decimal kind reads =>
          simp [atom, InfixForm.negativeNumber, minus, kind, reads, Number.neg, pure, Except.pure]
  | truth kind | falsehood kind | name kind =>
      apply reads_atom (List.cons_ne_nil _ _)
      intro bound rest _
      simp [atom, kind]
  | group opens closes _ inner => exact inner.group opens closes
  | ofAtom _ inner => exact inner.single (by decide)
  | multiply sign _ _ left right => exact left.join (by decide) sign.operator? right
  | ofProduct _ inner => exact inner.single (by decide)
  | add sign _ _ left right => exact left.join (by decide) sign.operator? right
  | ofSum _ inner => exact inner.ofSum
  | compare sign _ _ left right => exact left.compare sign.operator? right
  | ofComparison derivesInner inner =>
      exact inner.ofComparison (derivesInner.head_ne_not (by decide))
  | negate kind _ inner => exact inner.negate kind
  | ofNegation _ inner => exact inner.single (by decide)
  | conjoin sign _ _ left right => exact left.join (by decide) sign.operator? right
  | ofConjunction _ inner => exact inner.single (by decide)
  | disjoin sign _ _ left right => exact left.join (by decide) sign.operator? right

end InfixForm

open InfixForm in
/-- What the parser reads, the grammar derives from the tokens read. -/
theorem infixParser_sound : Sound infixParser .disjunction := by
  intro tokens e rest read
  exact disjunction_sound (atom_sound tokens.length) tokens e rest read

open InfixForm in
/-- What the grammar derives, the parser reads up to a token that cannot continue it. -/
theorem infixParser_complete {tokens rest : List Token} {e : Expr}
    (derives : Derives .disjunction tokens e) (stops : Level.disjunction.Stops rest) :
    infixParser (tokens ++ rest) = .ok (e, rest) := by
  apply derives.reads.complete _ stops
  simp

end Expr
end HoareProof
