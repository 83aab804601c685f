import HoareProof.Expr.Reader
import HoareProof.Stmt.Reader
import HoareProof.Proofs.Parsers

namespace HoareProof

/-!
Parsers and places.  A parser looks at the kinds and the texts of its tokens; their places
are only carried along, for messages.  So it makes no difference to a parser whether the
places are erased before it or from its outcome after it.  Each combinator of the grammars
keeps this, and a text is read alike as every other text with the same kinds and texts of
tokens.
-/

/-- A token whose place is erased. -/
def Token.placeless (token : Token) : Token :=
  { token with position := .start }

@[simp] theorem Token.kind_placeless (token : Token) : token.placeless.kind = token.kind :=
  rfl

@[simp] theorem Token.text_placeless (token : Token) : token.placeless.text = token.text :=
  rfl

namespace Parsing

/-- An error whose place is erased. -/
def ParseError.placeless : ParseError -> ParseError
  | .misfit error => .misfit ⟨error.cause, error.found.map Token.placeless⟩
  | .numeral error => .numeral error

/-- An outcome whose places are erased, given how to erase those of its value. -/
def erased {Value : Type} (erase : Value -> Value) :
    Except ParseError Value -> Except ParseError Value
  | .ok value => .ok (erase value)
  | .error error => .error error.placeless

/-- What a parser gives, without the places of the tokens that are left. -/
def leftPlaceless {Value : Type} (result : Value × List Token) : Value × List Token :=
  (result.1, result.2.map Token.placeless)

/-- A parser that does not look at places. -/
def Blind {Value : Type} (parser : Parser Value) : Prop :=
  forall tokens, parser (tokens.map Token.placeless) = erased leftPlaceless (parser tokens)

theorem erased_bind {First Second : Type} {attempt : Except ParseError First}
    {eraseFirst : First -> First} {eraseSecond : Second -> Second}
    {next other : First -> Except ParseError Second}
    (same : forall value, other (eraseFirst value) = erased eraseSecond (next value)) :
    (erased eraseFirst attempt >>= other) = erased eraseSecond (attempt >>= next) := by
  cases attempt with
  | error e => rfl
  | ok value => exact same value

theorem failAt_blind {Value : Type} (cause : Cause) : Blind (failAt cause : Parser Value) := by
  intro tokens
  cases tokens <;> rfl

theorem expect_blind (kind : TokenKind) (tokens : List Token) :
    expect kind (tokens.map Token.placeless) =
      erased (List.map Token.placeless) (expect kind tokens) := by
  cases tokens with
  | nil => rfl
  | cons token tokens =>
      simp only [List.map_cons, expect, Token.kind_placeless]
      by_cases isKind : token.kind = kind
      · simp only [isKind, if_true]
        rfl
      · simp only [isKind, if_false]
        rfl

theorem wholeValue_blind (token : Token) :
    wholeValue token.placeless = erased id (wholeValue token) := by
  simp only [wholeValue, Token.text_placeless]
  split <;> rfl

theorem decimalValue_blind (token : Token) :
    decimalValue token.placeless = erased id (decimalValue token) := by
  simp only [decimalValue, Token.text_placeless]
  split <;> rfl

/-- What is made of the outcome of a parser on the tokens of a whole text. -/
def verdict {Value : Type} : Except ParseError (Value × List Token) ->
    Except NumeralError (Option Value)
  | .ok (value, rest) => .ok (if rest.isEmpty then some value else none)
  | .error (.numeral error) => .error error
  | .error (.misfit _) => .ok none

theorem readAll?_eq_verdict {Value : Type} (parser : Parser Value) {text : String}
    {stream : Token.Stream} (lexed : Token.ofText text = .ok stream) :
    readAll? parser text = verdict (parser stream.tokens) := by
  simp only [readAll?, readFrom, lexed, List.drop_zero]
  cases parser stream.tokens with
  | error e => cases e <;> rfl
  | ok result => rfl

theorem verdict_erased {Value : Type} (outcome : Except ParseError (Value × List Token)) :
    verdict (erased leftPlaceless outcome) = verdict outcome := by
  cases outcome with
  | error e => cases e <;> rfl
  | ok result => simp [erased, leftPlaceless, verdict]

/-- Texts whose tokens differ in their places only are read alike. -/
theorem Blind.readAll?_eq {Value : Type} {parser : Parser Value} (blind : Blind parser)
    {text other : String} {stream otherStream : Token.Stream}
    (lexed : Token.ofText text = .ok stream) (lexedOther : Token.ofText other = .ok otherStream)
    (alike : stream.tokens.map Token.placeless = otherStream.tokens.map Token.placeless) :
    readAll? parser text = readAll? parser other := by
  rw [readAll?_eq_verdict parser lexed, readAll?_eq_verdict parser lexedOther, ← verdict_erased,
    ← blind, alike, blind, verdict_erased]

end Parsing

namespace Expr

open Parsing

namespace InfixForm

section

variable {operand : Parser Expr} {operator? : TokenKind -> Option Operator}

theorem chainFrom_blind (blind : Blind operand) (bound : Nat) :
    forall left, Blind (chainFrom operand operator? bound left) := by
  induction bound with
  | zero => exact fun _ _ => rfl
  | succ bound inductionHypothesis =>
      intro left tokens
      cases tokens with
      | nil => rfl
      | cons token tokens =>
          simp only [List.map_cons, chainFrom, Token.kind_placeless, blind tokens]
          cases operator? token.kind with
          | none => rfl
          | some op =>
              cases operand tokens with
              | error e => rfl
              | ok result => exact inductionHypothesis _ result.2

theorem chain_blind (blind : Blind operand) : Blind (chain operand operator?) := by
  intro tokens
  simp only [chain, blind tokens]
  cases operand tokens with
  | error e => rfl
  | ok result =>
      simp only [erased, leftPlaceless, List.length_map]
      exact chainFrom_blind blind result.2.length result.1 result.2

end

section

variable {atomParser : Parser Expr}

theorem sum_blind (blind : Blind atomParser) : Blind (sum atomParser) :=
  chain_blind (chain_blind blind)

theorem comparison_blind (blind : Blind atomParser) : Blind (comparison atomParser) := by
  intro tokens
  simp only [comparison, sum_blind blind tokens]
  cases sum atomParser tokens with
  | error e => rfl
  | ok result =>
      rcases result with ⟨left, rest⟩
      cases rest with
      | nil => rfl
      | cons token rest =>
          simp only [erased, leftPlaceless, List.map_cons, Token.kind_placeless]
          cases comparison? token.kind with
          | none => rfl
          | some op =>
              simp only [sum_blind blind rest]
              cases sum atomParser rest <;> rfl

theorem negation_blind (blind : Blind atomParser) : Blind (negation atomParser) := by
  intro tokens
  induction tokens with
  | nil => exact comparison_blind blind []
  | cons token tokens inductionHypothesis =>
      simp only [List.map_cons, negation]
      by_cases negated : token.kind = .not
      · simp only [Token.kind_placeless, negated, if_true, inductionHypothesis]
        cases negation atomParser tokens <;> rfl
      · simp only [Token.kind_placeless, negated, if_false]
        exact comparison_blind blind (token :: tokens)

theorem disjunction_blind (blind : Blind atomParser) : Blind (disjunction atomParser) :=
  chain_blind (chain_blind (negation_blind blind))

end

theorem negativeNumber_blind : Blind negativeNumber := by
  intro tokens
  cases tokens with
  | nil => rfl
  | cons token tokens =>
      simp only [List.map_cons, negativeNumber, Token.kind_placeless, wholeValue_blind,
        decimalValue_blind]
      cases token.kind with
      | whole => exact erased_bind fun _ => rfl
      | decimal => exact erased_bind fun _ => rfl
      | _ => rfl

theorem atom_blind (bound : Nat) : Blind (atom bound) := by
  induction bound with
  | zero => exact failAt_blind .noAssertion
  | succ bound inductionHypothesis =>
      intro tokens
      cases tokens with
      | nil => rfl
      | cons token tokens =>
          simp only [List.map_cons, atom, Token.kind_placeless, wholeValue_blind,
            decimalValue_blind, negativeNumber_blind tokens,
            disjunction_blind inductionHypothesis tokens]
          cases token.kind with
          | whole => exact erased_bind fun _ => rfl
          | decimal => exact erased_bind fun _ => rfl
          | openParen =>
              apply erased_bind
              rintro ⟨inner, rest⟩
              simp only [leftPlaceless, expect_blind]
              exact erased_bind fun _ => rfl
          | _ => rfl

end InfixForm

theorem infixParser_blind : Blind infixParser := by
  intro tokens
  simp only [infixParser, List.length_map]
  exact InfixForm.disjunction_blind (InfixForm.atom_blind tokens.length) tokens

namespace PrefixForm

variable {termParser : Parser Expr}

theorem arguments_blind (blind : Blind termParser) (bound : Nat) :
    Blind (arguments termParser bound) := by
  induction bound with
  | zero => exact fun _ => rfl
  | succ bound inductionHypothesis =>
      intro tokens
      cases tokens with
      | nil => rfl
      | cons token tokens =>
          have first := blind (token :: tokens)
          simp only [List.map_cons] at first
          simp only [List.map_cons, arguments, first]
          by_cases closes : token.kind = .closeParen
          · simp only [Token.kind_placeless, closes, if_true]
            rfl
          · simp only [Token.kind_placeless, closes, if_false]
            cases termParser (token :: tokens) with
            | error e => rfl
            | ok result =>
                simp only [erased, leftPlaceless, inductionHypothesis result.2]
                cases arguments termParser bound result.2 <;> rfl

theorem applicationParser_blind (blind : Blind termParser) :
    Blind (applicationParser termParser) := by
  intro tokens
  cases tokens with
  | nil => rfl
  | cons head tokens =>
      simp only [List.map_cons, applicationParser, Token.kind_placeless, List.length_map,
        arguments_blind blind tokens.length tokens]
      cases headOperator? head.kind with
      | none => rfl
      | some op =>
          cases arguments termParser tokens.length tokens with
          | error e => rfl
          | ok result =>
              rcases result with ⟨values, rest⟩
              cases rest with
              | nil => rfl
              | cons token rest =>
                  simp only [erased, leftPlaceless, List.map_cons]
                  cases application? op values <;> rfl

theorem term_blind (bound : Nat) : Blind (term bound) := by
  induction bound with
  | zero => exact failAt_blind .noTerm
  | succ bound inductionHypothesis =>
      intro tokens
      cases tokens with
      | nil => rfl
      | cons token tokens =>
          simp only [List.map_cons, term, Token.kind_placeless, wholeValue_blind,
            decimalValue_blind, applicationParser_blind inductionHypothesis tokens]
          cases token.kind with
          | whole => exact erased_bind fun _ => rfl
          | decimal => exact erased_bind fun _ => rfl
          | _ => rfl

end PrefixForm

theorem form_blind (form : Form) : Blind form.parser := by
  cases form with
  | infixed => exact infixParser_blind
  | prefixed =>
      intro tokens
      simp only [Form.parser, prefixParser, List.length_map]
      exact PrefixForm.term_blind tokens.length tokens

end Expr

namespace Stmt

open Parsing

theorem sequenceOf_blind {simpleParser : Parser Stmt} (blind : Blind simpleParser) (bound : Nat) :
    Blind (sequenceOf simpleParser bound) := by
  induction bound with
  | zero => exact blind
  | succ bound inductionHypothesis =>
      intro tokens
      simp only [sequenceOf, blind tokens]
      cases simpleParser tokens with
      | error e => rfl
      | ok result =>
          rcases result with ⟨first, rest⟩
          cases rest with
          | nil => rfl
          | cons token rest =>
              simp only [erased, leftPlaceless, List.map_cons, Token.kind_placeless]
              by_cases separates : token.kind = .semicolon
              · simp only [separates, if_true, inductionHypothesis rest]
                cases sequenceOf simpleParser bound rest <;> rfl
              · simp only [separates, if_false]
                rfl

theorem simple_blind (bound : Nat) : Blind (simple bound) := by
  induction bound with
  | zero => exact failAt_blind .noStatement
  | succ bound inductionHypothesis =>
      intro tokens
      cases tokens with
      | nil => rfl
      | cons token tokens =>
          simp only [List.map_cons, simple, Token.kind_placeless]
          cases token.kind with
          | name =>
              rw [expect_blind]
              refine erased_bind fun rest => ?_
              rw [Expr.infixParser_blind]
              exact erased_bind fun _ => rfl
          | ifWord =>
              rw [Expr.infixParser_blind]
              refine erased_bind fun guard => ?_
              simp only [leftPlaceless, expect_blind]
              refine erased_bind fun rest => ?_
              rw [inductionHypothesis]
              refine erased_bind fun thenBranch => ?_
              simp only [leftPlaceless, expect_blind]
              refine erased_bind fun rest => ?_
              rw [inductionHypothesis]
              exact erased_bind fun _ => rfl
          | whileWord =>
              rw [Expr.infixParser_blind]
              refine erased_bind fun guard => ?_
              simp only [leftPlaceless, expect_blind]
              refine erased_bind fun rest => ?_
              rw [inductionHypothesis]
              exact erased_bind fun _ => rfl
          | openParen =>
              rw [List.length_map, sequenceOf_blind inductionHypothesis]
              refine erased_bind fun inner => ?_
              simp only [leftPlaceless, expect_blind]
              exact erased_bind fun _ => rfl
          | _ => rfl

theorem parser_blind : Blind parser := by
  intro tokens
  simp only [parser, List.length_map]
  exact sequenceOf_blind (simple_blind tokens.length) tokens.length tokens

end Stmt
end HoareProof
