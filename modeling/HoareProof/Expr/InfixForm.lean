import HoareProof.Expr.Basic
import HoareProof.Parsing

namespace HoareProof
namespace Expr
namespace InfixForm

open Parsing

/-!
Reading the infix form.  From the loosest to the tightest, the operators are
disjunction, conjunction, negation, the comparisons, sum and difference, and
product.  Disjunction, conjunction, sum and product group to the left, and a
comparison does not chain.  Each level is a parser made from the parser of the
next tighter one, so that only an atom in parentheses leads back to the loosest
level; its nesting is bounded by the number of tokens.
-/

/-- After an operand, reads operators with further operands and groups them to
the left.  The bound counts the tokens that are left. -/
def chainFrom (operand : Parser Expr) (operator? : TokenKind -> Option Operator) :
    Nat -> Expr -> Parser Expr
  | 0, left, tokens => .ok (left, tokens)
  | _ + 1, left, [] => .ok (left, [])
  | bound + 1, left, token :: rest =>
    match operator? token.kind with
    | none => .ok (left, token :: rest)
    | some op =>
      match operand rest with
      | .error e => .error e
      | .ok (right, rest') => chainFrom operand operator? bound (.binary op left right) rest'

/-- A chain of operands that groups to the left. -/
def chain (operand : Parser Expr) (operator? : TokenKind -> Option Operator) : Parser Expr :=
  fun tokens =>
    match operand tokens with
    | .error e => .error e
    | .ok (left, rest) => chainFrom operand operator? rest.length left rest

def productOperator? : TokenKind -> Option Operator
  | .star => some .mul
  | _ => none

def sumOperator? : TokenKind -> Option Operator
  | .plus => some .add
  | .minus => some .sub
  | _ => none

def comparison? : TokenKind -> Option Operator
  | .equal => some .equal
  | .less => some .less
  | .greater => some .greater
  | .atMost => some .atMost
  | .atLeast => some .atLeast
  | _ => none

def conjunctionOperator? : TokenKind -> Option Operator
  | .and => some .and
  | _ => none

def disjunctionOperator? : TokenKind -> Option Operator
  | .or => some .or
  | _ => none

def product (atom : Parser Expr) : Parser Expr :=
  chain atom productOperator?

def sum (atom : Parser Expr) : Parser Expr :=
  chain (product atom) sumOperator?

/-- A sum, or two of them with one comparison between. -/
def comparison (atom : Parser Expr) : Parser Expr := fun tokens =>
  match sum atom tokens with
  | .error e => .error e
  | .ok (left, []) => .ok (left, [])
  | .ok (left, token :: rest) =>
    match comparison? token.kind with
    | none => .ok (left, token :: rest)
    | some op =>
      match sum atom rest with
      | .error e => .error e
      | .ok (right, rest') => .ok (.binary op left right, rest')

/-- A comparison under any number of negations. -/
def negation (atom : Parser Expr) : Parser Expr
  | [] => comparison atom []
  | token :: rest =>
    if token.kind = .not then
      match negation atom rest with
      | .error e => .error e
      | .ok (operand, rest') => .ok (.negate operand, rest')
    else comparison atom (token :: rest)

def conjunction (atom : Parser Expr) : Parser Expr :=
  chain (negation atom) conjunctionOperator?

def disjunction (atom : Parser Expr) : Parser Expr :=
  chain (conjunction atom) disjunctionOperator?

/-- A number after a minus sign.  Only numbers take a sign. -/
def negativeNumber : Parser Expr
  | [] => failAt .numberExpected []
  | token :: rest =>
    match token.kind with
    | .whole => do
      let value ← wholeValue token
      return (.const (.whole (-(value : Int))), rest)
    | .decimal => do
      let value ← decimalValue token
      return (.const (.double value.neg), rest)
    | _ => failAt .numberExpected (token :: rest)

/-- An atom, in which parentheses nest at most as deep as the bound. -/
def atom : Nat -> Parser Expr
  | 0, tokens => failAt .noAssertion tokens
  | _ + 1, [] => failAt .noAssertion []
  | bound + 1, token :: rest =>
    match token.kind with
    | .whole => do
      let value ← wholeValue token
      return (.const (.whole value), rest)
    | .decimal => do
      let value ← decimalValue token
      return (.const (.double value), rest)
    | .minus => negativeNumber rest
    | .trueWord => .ok (.truth true, rest)
    | .falseWord => .ok (.truth false, rest)
    | .name => .ok (.var token.text, rest)
    | .openParen => do
      let (inner, rest') ← disjunction (atom bound) rest
      let rest'' ← expect .closeParen rest'
      return (inner, rest'')
    | _ => failAt .noAssertion (token :: rest)

end InfixForm

/-- Reads an assertion in infix form and stops at the first token that cannot
continue it.  There cannot be more parentheses than tokens. -/
def infixParser : Parsing.Parser Expr := fun tokens =>
  InfixForm.disjunction (InfixForm.atom tokens.length) tokens

end Expr
end HoareProof
