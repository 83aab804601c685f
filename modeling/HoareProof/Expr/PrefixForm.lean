import HoareProof.Expr.Basic
import HoareProof.Parsing

namespace HoareProof
namespace Expr
namespace PrefixForm

open Parsing

/-!
Reading the prefix form: a constant, a variable, or an operator with its
arguments in parentheses.  Negation takes one argument, and so does the minus
sign in front of a constant; everything else takes two, and the operators that
can be repeated take more and group to the left.
-/

/-- The operator that a token stands for at the head of an application. -/
def headOperator? : TokenKind -> Option Operator
  | .equal => some .equal
  | .less => some .less
  | .greater => some .greater
  | .atMost => some .atMost
  | .atLeast => some .atLeast
  | .plus => some .add
  | .minus => some .sub
  | .star => some .mul
  | .and => some .and
  | .or => some .or
  | .not => some .not
  | _ => none

/-- The operators that take more than two arguments. -/
def isRepeatable : Operator -> Bool
  | .and => true
  | .or => true
  | .add => true
  | .mul => true
  | .sub => true
  | _ => false

/-- The value of an application, if the operator takes these arguments. -/
def application? (op : Operator) (arguments : List Expr) : Option Expr :=
  if op = .not then
    match arguments with
    | [operand] => some (.negate operand)
    | _ => none
  else
    match arguments with
    | [operand] =>
      if op = .sub then
        match operand with
        | .const value => some (.const value.neg)
        | _ => none
      else none
    | [left, right] => some (.binary op left right)
    | first :: second :: third :: more =>
      if isRepeatable op then
        some ((second :: third :: more).foldl (.binary op) first)
      else none
    | [] => none

/-- Terms up to a closing parenthesis or the end of the text.  The bound counts
the tokens that are left. -/
def arguments (term : Parser Expr) : Nat -> Parser (List Expr)
  | 0, tokens => .ok ([], tokens)
  | _ + 1, [] => .ok ([], [])
  | bound + 1, token :: rest =>
    if token.kind = .closeParen then .ok ([], token :: rest)
    else
      match term (token :: rest) with
      | .error e => .error e
      | .ok (first, rest') =>
        match arguments term bound rest' with
        | .error e => .error e
        | .ok (more, rest'') => .ok (first :: more, rest'')

/-- The rest of an application after its opening parenthesis. -/
def applicationParser (term : Parser Expr) : Parser Expr
  | [] => failAt .unknownOperator []
  | head :: rest =>
    match headOperator? head.kind with
    | none => failAt .unknownOperator (head :: rest)
    | some op =>
      match arguments term rest.length rest with
      | .error e => .error e
      | .ok (_, []) => .error (.misfit ⟨.unbalanced, some head⟩)
      | .ok (args, _ :: rest') =>
        match application? op args with
        | some value => .ok (value, rest')
        | none => .error (.misfit ⟨.argumentCount args.length, some head⟩)

/-- A term, in which parentheses nest at most as deep as the bound. -/
def term : Nat -> Parser Expr
  | 0, tokens => failAt .noTerm tokens
  | _ + 1, [] => failAt .noTerm []
  | bound + 1, token :: rest =>
    match token.kind with
    | .whole => do
      let value ← wholeValue token
      return (.const (.whole value), rest)
    | .decimal => do
      let value ← decimalValue token
      return (.const (.double value), rest)
    | .trueWord => .ok (.truth true, rest)
    | .falseWord => .ok (.truth false, rest)
    | .name => .ok (.var token.text, rest)
    | .openParen => applicationParser (term bound) rest
    | _ => failAt .noTerm (token :: rest)

end PrefixForm

/-- Reads a term in prefix form.  There cannot be more parentheses than
tokens. -/
def prefixParser : Parsing.Parser Expr := fun tokens =>
  PrefixForm.term tokens.length tokens

end Expr
end HoareProof
