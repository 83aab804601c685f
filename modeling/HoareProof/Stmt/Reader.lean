import HoareProof.Expr.InfixForm
import HoareProof.Stmt.Basic

namespace HoareProof
namespace Stmt

open Parsing

/-!
Reading statements.  A statement is a simple statement, or one followed by a
semicolon and a statement; what a conditional or a loop contains is a simple
statement, so the semicolon binds loosest.  Parentheses make a simple statement
of any.  Every statement that is read is complete.
-/

/-- Simple statements with semicolons between them.  The bound counts the
tokens that are left. -/
def sequenceOf (simple : Parser Stmt) : Nat -> Parser Stmt
  | 0, tokens => simple tokens
  | bound + 1, tokens =>
    match simple tokens with
    | .error e => .error e
    | .ok (first, []) => .ok (first, [])
    | .ok (first, token :: rest) =>
      if token.kind = .semicolon then
        match sequenceOf simple bound rest with
        | .error e => .error e
        | .ok (second, rest') => .ok (.seq .complete first second, rest')
      else .ok (first, token :: rest)

/-- A simple statement, in which statements nest at most as deep as the
bound. -/
def simple : Nat -> Parser Stmt
  | 0, tokens => failAt .noStatement tokens
  | _ + 1, [] => failAt .noStatement []
  | bound + 1, token :: rest =>
    match token.kind with
    | .skipWord => .ok (.skip, rest)
    | .name => do
      let rest ← expect .assign rest
      let (value, rest) ← Expr.infixParser rest
      return (.assign .complete token.text value, rest)
    | .ifWord => do
      let (guard, rest) ← Expr.infixParser rest
      let rest ← expect .thenWord rest
      let (thenBranch, rest) ← simple bound rest
      let rest ← expect .elseWord rest
      let (elseBranch, rest) ← simple bound rest
      return (.cond .complete guard thenBranch elseBranch, rest)
    | .whileWord => do
      let (guard, rest) ← Expr.infixParser rest
      let rest ← expect .doWord rest
      let (body, rest) ← simple bound rest
      return (.loop .complete guard body, rest)
    | .openParen => do
      let (inner, rest) ← sequenceOf (simple bound) rest.length rest
      let rest ← expect .closeParen rest
      return (inner, rest)
    | _ => failAt .noStatement (token :: rest)

/-- Reads a statement and stops at the first token that cannot continue it. -/
def parser : Parser Stmt := fun tokens =>
  sequenceOf (simple tokens.length) tokens.length tokens

/-- Reads a whole text as a statement.  A text outside the grammar gives no
statement; a number without a value is an error. -/
def ofText? (text : String) : Except NumeralError (Option Stmt) :=
  readAll? parser text

end Stmt
end HoareProof
