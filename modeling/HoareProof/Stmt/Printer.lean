import HoareProof.Expr.Printer
import HoareProof.Stmt.Basic

namespace HoareProof
namespace Stmt

/-!
Statements as text.  A sequence is put into parentheses where another statement
contains it, except as the second half of a sequence, because a semicolon
groups to the right and binds loosest.  Holes print as a question mark.
-/

def parenthesized (stmt : Stmt) (text : String) : String :=
  match stmt with
  | .seq .. => "(" ++ text ++ ")"
  | _ => text

def text : Stmt -> String
  | .hole => "?"
  | .skip => "skip"
  | .assign _ target value => (if target.isEmpty then "?" else target) ++ " := " ++ value.human
  | .seq _ first second => parenthesized first first.text ++ "; " ++ second.text
  | .cond _ guard thenBranch elseBranch =>
    "if " ++ guard.human ++ " then " ++ parenthesized thenBranch thenBranch.text ++ " else " ++
      parenthesized elseBranch elseBranch.text
  | .loop _ guard body => "while " ++ guard.human ++ " do " ++ parenthesized body body.text

end Stmt
end HoareProof
