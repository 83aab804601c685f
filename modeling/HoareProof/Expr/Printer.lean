import HoareProof.Expr.Basic

namespace HoareProof

/-!
The two written forms of an assertion.  The human form is infix with every
application in parentheses; the solver form is prefix, as solver scripts write
it.  Holes print as a question mark in both.  The solver form writes a negative
constant as an application of the minus sign, and it refuses a whole number
beyond the range of doubles, because the sign of a constant is taken from its
double.
-/

namespace Operator

def human : Operator -> String
  | .and => "∧"
  | .or => "∨"
  | .not => "¬"
  | .atMost => "≤"
  | .atLeast => "≥"
  | op => op.text

def solver : Operator -> String
  | .equal => "="
  | .and => "and"
  | .or => "or"
  | .not => "not"
  | op => op.text

end Operator

/-- A whole number that the solver form cannot write. -/
structure ConstantTooLarge where
  value : Number

def ConstantTooLarge.message (_ : ConstantTooLarge) : String :=
  "int too large to convert to float"

namespace Expr

def human : Expr -> String
  | .hole => "?"
  | .var name => name
  | .const value => value.text
  | .truth value => if value then "true" else "false"
  | .binary op left right => "(" ++ left.human ++ " " ++ op.human ++ " " ++ right.human ++ ")"
  | .unary op operand => "(" ++ op.human ++ operand.human ++ ")"

def solverConstant (value : Number) : Except ConstantTooLarge String :=
  if value.exceedsDoubles then .error ⟨value⟩
  else if value.isNegative then .ok ("(- " ++ value.neg.text ++ ")")
  else .ok value.text

def solver : Expr -> Except ConstantTooLarge String
  | .hole => .ok "?"
  | .var name => .ok name
  | .const value => solverConstant value
  | .truth value => .ok (if value then "true" else "false")
  | .binary op left right => do
    let l ← left.solver
    let r ← right.solver
    return "(" ++ op.solver ++ " " ++ l ++ " " ++ r ++ ")"
  | .unary op operand => do
    let e ← operand.solver
    return "(" ++ op.solver ++ " " ++ e ++ ")"

end Expr
end HoareProof
