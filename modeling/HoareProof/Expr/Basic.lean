import HoareProof.Number.Basic

namespace HoareProof

/-!
Assertions as trees.  An assertion under construction has holes; a hole stands
for a branch, or a whole assertion, that is still missing.  Operators are kept
by meaning, so that two spellings of one connective give the same tree, but a
tree may also carry an operator that is unknown here: such an assertion prints
and compares like any other and never counts as complete.
-/

/-- An operator, or the text of one that has no meaning here. -/
inductive Operator where
  | add | sub | mul
  | equal | less | greater | atMost | atLeast
  | and | or | not
  | other (text : String)
deriving DecidableEq, Repr

namespace Operator

def spellings : List (String × Operator) := [
  ("+", .add), ("-", .sub), ("*", .mul),
  ("==", .equal), ("=", .equal), ("<", .less), (">", .greater),
  ("<=", .atMost), ("≤", .atMost), (">=", .atLeast), ("≥", .atLeast),
  ("&&", .and), ("∧", .and), ("and", .and),
  ("||", .or), ("∨", .or), ("or", .or),
  ("!", .not), ("¬", .not), ("not", .not)]

def ofText (text : String) : Operator :=
  (spellings.lookup text).getD (.other text)

/-- The one spelling under which an operator is stored. -/
def text : Operator -> String
  | .add => "+"
  | .sub => "-"
  | .mul => "*"
  | .equal => "=="
  | .less => "<"
  | .greater => ">"
  | .atMost => "<="
  | .atLeast => ">="
  | .and => "&&"
  | .or => "||"
  | .not => "!"
  | .other text => text

def isBinary : Operator -> Bool
  | .not => false
  | .other _ => false
  | _ => true

def isUnary : Operator -> Bool
  | .not => true
  | _ => false

end Operator

/-- An assertion or a term. -/
inductive Expr where
  | hole
  | var (name : String)
  | const (value : Number)
  | truth (value : Bool)
  | binary (op : Operator) (left right : Expr)
  | unary (op : Operator) (operand : Expr)
deriving DecidableEq

namespace Expr

/-- The conjunction that proof rules form.  It is never simplified, because
steps are compared by shape. -/
def conj (left right : Expr) : Expr := .binary .and left right

def disj (left right : Expr) : Expr := .binary .or left right

def negate (operand : Expr) : Expr := .unary .not operand

/-- Comparison of shape, with a comparison of constants.  Two holes are equal. -/
def compareBy (same : Number -> Number -> Bool) : Expr -> Expr -> Bool
  | .hole, .hole => true
  | .var x, .var y => x == y
  | .const a, .const b => same a b
  | .truth a, .truth b => a == b
  | .binary op₁ l₁ r₁, .binary op₂ l₂ r₂ =>
    op₁ == op₂ && compareBy same l₁ l₂ && compareBy same r₁ r₂
  | .unary op₁ e₁, .unary op₂ e₂ => op₁ == op₂ && compareBy same e₁ e₂
  | _, _ => false

/-- The equality that proof rules ask for: one shape, and the same numbers.  An
assertion with a constant that is not a number differs from itself. -/
def sameShape : Expr -> Expr -> Bool :=
  compareBy Number.sameNumber

/-- Equality as values, which every assertion has with itself. -/
def sameValue : Expr -> Expr -> Bool :=
  compareBy Number.sameValue

def constants : Expr -> List Number
  | .hole => []
  | .var _ => []
  | .const value => [value]
  | .truth _ => []
  | .binary _ left right => left.constants ++ right.constants
  | .unary _ operand => operand.constants

def isNumeric (e : Expr) : Bool :=
  e.constants.all Number.isNumber

/-- Whether every constant is short enough to be written. -/
def isPrintable (e : Expr) : Bool :=
  e.constants.all Number.isShort

/-- An assertion without holes in which every operator is known. -/
def isComplete : Expr -> Bool
  | .hole => false
  | .var _ => true
  | .const _ => true
  | .truth _ => true
  | .binary op left right => op.isBinary && left.isComplete && right.isComplete
  | .unary op operand => op.isUnary && operand.isComplete

/-- Puts an expression for every occurrence of a variable.  Nothing is bound in
an assertion, so nothing can be captured. -/
def subst (e : Expr) (x : String) (replacement : Expr) : Expr :=
  match e with
  | .hole => .hole
  | .var name => if name = x then replacement else .var name
  | .const value => .const value
  | .truth value => .truth value
  | .binary op left right => .binary op (left.subst x replacement) (right.subst x replacement)
  | .unary op operand => .unary op (operand.subst x replacement)

/-- The variables of an assertion, one entry for each occurrence from left to
right. -/
def occurrences : Expr -> List String
  | .hole => []
  | .var name => [name]
  | .const _ => []
  | .truth _ => []
  | .binary _ left right => left.occurrences ++ right.occurrences
  | .unary _ operand => operand.occurrences

/-- Puts a name into an ascending list that holds no name twice. -/
def insertName (name : String) : List String -> List String
  | [] => [name]
  | head :: rest =>
    if name < head then name :: head :: rest
    else if name = head then head :: rest
    else head :: insertName name rest

/-- The names of a list, each once and in ascending order. -/
def distinctNames (names : List String) : List String :=
  names.foldr insertName []

/-- The variables of an assertion, each once and in ascending order. -/
def variableNames (e : Expr) : List String :=
  distinctNames e.occurrences

end Expr
end HoareProof
