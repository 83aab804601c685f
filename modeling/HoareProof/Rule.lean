import HoareProof.Stmt.Basic
import HoareProof.Text.Blank

namespace HoareProof

/-!
The inference rules of partial correctness.  Each rule is about statements of
one shape, except the rule of consequence, which is about every statement.
-/

inductive Rule where
  | skip
  | assign
  | sequence
  | conditional
  | loop
  | consequence
deriving DecidableEq, Repr

namespace Rule

def all : List Rule := [.skip, .assign, .sequence, .conditional, .loop, .consequence]

def tag : Rule -> String
  | .skip => "skip"
  | .assign => "assign"
  | .sequence => "sequence"
  | .conditional => "conditional"
  | .loop => "while"
  | .consequence => "consequence"

def arity : Rule -> Nat
  | .skip => 0
  | .assign => 0
  | .sequence => 2
  | .conditional => 2
  | .loop => 1
  | .consequence => 1

/-- Whether the conclusion of a rule can be about a statement.  A draft has no
rule but consequence. -/
def appliesTo : Rule -> Stmt -> Bool
  | .skip, .skip => true
  | .assign, .assign .complete _ _ => true
  | .sequence, .seq .complete _ _ => true
  | .conditional, .cond .complete _ _ _ => true
  | .loop, .loop .complete _ _ => true
  | .consequence, _ => true
  | _, _ => false

/-- The small letter of a capital that can stand in a tag.  Besides the capitals
of ASCII, the sign of the unit kelvin has a small letter among them. -/
def tagLetter (c : Char) : Char :=
  if 'A' ≤ c && c ≤ 'Z' then Char.ofNat (c.toNat + 32)
  else if c = '\u212A' then 'k'
  else c

/-- The rule with a given name.  Blanks around the name and capitals in it do
not matter. -/
def ofText? (text : String) : Option Rule :=
  let name := String.ofList ((Text.trim text).toList.map tagLetter)
  all.find? fun rule => rule.tag == name

end Rule
end HoareProof
