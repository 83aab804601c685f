import HoareProof.Path
import HoareProof.Rule
import HoareProof.Stmt.Printer

namespace HoareProof

/-!
Derivations.  A node holds a triple, the step claimed for it, and one
derivation for each premise.  A claimed step need not be one of the rules: a
node may carry a name that is no rule, and that name still counts when steps
are compared.  A premise can be missing altogether.  Whether the side
conditions of a step have been proved is recorded at the node.
-/

structure Triple where
  pre : Expr
  stmt : Stmt
  post : Expr
deriving DecidableEq

namespace Triple

def text (triple : Triple) : String :=
  "\x7b" ++ triple.pre.human ++ "\x7d " ++ triple.stmt.text ++ " \x7b" ++ triple.post.human ++ "\x7d"

/-- Equality of the parts, with constants compared by number. -/
def sameValue (a b : Triple) : Bool :=
  a.pre.sameValue b.pre && a.stmt.sameValue b.stmt && a.post.sameValue b.post

end Triple

/-- What is claimed to justify a node: nothing yet, a rule, or a name that is
no rule. -/
inductive Step where
  | pending
  | applied (rule : Rule)
  | unrecognised (name : String)
deriving DecidableEq, Repr

namespace Step

def name? : Step -> Option String
  | .pending => none
  | .applied rule => some rule.tag
  | .unrecognised name => some name

def rule? : Step -> Option Rule
  | .applied rule => some rule
  | _ => none

def ofRule? : Option Rule -> Step
  | some rule => .applied rule
  | none => .pending

/-- Steps are compared by name. -/
def sameValue (a b : Step) : Bool :=
  a.name? == b.name?

def isConsequence (step : Step) : Bool :=
  step.name? == some Rule.consequence.tag

end Step

/-- A derivation, or the place of a premise that is missing. -/
inductive Derivation where
  | missing
  | node (conclusion : Triple) (step : Step) (proved : Bool) (premises : List Derivation)

namespace Derivation

/-- A node whose step is still to be chosen. -/
def leaf (conclusion : Triple) : Derivation :=
  .node conclusion .pending false []

def premises : Derivation -> List Derivation
  | .missing => []
  | .node _ _ _ premises => premises

mutual

def decideEq : (left right : Derivation) -> Decidable (left = right)
  | .missing, .missing => isTrue rfl
  | .missing, .node _ _ _ _ => isFalse nofun
  | .node _ _ _ _, .missing => isFalse nofun
  | .node c₁ s₁ p₁ ds₁, .node c₂ s₂ p₂ ds₂ =>
    let _ := decideEqAll ds₁ ds₂
    decidable_of_decidable_of_iff (p := c₁ = c₂ ∧ s₁ = s₂ ∧ p₁ = p₂ ∧ ds₁ = ds₂)
      (by rw [node.injEq])

def decideEqAll : (left right : List Derivation) -> Decidable (left = right)
  | [], [] => isTrue rfl
  | [], _ :: _ => isFalse nofun
  | _ :: _, [] => isFalse nofun
  | d₁ :: ds₁, d₂ :: ds₂ =>
    let _ := decideEq d₁ d₂
    let _ := decideEqAll ds₁ ds₂
    decidable_of_decidable_of_iff (p := d₁ = d₂ ∧ ds₁ = ds₂) (by rw [List.cons.injEq])

end

instance : DecidableEq Derivation := decideEq

mutual

/-- Equality of all parts of all nodes, with constants compared by number and
steps by name. -/
def sameValue : Derivation -> Derivation -> Bool
  | .missing, .missing => true
  | .node c₁ s₁ p₁ ds₁, .node c₂ s₂ p₂ ds₂ =>
    c₁.sameValue c₂ && s₁.sameValue s₂ && p₁ == p₂ && sameValues ds₁ ds₂
  | _, _ => false

def sameValues : List Derivation -> List Derivation -> Bool
  | [], [] => true
  | d₁ :: ds₁, d₂ :: ds₂ => sameValue d₁ d₂ && sameValues ds₁ ds₂
  | _, _ => false

end

end Derivation
end HoareProof
