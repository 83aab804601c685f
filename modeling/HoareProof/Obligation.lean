import HoareProof.Derivation.Basic

namespace HoareProof

/-!
The side conditions of a step of consequence, as a script for a solver.  Each
of them is an implication.  Its formula states the implication for all whole
values of its variables, so a solver that finds the formula satisfiable has
proved the implication.
-/

/-- A named implication. -/
structure Obligation where
  name : String
  premise : Expr
  conclusion : Expr

/-- The line of a script that asks for an answer. -/
def askLine : String := "(check-sat)"

namespace Obligation

/-- The formula that asserts the implication for all values of its
variables. -/
def formula (obligation : Obligation) : Except ConstantTooLarge String := do
  let conclusion ← obligation.conclusion.solver
  let premise ← obligation.premise.solver
  let body := "(or " ++ conclusion ++ " (not " ++ premise ++ "))"
  let names := Expr.distinctNames (obligation.premise.occurrences ++ obligation.conclusion.occurrences)
  if names.isEmpty then return body
  else
    let binders := Text.joinWith " " (names.map fun name => "(" ++ name ++ " Int)")
    return "(forall (" ++ binders ++ ") " ++ body ++ ")"

/-- An assertion as a side of an implication; a missing one has a word of its
own. -/
def sideText : Expr -> String
  | .hole => "None"
  | e => e.human

def text (obligation : Obligation) : String :=
  obligation.name ++ ": " ++ sideText obligation.premise ++ " ⇒ " ++ sideText obligation.conclusion

/-- The lines of a script for one obligation: its name as a comment, its
formula, and the question. -/
def lines (obligation : Obligation) : Except ConstantTooLarge (List String) := do
  let formula ← obligation.formula
  return ["; " ++ obligation.name, "(assert " ++ formula ++ ")", askLine]

def script : List Obligation -> Except ConstantTooLarge (List String)
  | [] => .ok []
  | obligation :: rest => do
    let first ← obligation.lines
    let more ← script rest
    return first ++ more

/-- Equality of name and sides, with constants compared by number. -/
def sameValue (a b : Obligation) : Bool :=
  a.name == b.name && a.premise.sameValue b.premise && a.conclusion.sameValue b.conclusion

def sameValues : List Obligation -> List Obligation -> Bool
  | [], [] => true
  | a :: as, b :: bs => a.sameValue b && sameValues as bs
  | _, _ => false

end Obligation

namespace Derivation

/-- The side conditions of a node: two for a step of consequence with one
premise, none for any other node. -/
def obligations : Derivation -> List Obligation
  | .node conclusion step _ [.node premise _ _ _] =>
    if step.isConsequence then
      [⟨"P_to_Pp", conclusion.pre, premise.pre⟩, ⟨"Qp_to_Q", premise.post, conclusion.post⟩]
    else []
  | _ => []

/-- Whether a node is a step of consequence whose only premise is missing.  Its
side conditions cannot be stated. -/
def lacksPremise : Derivation -> Bool
  | .node _ step _ [.missing] => step.isConsequence
  | _ => false

end Derivation
end HoareProof
