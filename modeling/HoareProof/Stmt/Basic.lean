import HoareProof.Expr.Basic

namespace HoareProof

/-!
Statements of the while language.  A statement under construction is a draft
and may have holes; a complete statement is a different value from a draft of
the same parts, also when the draft has no hole left.  Finalizing turns every
draft of which no part is missing into the complete statement of its parts.
-/

/-- Whether a statement is still being built. -/
inductive Stage where
  | draft
  | complete
deriving DecidableEq, Repr

/-- A statement, a draft of one, or a hole where one is missing. -/
inductive Stmt where
  | hole
  | skip
  | assign (stage : Stage) (target : String) (value : Expr)
  | seq (stage : Stage) (first second : Stmt)
  | cond (stage : Stage) (guard : Expr) (thenBranch elseBranch : Stmt)
  | loop (stage : Stage) (guard : Expr) (body : Stmt)
deriving DecidableEq

namespace Stmt

/-- Equality of shape and stage, with constants compared by the number they
denote. -/
def sameValue : Stmt -> Stmt -> Bool
  | .hole, .hole => true
  | .skip, .skip => true
  | .assign g₁ x₁ e₁, .assign g₂ x₂ e₂ => g₁ == g₂ && x₁ == x₂ && e₁.sameValue e₂
  | .seq g₁ a₁ b₁, .seq g₂ a₂ b₂ => g₁ == g₂ && a₁.sameValue a₂ && b₁.sameValue b₂
  | .cond g₁ c₁ a₁ b₁, .cond g₂ c₂ a₂ b₂ =>
    g₁ == g₂ && c₁.sameValue c₂ && a₁.sameValue a₂ && b₁.sameValue b₂
  | .loop g₁ c₁ a₁, .loop g₂ c₂ a₂ => g₁ == g₂ && c₁.sameValue c₂ && a₁.sameValue a₂
  | _, _ => false

/-- The complete statement of the same parts, if nothing is missing in them. -/
def finalize : Stmt -> Option Stmt
  | .hole => none
  | .skip => some .skip
  | .assign _ target value =>
    if target.isEmpty || !value.isComplete then none
    else some (.assign .complete target value)
  | .seq _ first second =>
    match first.finalize, second.finalize with
    | some first, some second => some (.seq .complete first second)
    | _, _ => none
  | .cond _ guard thenBranch elseBranch =>
    if guard.isComplete then
      match thenBranch.finalize, elseBranch.finalize with
      | some thenBranch, some elseBranch => some (.cond .complete guard thenBranch elseBranch)
      | _, _ => none
    else none
  | .loop _ guard body =>
    if guard.isComplete then
      match body.finalize with
      | some body => some (.loop .complete guard body)
      | none => none
    else none

end Stmt
end HoareProof
