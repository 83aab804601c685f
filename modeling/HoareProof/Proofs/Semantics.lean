import HoareProof.Proofs.Values
import Mathlib.Logic.Function.Basic

namespace HoareProof

/-!
The meaning of assertions and statements.  Derivations do not fix the values that
assertions speak about, so the meaning is relative to an evaluation.  All that is
asked of one is that it reads variables from the store, is compositional, does not
tell equal numbers apart, and gives conjunction and negation their usual truth
conditions.  Nothing is asked of holes, whose value may depend on the store in any
way.

Statements have the usual big-step semantics.  Drafts and holes have no executions.
-/

universe u

/-- The values of all variables. -/
abbrev Store (Value : Type u) := String -> Value

/-- A compositional evaluation of assertions, with the values that count as
true. -/
structure Evaluation (Value : Type u) where
  eval : Expr -> Store Value -> Value
  holds : Value -> Prop
  var_reads : forall name store, eval (.var name) store = store name
  const_same : forall a b first second, a.sameNumber b = true ->
    eval (.const a) first = eval (.const b) second
  truth_same : forall value first second, eval (.truth value) first = eval (.truth value) second
  binary_same : forall op left right left' right' first second,
    eval left first = eval left' second -> eval right first = eval right' second ->
      eval (.binary op left right) first = eval (.binary op left' right') second
  unary_same : forall op operand operand' first second,
    eval operand first = eval operand' second ->
      eval (.unary op operand) first = eval (.unary op operand') second
  conj_holds : forall left right store,
    holds (eval (.conj left right) store) ↔ holds (eval left store) ∧ holds (eval right store)
  negate_holds : forall operand store,
    holds (eval (.negate operand) store) ↔ ¬ holds (eval operand store)

namespace Evaluation

variable {Value : Type u} (evaluation : Evaluation Value)

/-- A store satisfies an assertion whose value there counts as true. -/
def Satisfies (store : Store Value) (assertion : Expr) : Prop :=
  evaluation.holds (evaluation.eval assertion store)

/-- The terminating executions of a statement. -/
inductive Executes : Stmt -> Store Value -> Store Value -> Prop
  | skip {store} : Executes .skip store store
  | assign {target value store} :
      Executes (.assign .complete target value) store
        (Function.update store target (evaluation.eval value store))
  | seq {first second start middle final} :
      Executes first start middle ->
      Executes second middle final ->
      Executes (.seq .complete first second) start final
  | condTrue {guard thenBranch elseBranch start final} :
      evaluation.Satisfies start guard ->
      Executes thenBranch start final ->
      Executes (.cond .complete guard thenBranch elseBranch) start final
  | condFalse {guard thenBranch elseBranch start final} :
      ¬ evaluation.Satisfies start guard ->
      Executes elseBranch start final ->
      Executes (.cond .complete guard thenBranch elseBranch) start final
  | loopDone {guard body store} :
      ¬ evaluation.Satisfies store guard ->
      Executes (.loop .complete guard body) store store
  | loopAgain {guard body start middle final} :
      evaluation.Satisfies start guard ->
      Executes body start middle ->
      Executes (.loop .complete guard body) middle final ->
      Executes (.loop .complete guard body) start final

/-- Partial correctness: every terminating execution from a store that satisfies the
precondition ends in one that satisfies the postcondition. -/
def Correct (triple : Triple) : Prop :=
  forall start final, evaluation.Satisfies start triple.pre ->
    evaluation.Executes triple.stmt start final -> evaluation.Satisfies final triple.post

/-- An implication that holds in every store. -/
def Entails (obligation : Obligation) : Prop :=
  forall store, evaluation.Satisfies store obligation.premise ->
    evaluation.Satisfies store obligation.conclusion

variable {evaluation}

/-! ## Equal assertions have equal values -/

theorem eval_const_of_sameValue {a b : Number} (same : a.sameValue b = true)
    (store : Store Value) : evaluation.eval (.const a) store = evaluation.eval (.const b) store := by
  rcases Bool.or_eq_true_iff.mp same with identical | sameNumber
  · rw [beq_iff_eq.mp identical]
  · exact evaluation.const_same a b store store sameNumber

theorem eval_eq_of_sameValue {a b : Expr} (same : a.sameValue b = true) (store : Store Value) :
    evaluation.eval a store = evaluation.eval b store := by
  unfold Expr.sameValue at same
  fun_induction Expr.compareBy Number.sameValue a b with
  | case1 => rfl
  | case2 x y => rw [beq_iff_eq.mp same]
  | case3 a b => exact eval_const_of_sameValue same store
  | case4 a b => rw [beq_iff_eq.mp same]
  | case5 op₁ l₁ r₁ op₂ l₂ r₂ leftEqual rightEqual =>
      simp only [Bool.and_eq_true, beq_iff_eq] at same
      rcases same with ⟨⟨sameOp, sameLeft⟩, sameRight⟩
      subst sameOp
      exact evaluation.binary_same _ _ _ _ _ _ _ (leftEqual sameLeft) (rightEqual sameRight)
  | case6 op₁ e₁ op₂ e₂ operandEqual =>
      simp only [Bool.and_eq_true, beq_iff_eq] at same
      rcases same with ⟨sameOp, sameOperand⟩
      subst sameOp
      exact evaluation.unary_same _ _ _ _ _ (operandEqual sameOperand)
  | case7 => cases same

theorem satisfies_iff_of_sameValue {a b : Expr} (same : a.sameValue b = true)
    (store : Store Value) : evaluation.Satisfies store a ↔ evaluation.Satisfies store b := by
  rw [Satisfies, Satisfies, eval_eq_of_sameValue same]

theorem satisfies_iff_of_sameShape {a b : Expr} (same : a.sameShape b = true)
    (store : Store Value) : evaluation.Satisfies store a ↔ evaluation.Satisfies store b :=
  satisfies_iff_of_sameValue (Expr.sameValue_of_sameShape same) store

/-! ## Substitution is assignment -/

/-- The value of an assertion after a substitution is its value in the store in which
the variable has the value that was put for it.  Only numbers are known to have the same
value in both stores. -/
theorem eval_subst {e : Expr} (complete : e.isComplete = true) (numeric : e.isNumeric = true)
    (name : String) (replacement : Expr) (store : Store Value) :
    evaluation.eval (e.subst name replacement) store =
      evaluation.eval e
        (Function.update store name (evaluation.eval replacement store)) := by
  induction e with
  | hole => cases complete
  | var other =>
      rw [Expr.subst, evaluation.var_reads]
      by_cases same : other = name
      · rw [if_pos same, same, Function.update_self]
      · rw [if_neg same, evaluation.var_reads, Function.update_of_ne same]
  | const value =>
      apply evaluation.const_same
      rw [Number.sameNumber_eq, value.sameValue_refl]
      simpa [Expr.isNumeric, Expr.constants] using numeric
  | truth value => exact evaluation.truth_same _ _ _
  | binary op left right leftEqual rightEqual =>
      simp only [Expr.isComplete, Bool.and_eq_true] at complete
      simp only [Expr.isNumeric_binary, Bool.and_eq_true] at numeric
      exact evaluation.binary_same _ _ _ _ _ _ _ (leftEqual complete.1.2 numeric.1)
        (rightEqual complete.2 numeric.2)
  | unary op operand operandEqual =>
      simp only [Expr.isComplete, Bool.and_eq_true] at complete
      exact evaluation.unary_same _ _ _ _ _ (operandEqual complete.2 numeric)

/-! ## Equal statements have equal executions -/

/-- A statement executes like every statement of the same value.  The executions of
a loop pass through the loop itself, so the induction is on the execution, for all
statements of the same value at once. -/
theorem executes_of_sameValue {a b : Stmt} {start final : Store Value}
    (executes : evaluation.Executes b start final) (same : a.sameValue b = true) :
    evaluation.Executes a start final := by
  induction executes generalizing a with
  | skip =>
      rw [Stmt.eq_skip_of_sameValue same]
      exact .skip
  | assign =>
      rcases Stmt.exists_assign_of_sameValue same with ⟨value, rfl, sameValue⟩
      rw [← eval_eq_of_sameValue sameValue]
      exact .assign
  | seq _ _ firstExecutes secondExecutes =>
      rcases Stmt.exists_seq_of_sameValue same with ⟨first, second, rfl, sameFirst, sameSecond⟩
      exact .seq (firstExecutes sameFirst) (secondExecutes sameSecond)
  | condTrue guardHolds _ branchExecutes =>
      rcases Stmt.exists_cond_of_sameValue same with
        ⟨guard, thenBranch, elseBranch, rfl, sameGuard, sameThen, _sameElse⟩
      exact .condTrue ((satisfies_iff_of_sameValue sameGuard _).mpr guardHolds)
        (branchExecutes sameThen)
  | condFalse guardFails _ branchExecutes =>
      rcases Stmt.exists_cond_of_sameValue same with
        ⟨guard, thenBranch, elseBranch, rfl, sameGuard, _sameThen, sameElse⟩
      exact .condFalse (mt (satisfies_iff_of_sameValue sameGuard _).mp guardFails)
        (branchExecutes sameElse)
  | loopDone guardFails =>
      rcases Stmt.exists_loop_of_sameValue same with ⟨guard, body, rfl, sameGuard, _sameBody⟩
      exact .loopDone (mt (satisfies_iff_of_sameValue sameGuard _).mp guardFails)
  | loopAgain guardHolds _ _ bodyExecutes loopExecutes =>
      have sameLoop := loopExecutes same
      rcases Stmt.exists_loop_of_sameValue same with ⟨guard, body, rfl, sameGuard, sameBody⟩
      exact .loopAgain ((satisfies_iff_of_sameValue sameGuard _).mpr guardHolds)
        (bodyExecutes sameBody) sameLoop

end Evaluation
end HoareProof
