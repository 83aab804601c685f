import HoareProof.Proofs.NormalForms

namespace HoareProof
namespace Expr

/-!
Choosing between two groupings.  A bare application stands in a layout without parentheses, so
its operands stand in one row with those around it, and two kinds of rows can be read in two
ways: three atoms may be grouped from either side, and a negation in front of two atoms may reach
over one of them or over both.

One of the two readings is chosen here, at the root of an assertion and then throughout.  The
choice changes neither the layout nor the names and constants, and it is made only once: nothing
is left to choose afterwards.
-/

/-- Of the two groupings of a row, the one in which the later operands stand together and a
negation reaches over one atom. -/
def regroup : Expr -> Expr
  | .binary outer (.binary inner x y) z =>
      if x.isAtom && y.isAtom && z.isAtom then .binary inner x (.binary outer y z)
      else .binary outer (.binary inner x y) z
  | .unary negation (.binary op x y) =>
      if x.isAtom && y.isAtom then .binary op (.unary negation x) y
      else .unary negation (.binary op x y)
  | e => e

/-- The same choice throughout an assertion. -/
def regrouped : Expr -> Expr
  | .binary op left right => regroup (.binary op left.regrouped right.regrouped)
  | .unary op operand => regroup (.unary op operand.regrouped)
  | e => e

/-- One choice. -/
inductive Regrouping : Expr -> Expr -> Prop where
  | grouping {outer inner : Operator} {x y z : Expr} (first : x.isAtom = true)
      (second : y.isAtom = true) (third : z.isAtom = true) :
      Regrouping (.binary outer (.binary inner x y) z) (.binary inner x (.binary outer y z))
  | negation {negation op : Operator} {x y : Expr} (first : x.isAtom = true)
      (second : y.isAtom = true) :
      Regrouping (.unary negation (.binary op x y)) (.binary op (.unary negation x) y)

theorem regroup_eq_or (e : Expr) : e.regroup = e ∨ Regrouping e e.regroup := by
  unfold regroup
  split
  · split
    next atoms =>
      simp only [Bool.and_eq_true] at atoms
      exact .inr (.grouping atoms.1.1 atoms.1.2 atoms.2)
    next => exact .inl rfl
  · split
    next atoms =>
      simp only [Bool.and_eq_true] at atoms
      exact .inr (.negation atoms.1 atoms.2)
    next => exact .inl rfl
  · exact .inl rfl

theorem Regrouping.regroup_eq {e other : Expr} (regrouping : Regrouping e other) :
    e.regroup = other := by
  cases regrouping with
  | grouping first second third => simp [regroup, first, second, third]
  | negation first second => simp [regroup, first, second]

/-- What every choice keeps is kept by the choice. -/
theorem regroup_keeps {Value : Type} (view : Expr -> Value)
    (keeps : forall e other, Regrouping e other -> view other = view e) (e : Expr) :
    view e.regroup = view e := by
  rcases regroup_eq_or e with same | regrouping
  · rw [same]
  · exact keeps _ _ regrouping

theorem isAtom_regroup (e : Expr) : e.regroup.isAtom = e.isAtom := by
  apply regroup_keeps isAtom
  intro e other regrouping
  cases regrouping <;> rfl

theorem isAtom_regrouped (e : Expr) : e.regrouped.isAtom = e.isAtom := by
  cases e with
  | hole | var | const | truth => rfl
  | binary | unary => exact isAtom_regroup _

/-- The layout does not show the choice. -/
theorem layout_regroup (spelling : Operator -> List Char) (e : Expr) :
    e.regroup.layout spelling = e.layout spelling := by
  apply regroup_keeps (layout spelling)
  intro e other regrouping
  cases regrouping with
  | grouping first second third => simp [layout, enclose, first, second, third]
  | negation first second => simp [layout, enclose, first, second]

theorem layout_regrouped (spelling : Operator -> List Char) (e : Expr) :
    e.regrouped.layout spelling = e.layout spelling := by
  induction e with
  | hole | var | const | truth => rfl
  | binary op left right leftHypothesis rightHypothesis =>
      rw [regrouped, layout_regroup, layout, layout, leftHypothesis, rightHypothesis,
        isAtom_regrouped, isAtom_regrouped]
  | unary op operand inductionHypothesis =>
      rw [regrouped, layout_regroup, layout, layout, inductionHypothesis, isAtom_regrouped]

theorem integral_regroup {e : Expr} (integral : e.Integral) : e.regroup.Integral := by
  rcases regroup_eq_or e with same | regrouping
  · rwa [same]
  · generalize e.regroup = other at regrouping
    cases regrouping with
    | grouping _ _ _ =>
        simp only [Integral, legible_binary_iff] at integral ⊢
        exact ⟨integral.2.1.1, integral.2.1.2.1, integral.1, integral.2.1.2.2, integral.2.2⟩
    | negation _ _ =>
        simp only [Integral, legible_binary_iff, legible_unary_iff] at integral ⊢
        exact ⟨integral.2.1, ⟨integral.1, integral.2.2.1⟩, integral.2.2.2⟩

theorem integral_regrouped {e : Expr} (integral : e.Integral) : e.regrouped.Integral := by
  induction e with
  | hole | var | const | truth => exact integral
  | binary op left right leftHypothesis rightHypothesis =>
      rcases legible_binary_iff.mp integral with ⟨binary, leftIntegral, rightIntegral⟩
      apply integral_regroup
      exact legible_binary_iff.mpr
        ⟨binary, leftHypothesis leftIntegral, rightHypothesis rightIntegral⟩
  | unary op operand inductionHypothesis =>
      rcases legible_unary_iff.mp integral with ⟨isNot, operandIntegral⟩
      apply integral_regroup
      exact legible_unary_iff.mpr ⟨isNot, inductionHypothesis operandIntegral⟩

/-- An assertion in which every choice has been made. -/
def Settled : Expr -> Prop
  | .binary op left right =>
      regroup (.binary op left right) = .binary op left right ∧ left.Settled ∧ right.Settled
  | .unary op operand => regroup (.unary op operand) = .unary op operand ∧ operand.Settled
  | _ => True

theorem settled_atom {e : Expr} (atom : e.isAtom = true) : e.Settled := by
  cases e with
  | binary | unary => cases atom
  | hole | var | const | truth => trivial

theorem regroup_binary_atom {op : Operator} {x : Expr} (first : x.isAtom = true) (y : Expr) :
    regroup (.binary op x y) = .binary op x y := by
  cases x with
  | binary | unary => cases first
  | hole | var | const | truth => rfl

theorem regroup_unary_atom {op : Operator} {x : Expr} (atom : x.isAtom = true) :
    regroup (.unary op x) = .unary op x := by
  cases x with
  | binary | unary => cases atom
  | hole | var | const | truth => rfl

theorem settled_regroup_binary {op : Operator} {left right : Expr} (leftSettled : left.Settled)
    (rightSettled : right.Settled) : (regroup (.binary op left right)).Settled := by
  rcases regroup_eq_or (.binary op left right) with same | regrouping
  · rw [same]
    exact ⟨same, leftSettled, rightSettled⟩
  · generalize regroup (.binary op left right) = other at regrouping
    cases regrouping with
    | grouping first second third =>
        exact ⟨regroup_binary_atom first _, settled_atom first, regroup_binary_atom second _,
          settled_atom second, settled_atom third⟩

theorem settled_regroup_unary {op : Operator} {operand : Expr} (settled : operand.Settled) :
    (regroup (.unary op operand)).Settled := by
  rcases regroup_eq_or (.unary op operand) with same | regrouping
  · rw [same]
    exact ⟨same, settled⟩
  · generalize regroup (.unary op operand) = other at regrouping
    cases regrouping with
    | negation first second =>
        exact ⟨rfl, ⟨regroup_unary_atom first, settled_atom first⟩, settled_atom second⟩

/-- Three atoms have been grouped from the right. -/
theorem Settled.third_applied {outer inner : Operator} {x y z : Expr}
    (settled : (Expr.binary outer (.binary inner x y) z).Settled) (first : x.isAtom = true)
    (second : y.isAtom = true) : z.isAtom = false := by
  cases third : z.isAtom with
  | false => rfl
  | true =>
      have chosen := settled.1
      rw [(Regrouping.grouping first second third).regroup_eq] at chosen
      rw [← (Expr.binary.inj chosen).2.2] at third
      cases third

/-- No negation reaches over two atoms. -/
theorem Settled.not_negated {negation op : Operator} {x y : Expr}
    (settled : (Expr.unary negation (.binary op x y)).Settled) (first : x.isAtom = true) :
    y.isAtom = false := by
  cases second : y.isAtom with
  | false => rfl
  | true =>
      have chosen := settled.1
      rw [(Regrouping.negation first second).regroup_eq] at chosen
      cases chosen

theorem settled_regrouped (e : Expr) : e.regrouped.Settled := by
  induction e with
  | hole | var | const | truth => trivial
  | binary op left right leftHypothesis rightHypothesis =>
      exact settled_regroup_binary leftHypothesis rightHypothesis
  | unary op operand inductionHypothesis => exact settled_regroup_unary inductionHypothesis

end Expr
end HoareProof
