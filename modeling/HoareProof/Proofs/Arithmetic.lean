import HoareProof.Proofs.Equivalence
import HoareProof.Proofs.Semantics
import Mathlib.Data.Rat.Cast.Order
import Mathlib.Tactic.FieldSimp
import Mathlib.Tactic.NormNum
import Mathlib.Tactic.Ring

namespace HoareProof

/-!
The usual arithmetic as an evaluation.  A finite double is a rational number, so all
finite constants have exact rational values, and addition, subtraction,
multiplication and the comparisons mean what they mean for rational numbers.  Truth
values are one and zero, and every number but zero counts as true.

What has no rational value counts as zero: an infinite double, what is not a number, a
hole, and the result of an operator without a meaning.
-/

/-- The rational number that a double denotes. -/
def Binary64.rational : Binary64 -> ℚ
  | .finite negative units _ => (signedUnits negative units : ℚ) / unitsPerOne
  | .infinite _ => 0

/-- The rational number that a constant denotes. -/
def Number.rational : Number -> ℚ
  | .whole value => value
  | .double value => value.rational
  | .notANumber _ _ => 0

theorem Binary64.rational_eq_of_sameValue {x y : Binary64} (same : x.sameValue y = true) :
    x.rational = y.rational := by
  cases x with
  | infinite => cases y <;> simp_all [Binary64.sameValue, Binary64.rational]
  | finite n₁ u₁ _ =>
      cases y with
      | infinite => cases same
      | finite n₂ u₂ _ =>
          simp only [Binary64.sameValue, Bool.and_eq_true, Bool.or_eq_true, beq_iff_eq] at same
          rcases same with ⟨sameUnits, sameSign | zero⟩
          · rw [Binary64.rational, Binary64.rational, sameUnits, sameSign]
          · subst sameUnits zero
            rw [Binary64.rational, Binary64.rational, signedUnits_zero, signedUnits_zero]

theorem Binary64.rational_eq_of_denotes {x : Binary64} {n : Int} (denotes : x.denotes n = true) :
    x.rational = n := by
  cases x with
  | infinite => cases denotes
  | finite negative units _ =>
      simp only [Binary64.denotes, Bool.and_eq_true, Bool.or_eq_true, beq_iff_eq] at denotes
      rcases denotes with ⟨sameUnits, sign⟩
      have signed : signedUnits negative units = n * unitsPerOne := by
        rcases sign with zero | negativeIff
        · rw [sameUnits, zero, Int.natAbs_zero, Nat.zero_mul, signedUnits_zero, Int.zero_mul]
        · rw [signedUnits, sameUnits]
          by_cases below : n < 0
          · simp only [negativeIff, below, decide_true, if_true, Nat.cast_mul]
            rw [Int.ofNat_natAbs_of_nonpos (Int.le_of_lt below)]
            ring
          · simp only [negativeIff, below, decide_false, Bool.false_eq_true, if_false, Nat.cast_mul]
            rw [Int.natAbs_of_nonneg (Int.not_lt.mp below)]
      have nonzero : (unitsPerOne : ℚ) ≠ 0 := Nat.cast_ne_zero.mpr unitsPerOne_pos.ne'
      rw [Binary64.rational, signed]
      push_cast
      field_simp

theorem Number.rational_eq_of_sameNumber {a b : Number} (same : a.sameNumber b = true) :
    a.rational = b.rational := by
  cases a with
  | whole m =>
      cases b with
      | whole n => exact congrArg (fun value : Int => (value : ℚ)) (beq_iff_eq.mp same)
      | double y => exact (Binary64.rational_eq_of_denotes same).symm
      | notANumber => cases same
  | double x =>
      cases b with
      | whole n => exact Binary64.rational_eq_of_denotes same
      | double y => exact Binary64.rational_eq_of_sameValue same
      | notANumber => cases same
  | notANumber => cases same

/-- One for truth and zero for falsehood. -/
def truthRational (value : Bool) : ℚ := if value then 1 else 0

/-- The value of an operator for the values of its two operands. -/
def Operator.onRationals : Operator -> ℚ -> ℚ -> ℚ
  | .add, a, b => a + b
  | .sub, a, b => a - b
  | .mul, a, b => a * b
  | .equal, a, b => truthRational (a = b)
  | .less, a, b => truthRational (a < b)
  | .greater, a, b => truthRational (b < a)
  | .atMost, a, b => truthRational (a ≤ b)
  | .atLeast, a, b => truthRational (b ≤ a)
  | .and, a, b => truthRational (a ≠ 0 ∧ b ≠ 0)
  | .or, a, b => truthRational (a ≠ 0 ∨ b ≠ 0)
  | _, _, _ => 0

/-- The value of an operator for the value of its one operand. -/
def Operator.onRational : Operator -> ℚ -> ℚ
  | .not, a => truthRational (a = 0)
  | _, _ => 0

/-- The rational value of an assertion. -/
def Expr.rational : Expr -> Store ℚ -> ℚ
  | .hole, _ => 0
  | .var name, store => store name
  | .const value, _ => value.rational
  | .truth value, _ => truthRational value
  | .binary op left right, store => op.onRationals (left.rational store) (right.rational store)
  | .unary op operand, store => op.onRational (operand.rational store)

/-- The value of an assertion depends on nothing but the values of its variables. -/
theorem Expr.rational_congr {e : Expr} {first second : Store ℚ}
    (agree : forall name, name ∈ e.occurrences -> first name = second name) :
    e.rational first = e.rational second := by
  induction e with
  | hole | const | truth => rfl
  | var name => exact agree name List.mem_cons_self
  | binary op left right leftHypothesis rightHypothesis =>
      rw [Expr.rational, Expr.rational,
        leftHypothesis fun name member => agree name (List.mem_append_left _ member),
        rightHypothesis fun name member => agree name (List.mem_append_right _ member)]
  | unary op operand inductionHypothesis =>
      rw [Expr.rational, Expr.rational, inductionHypothesis agree]

/-- The store in which the variables have whole values. -/
def Store.ofWhole (values : Store Int) : Store ℚ :=
  fun name => values name

@[simp] theorem truthRational_ne_zero (value : Bool) : truthRational value ≠ 0 ↔ value = true := by
  cases value <;> simp [truthRational]

/-- Rational arithmetic is an evaluation. -/
def Evaluation.arithmetic : Evaluation ℚ where
  eval := Expr.rational
  holds value := value ≠ 0
  var_reads _ _ := rfl
  const_same _ _ _ _ same := Number.rational_eq_of_sameNumber same
  truth_same _ _ _ := rfl
  binary_same op left right left' right' first second sameLeft sameRight := by
    rw [Expr.rational, Expr.rational, sameLeft, sameRight]
  unary_same op operand operand' first second sameOperand := by
    rw [Expr.rational, Expr.rational, sameOperand]
  conj_holds left right store := by
    simp [Expr.conj, Expr.rational, Operator.onRationals]
  negate_holds operand store := by
    simp [Expr.negate, Expr.rational, Operator.onRational]

theorem Evaluation.arithmetic_satisfies_iff (store : Store ℚ) (e : Expr) :
    Evaluation.arithmetic.Satisfies store e ↔ e.rational store ≠ 0 :=
  Iff.rfl

theorem Evaluation.arithmetic_satisfies_disj (store : Store ℚ) (left right : Expr) :
    Evaluation.arithmetic.Satisfies store (.disj left right) ↔
      Evaluation.arithmetic.Satisfies store left ∨ Evaluation.arithmetic.Satisfies store right := by
  change truthRational _ ≠ 0 ↔ _
  rw [truthRational_ne_zero, decide_eq_true_eq]
  rfl

theorem Evaluation.arithmetic_satisfies_greater (store : Store ℚ) (left right : Expr) :
    Evaluation.arithmetic.Satisfies store (.binary .greater left right) ↔
      right.rational store < left.rational store := by
  change truthRational _ ≠ 0 ↔ _
  rw [truthRational_ne_zero, decide_eq_true_eq]

/-- A store satisfies a bound from below exactly when the bound holds of the rational
values. -/
theorem Evaluation.arithmetic_satisfies_atLeast (store : Store ℚ) (left right : Expr) :
    Evaluation.arithmetic.Satisfies store (.binary .atLeast left right) ↔
      right.rational store ≤ left.rational store := by
  change truthRational _ ≠ 0 ↔ _
  rw [truthRational_ne_zero, decide_eq_true_eq]

end HoareProof
