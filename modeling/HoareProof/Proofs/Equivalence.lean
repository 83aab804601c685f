import HoareProof.Number.Arithmetic
import HoareProof.Proofs.Values

namespace HoareProof

/-!
Equality by value is an equivalence.  A finite number is a count of units, the least
positive double, and comparing two numbers of either kind is comparing their counts and
their signs, where the sign of zero does not count.  So constants are compared by what they
denote, what is not a number by itself, and everything that is made of constants is compared
part by part.
-/

namespace Binary64

theorem unitsPerOne_pos : 0 < unitsPerOne := by
  unfold unitsPerOne
  generalize 1074 = exponent
  exact Nat.two_pow_pos exponent

theorem signedUnits_zero (negative : Bool) : signedUnits negative 0 = 0 := by
  cases negative <;> rfl

theorem signedUnits_eq_iff {n₁ n₂ : Bool} {u₁ u₂ : Nat} :
    signedUnits n₁ u₁ = signedUnits n₂ u₂ ↔ u₁ = u₂ ∧ (n₁ = n₂ ∨ u₁ = 0) := by
  cases n₁ <;> cases n₂ <;>
    simp only [signedUnits, Bool.false_eq_true, if_false, if_true, true_or, and_true, false_or,
      reduceCtorEq] <;> omega

/-- A whole number of ones, counted in units. -/
theorem mul_eq_signedUnits_iff {perOne : Nat} (positive : 0 < perOne) {n : Int} {negative : Bool}
    {units : Nat} :
    n * perOne = signedUnits negative units ↔
      units = n.natAbs * perOne ∧ (n = 0 ∨ negative = decide (n < 0)) := by
  have count : n * perOne = signedUnits (decide (n < 0)) (n.natAbs * perOne) := by
    by_cases below : n < 0
    · have magnitude : (n.natAbs : Int) = -n := Int.ofNat_natAbs_of_nonpos (Int.le_of_lt below)
      rw [signedUnits, decide_eq_true below, if_pos rfl, Int.natCast_mul, magnitude, Int.neg_mul,
        Int.neg_neg]
    · have magnitude : (n.natAbs : Int) = n := Int.natAbs_of_nonneg (Int.not_lt.mp below)
      rw [signedUnits, decide_eq_false below, if_neg Bool.false_ne_true, Int.natCast_mul, magnitude]
  have zero : n.natAbs * perOne = 0 ↔ n = 0 := by
    rw [Nat.mul_eq_zero, Int.natAbs_eq_zero, or_iff_left (Nat.ne_of_gt positive)]
  rw [count, signedUnits_eq_iff, zero, or_comm, eq_comm, @eq_comm Bool]

end Binary64

namespace Number

open Binary64

/-- What a constant denotes: a count of units with its sign, an infinity of a sign, or nothing
but itself. -/
def amount : Number -> Int ⊕ Bool ⊕ Bool × Nat
  | .whole n => .inl (n * unitsPerOne)
  | .double (.finite negative units _) => .inl (signedUnits negative units)
  | .double (.infinite negative) => .inr (.inl negative)
  | .notANumber negative label => .inr (.inr (negative, label))

theorem denotes_iff_amount {x : Binary64} {n : Int} :
    x.denotes n = true ↔ (Number.whole n).amount = (Number.double x).amount := by
  cases x with
  | infinite negative => simp only [Binary64.denotes, amount, reduceCtorEq, Bool.false_eq_true]
  | finite negative units exact =>
      rw [amount, amount, Sum.inl.injEq, mul_eq_signedUnits_iff unitsPerOne_pos]
      simp only [Binary64.denotes, Bool.and_eq_true, Bool.or_eq_true, beq_iff_eq]

theorem sameDouble_iff_amount {x y : Binary64} :
    x.sameValue y = true ↔ (Number.double x).amount = (Number.double y).amount := by
  cases x with
  | infinite negative =>
      cases y with
      | finite other count countExact =>
          simp only [Binary64.sameValue, amount, reduceCtorEq, Bool.false_eq_true]
      | infinite other =>
          rw [amount, amount, Sum.inr.injEq, Sum.inl.injEq]
          exact beq_iff_eq
  | finite negative units exact =>
      cases y with
      | infinite other =>
          simp only [Binary64.sameValue, amount, reduceCtorEq, Bool.false_eq_true]
      | finite other count countExact =>
          rw [amount, amount, Sum.inl.injEq, signedUnits_eq_iff]
          simp only [Binary64.sameValue, Bool.and_eq_true, Bool.or_eq_true, beq_iff_eq]

/-- A number is compared by what it denotes. -/
theorem sameNumber_iff_amount {a b : Number} (isNumber : a.isNumber = true) :
    a.sameNumber b = true ↔ a.amount = b.amount := by
  cases a with
  | notANumber negative label => cases isNumber
  | whole m =>
      cases b with
      | notANumber negative label =>
          simp only [sameNumber, amount, reduceCtorEq, Bool.false_eq_true]
      | double y => exact denotes_iff_amount
      | whole n =>
          have nonzero : (unitsPerOne : Int) ≠ 0 :=
            Int.natCast_ne_zero.mpr (Nat.ne_of_gt unitsPerOne_pos)
          rw [amount, amount, Sum.inl.injEq, Int.mul_eq_mul_right_iff nonzero]
          exact beq_iff_eq
  | double x =>
      cases b with
      | notANumber negative label =>
          cases x <;> simp only [sameNumber, amount, reduceCtorEq, Sum.inr.injEq, Bool.false_eq_true]
      | whole n => exact denotes_iff_amount.trans eq_comm
      | double y => exact sameDouble_iff_amount

/-- Constants are compared by what they denote. -/
theorem sameValue_iff_amount {a b : Number} :
    a.sameValue b = true ↔ a.amount = b.amount := by
  cases isNumber : a.isNumber with
  | true =>
      rw [← sameNumber_iff_amount isNumber, sameNumber_eq, isNumber, Bool.and_true]
  | false =>
      cases a with
      | whole | double => cases isNumber
      | notANumber negative label =>
          cases b with
          | notANumber other label' => simp [sameValue, sameNumber, amount]
          | whole n =>
              simp only [sameValue, sameNumber, amount, reduceCtorEq, Bool.or_false, beq_iff_eq]
          | double y =>
              cases y <;> simp only [sameValue, sameNumber, amount, reduceCtorEq, Sum.inr.injEq,
                Bool.or_false, beq_iff_eq]

theorem sameValue_symm {a b : Number} (same : a.sameValue b = true) : b.sameValue a = true :=
  sameValue_iff_amount.mpr (sameValue_iff_amount.mp same).symm

theorem sameValue_trans {a b c : Number} (first : a.sameValue b = true)
    (second : b.sameValue c = true) : a.sameValue c = true :=
  sameValue_iff_amount.mpr
    ((sameValue_iff_amount.mp first).trans (sameValue_iff_amount.mp second))

theorem isNumber_of_sameValue {a b : Number} (same : a.sameValue b = true) :
    a.isNumber = b.isNumber := by
  cases a <;> cases b <;> simp_all [sameValue, sameNumber, isNumber]

end Number

namespace Expr

variable {e : Expr}

attribute [local simp] sameValue compareBy

theorem sameValue_hole_iff : e.sameValue .hole = true ↔ e = .hole := by
  cases e <;> simp

theorem sameValue_var_iff {name : String} : e.sameValue (.var name) = true ↔ e = .var name := by
  cases e <;> simp

theorem sameValue_truth_iff {value : Bool} :
    e.sameValue (.truth value) = true ↔ e = .truth value := by
  cases e <;> simp

theorem sameValue_const_iff {value : Number} :
    e.sameValue (.const value) = true ↔
      ∃ value', e = .const value' ∧ value'.sameValue value = true := by
  cases e <;> simp

theorem sameValue_binary_iff {op : Operator} {left right : Expr} :
    e.sameValue (.binary op left right) = true ↔
      ∃ left' right', e = .binary op left' right' ∧ left'.sameValue left = true ∧
        right'.sameValue right = true := by
  cases e <;> simp [and_assoc]

theorem sameValue_unary_iff {op : Operator} {operand : Expr} :
    e.sameValue (.unary op operand) = true ↔
      ∃ operand', e = .unary op operand' ∧ operand'.sameValue operand = true := by
  cases e <;> simp [and_assoc]

theorem sameValue_symm {a b : Expr} (same : a.sameValue b = true) : b.sameValue a = true := by
  induction b generalizing a with
  | hole =>
      cases sameValue_hole_iff.mp same
      exact same
  | var name =>
      cases sameValue_var_iff.mp same
      exact same
  | truth value =>
      cases sameValue_truth_iff.mp same
      exact same
  | const value =>
      rcases sameValue_const_iff.mp same with ⟨value', rfl, sameNumber⟩
      exact Number.sameValue_symm sameNumber
  | binary op left right leftHypothesis rightHypothesis =>
      rcases sameValue_binary_iff.mp same with ⟨left', right', rfl, sameLeft, sameRight⟩
      exact sameValue_binary_iff.mpr
        ⟨left, right, rfl, leftHypothesis sameLeft, rightHypothesis sameRight⟩
  | unary op operand inductionHypothesis =>
      rcases sameValue_unary_iff.mp same with ⟨operand', rfl, sameOperand⟩
      exact sameValue_unary_iff.mpr ⟨operand, rfl, inductionHypothesis sameOperand⟩

theorem sameValue_trans {a b c : Expr} (first : a.sameValue b = true)
    (second : b.sameValue c = true) : a.sameValue c = true := by
  induction c generalizing a b with
  | hole =>
      cases sameValue_hole_iff.mp second
      exact first
  | var name =>
      cases sameValue_var_iff.mp second
      exact first
  | truth value =>
      cases sameValue_truth_iff.mp second
      exact first
  | const value =>
      rcases sameValue_const_iff.mp second with ⟨value', rfl, sameNumber⟩
      rcases sameValue_const_iff.mp first with ⟨value'', rfl, sameOther⟩
      exact Number.sameValue_trans sameOther sameNumber
  | binary op left right leftHypothesis rightHypothesis =>
      rcases sameValue_binary_iff.mp second with ⟨left', right', rfl, sameLeft, sameRight⟩
      rcases sameValue_binary_iff.mp first with ⟨left'', right'', rfl, otherLeft, otherRight⟩
      exact sameValue_binary_iff.mpr ⟨left'', right'', rfl, leftHypothesis otherLeft sameLeft,
        rightHypothesis otherRight sameRight⟩
  | unary op operand inductionHypothesis =>
      rcases sameValue_unary_iff.mp second with ⟨operand', rfl, sameOperand⟩
      rcases sameValue_unary_iff.mp first with ⟨operand'', rfl, otherOperand⟩
      exact sameValue_unary_iff.mpr
        ⟨operand'', rfl, inductionHypothesis otherOperand sameOperand⟩

/-- Assertions of the value of a third have the same value. -/
theorem sameValue_of_common {a b c : Expr} (first : a.sameValue c = true)
    (second : b.sameValue c = true) : a.sameValue b = true :=
  sameValue_trans first (sameValue_symm second)

/-- Constants of the same value are numbers in the same places. -/
theorem isNumeric_of_sameValue {a b : Expr} (same : a.sameValue b = true) :
    a.isNumeric = b.isNumeric := by
  unfold isNumeric
  induction b generalizing a with
  | hole => rw [sameValue_hole_iff.mp same]
  | var name => rw [sameValue_var_iff.mp same]
  | truth value => rw [sameValue_truth_iff.mp same]
  | const value =>
      rcases sameValue_const_iff.mp same with ⟨other, rfl, sameNumber⟩
      simp only [constants, List.all_cons, List.all_nil, Number.isNumber_of_sameValue sameNumber]
  | binary op left right leftHypothesis rightHypothesis =>
      rcases sameValue_binary_iff.mp same with ⟨left', right', rfl, sameLeft, sameRight⟩
      rw [constants, constants, List.all_append, List.all_append, leftHypothesis sameLeft,
        rightHypothesis sameRight]
  | unary op operand inductionHypothesis =>
      rcases sameValue_unary_iff.mp same with ⟨operand', rfl, sameOperand⟩
      rw [constants, constants, inductionHypothesis sameOperand]

theorem isNumeric_of_sameShape {a b : Expr} (same : a.sameShape b = true) :
    a.isNumeric = true ∧ b.isNumeric = true := by
  rcases sameShape_iff.mp same with ⟨sameValue, numeric⟩
  exact ⟨numeric, (isNumeric_of_sameValue sameValue).symm.trans numeric⟩

theorem sameShape_symm {a b : Expr} (same : a.sameShape b = true) : b.sameShape a = true :=
  sameShape_iff.mpr
    ⟨sameValue_symm (sameValue_of_sameShape same), (isNumeric_of_sameShape same).2⟩

/-- What has the value of an assertion has the value of all that is of its shape. -/
theorem sameValue_of_commonShape {a b c : Expr} (first : a.sameValue c = true)
    (second : b.sameShape c = true) : a.sameValue b = true :=
  sameValue_of_common first (sameValue_of_sameShape second)

theorem sameShape_trans {a b c : Expr} (first : a.sameShape b = true)
    (second : b.sameShape c = true) : a.sameShape c = true :=
  sameShape_iff.mpr ⟨sameValue_trans (sameValue_of_sameShape first) (sameValue_of_sameShape second),
    (isNumeric_of_sameShape first).1⟩

theorem sameValue_conj {left right left' right' : Expr} (sameLeft : left.sameValue left' = true)
    (sameRight : right.sameValue right' = true) :
    (conj left right).sameValue (conj left' right') = true :=
  sameValue_binary_iff.mpr ⟨left, right, rfl, sameLeft, sameRight⟩

theorem sameValue_negate {operand operand' : Expr} (same : operand.sameValue operand' = true) :
    (negate operand).sameValue (negate operand') = true :=
  sameValue_unary_iff.mpr ⟨operand, rfl, same⟩

end Expr

namespace Stmt

theorem sameValue_symm {a b : Stmt} (same : a.sameValue b = true) : b.sameValue a = true := by
  induction b generalizing a with
  | hole => cases a <;> first | rfl | cases same
  | skip =>
      cases eq_skip_of_sameValue same
      rfl
  | assign stage target value =>
      rcases exists_assign_of_sameValue same with ⟨value', rfl, sameRight⟩
      simp [sameValue, Expr.sameValue_symm sameRight]
  | seq stage first second firstHypothesis secondHypothesis =>
      rcases exists_seq_of_sameValue same with ⟨first', second', rfl, sameFirst, sameSecond⟩
      simp [sameValue, firstHypothesis sameFirst, secondHypothesis sameSecond]
  | cond stage guard thenBranch elseBranch thenHypothesis elseHypothesis =>
      rcases exists_cond_of_sameValue same with
        ⟨guard', thenBranch', elseBranch', rfl, sameGuard, sameThen, sameElse⟩
      simp [sameValue, Expr.sameValue_symm sameGuard, thenHypothesis sameThen,
        elseHypothesis sameElse]
  | loop stage guard body inductionHypothesis =>
      rcases exists_loop_of_sameValue same with ⟨guard', body', rfl, sameGuard, sameBody⟩
      simp [sameValue, Expr.sameValue_symm sameGuard, inductionHypothesis sameBody]

theorem sameValue_trans {a b c : Stmt} (first : a.sameValue b = true)
    (second : b.sameValue c = true) : a.sameValue c = true := by
  induction c generalizing a b with
  | hole =>
      cases b with
      | hole => exact first
      | skip | assign | seq | cond | loop => cases second
  | skip =>
      cases eq_skip_of_sameValue second
      exact first
  | assign stage target value =>
      rcases exists_assign_of_sameValue second with ⟨value', rfl, sameRight⟩
      rcases exists_assign_of_sameValue first with ⟨value'', rfl, otherRight⟩
      simp [sameValue, Expr.sameValue_trans otherRight sameRight]
  | seq stage left right leftHypothesis rightHypothesis =>
      rcases exists_seq_of_sameValue second with ⟨left', right', rfl, sameLeft, sameRight⟩
      rcases exists_seq_of_sameValue first with ⟨left'', right'', rfl, otherLeft, otherRight⟩
      simp [sameValue, leftHypothesis otherLeft sameLeft, rightHypothesis otherRight sameRight]
  | cond stage guard thenBranch elseBranch thenHypothesis elseHypothesis =>
      rcases exists_cond_of_sameValue second with
        ⟨guard', thenBranch', elseBranch', rfl, sameGuard, sameThen, sameElse⟩
      rcases exists_cond_of_sameValue first with
        ⟨guard'', thenBranch'', elseBranch'', rfl, otherGuard, otherThen, otherElse⟩
      simp [sameValue, Expr.sameValue_trans otherGuard sameGuard,
        thenHypothesis otherThen sameThen, elseHypothesis otherElse sameElse]
  | loop stage guard body inductionHypothesis =>
      rcases exists_loop_of_sameValue second with ⟨guard', body', rfl, sameGuard, sameBody⟩
      rcases exists_loop_of_sameValue first with ⟨guard'', body'', rfl, otherGuard, otherBody⟩
      simp [sameValue, Expr.sameValue_trans otherGuard sameGuard,
        inductionHypothesis otherBody sameBody]

theorem sameValue_of_common {a b c : Stmt} (first : a.sameValue c = true)
    (second : b.sameValue c = true) : a.sameValue b = true :=
  sameValue_trans first (sameValue_symm second)

end Stmt

theorem Triple.sameValue_iff {a b : Triple} :
    a.sameValue b = true ↔
      a.pre.sameValue b.pre = true ∧ a.stmt.sameValue b.stmt = true ∧
        a.post.sameValue b.post = true := by
  simp only [Triple.sameValue, Bool.and_eq_true, and_assoc]

end HoareProof
