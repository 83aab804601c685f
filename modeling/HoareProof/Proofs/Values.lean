import HoareProof.Obligation

namespace HoareProof

/-!
Equality by value.  Assertions, statements and side conditions are compared part by
part, with constants compared by the number they denote, so the comparison is a
function of its own and not equality.  It accepts what is equal.  The comparison that
proof rules make is stricter in one point: it refuses what is not a number.
-/

@[simp] theorem Binary64.sameValue_refl (x : Binary64) : x.sameValue x = true := by
  cases x <;> simp [Binary64.sameValue]

namespace Number

@[simp] theorem sameValue_refl (a : Number) : a.sameValue a = true := by
  simp [sameValue]

/-- Two constants denote the same number exactly when they have the same value and are
numbers. -/
theorem sameNumber_eq (a b : Number) : a.sameNumber b = (a.sameValue b && a.isNumber) := by
  cases a with
  | notANumber negative label => simp [sameNumber, isNumber]
  | whole n =>
      cases b <;> simp [sameValue, sameNumber, isNumber]
  | double x =>
      cases b with
      | double y =>
          have same : x = y -> x.sameValue y = true := by
            rintro rfl
            exact x.sameValue_refl
          simpa [sameValue, sameNumber, isNumber] using same
      | whole | notANumber => simp [sameValue, sameNumber, isNumber]

end Number

namespace Expr

/-- An assertion is compared with itself constant by constant. -/
theorem compareBy_self (same : Number -> Number -> Bool) (e : Expr) :
    compareBy same e e = e.constants.all fun value => same value value := by
  induction e with
  | hole => rfl
  | var name => exact beq_self_eq_true name
  | const value => simp [compareBy, constants]
  | truth value => exact beq_self_eq_true value
  | binary op left right leftSame rightSame =>
      simp [compareBy, constants, leftSame, rightSame]
  | unary op operand operandSame => simp [compareBy, constants, operandSame]

@[simp] theorem sameValue_refl (e : Expr) : e.sameValue e = true := by
  simp [sameValue, compareBy_self]

/-- Equality of shape is equality by value, for assertions in which every constant is a
number. -/
theorem sameShape_eq (a b : Expr) : a.sameShape b = (a.sameValue b && a.isNumeric) := by
  unfold sameShape sameValue isNumeric
  induction a generalizing b with
  | hole | var | truth => cases b <;> simp [compareBy, constants]
  | const value =>
      cases b <;> simp [compareBy, constants, Number.sameNumber_eq]
  | binary op left right leftHypothesis rightHypothesis =>
      cases b <;> simp [compareBy, constants, leftHypothesis, rightHypothesis, Bool.and_assoc,
        Bool.and_left_comm]
  | unary op operand inductionHypothesis =>
      cases b <;> simp [compareBy, constants, inductionHypothesis, Bool.and_assoc]

@[simp] theorem isNumeric_binary (op : Operator) (left right : Expr) :
    (binary op left right).isNumeric = (left.isNumeric && right.isNumeric) :=
  List.all_append

@[simp] theorem isNumeric_unary (op : Operator) (operand : Expr) :
    (unary op operand).isNumeric = operand.isNumeric :=
  rfl

/-- A substitution keeps the constants of the assertion. -/
theorem isNumeric_of_subst {e : Expr} {name : String} {replacement : Expr}
    (numeric : (e.subst name replacement).isNumeric = true) : e.isNumeric = true := by
  induction e with
  | hole | var | truth => rfl
  | const value => exact numeric
  | binary op left right leftHypothesis rightHypothesis =>
      simp only [subst, isNumeric_binary, Bool.and_eq_true] at numeric ⊢
      exact ⟨leftHypothesis numeric.1, rightHypothesis numeric.2⟩
  | unary op operand inductionHypothesis => exact inductionHypothesis numeric

/-- Only a constant that is not a number makes an assertion differ from itself. -/
@[simp] theorem sameShape_self (e : Expr) : e.sameShape e = e.isNumeric := by
  simp [sameShape_eq]

theorem sameShape_iff {a b : Expr} :
    a.sameShape b = true ↔ a.sameValue b = true ∧ a.isNumeric = true := by
  rw [sameShape_eq, Bool.and_eq_true]

theorem sameValue_of_sameShape {a b : Expr} (same : a.sameShape b = true) :
    a.sameValue b = true :=
  (sameShape_iff.mp same).1

end Expr

attribute [local simp] Stmt.sameValue

/-- Statements have their own value, whatever constants are in them. -/
@[simp] theorem Stmt.sameValue_refl (stmt : Stmt) : stmt.sameValue stmt = true := by
  induction stmt with
  | hole => rfl
  | skip => rfl
  | assign stage target value => simp
  | seq stage first second firstSame secondSame => simp [firstSame, secondSame]
  | cond stage guard thenBranch elseBranch thenSame elseSame => simp [thenSame, elseSame]
  | loop stage guard body bodySame => simp [bodySame]

/-! ## Statements of the same value have the same shape -/

namespace Stmt

variable {stmt : Stmt} {stage : Stage}

/-- A statement has the value of `skip` only if it is `skip`. -/
theorem eq_skip_of_sameValue (same : stmt.sameValue .skip = true) : stmt = .skip := by
  cases stmt <;> simp only [Stmt.sameValue, Bool.false_eq_true] at same
  rfl

/-- An assignment has the value of another one only if both are to the same variable, at the same
stage.  The three kinds of compound statements are alike. -/
theorem exists_assign_of_sameValue {target : String} {value : Expr}
    (same : stmt.sameValue (.assign stage target value) = true) :
    ∃ value', stmt = .assign stage target value' ∧ value'.sameValue value = true := by
  cases stmt <;> simp only [Stmt.sameValue, Bool.false_eq_true, Bool.and_eq_true,
    beq_iff_eq] at same
  rcases same with ⟨⟨sameStage, sameTarget⟩, sameValue⟩
  subst sameStage sameTarget
  exact ⟨_, rfl, sameValue⟩

theorem exists_seq_of_sameValue {first second : Stmt}
    (same : stmt.sameValue (.seq stage first second) = true) :
    ∃ first' second', stmt = .seq stage first' second' ∧
      first'.sameValue first = true ∧ second'.sameValue second = true := by
  cases stmt <;> simp only [Stmt.sameValue, Bool.false_eq_true, Bool.and_eq_true,
    beq_iff_eq] at same
  rcases same with ⟨⟨sameStage, sameFirst⟩, sameSecond⟩
  subst sameStage
  exact ⟨_, _, rfl, sameFirst, sameSecond⟩

theorem exists_cond_of_sameValue {guard : Expr} {thenBranch elseBranch : Stmt}
    (same : stmt.sameValue (.cond stage guard thenBranch elseBranch) = true) :
    ∃ guard' thenBranch' elseBranch', stmt = .cond stage guard' thenBranch' elseBranch' ∧
      guard'.sameValue guard = true ∧ thenBranch'.sameValue thenBranch = true ∧
        elseBranch'.sameValue elseBranch = true := by
  cases stmt <;> simp only [Stmt.sameValue, Bool.false_eq_true, Bool.and_eq_true,
    beq_iff_eq] at same
  rcases same with ⟨⟨⟨sameStage, sameGuard⟩, sameThen⟩, sameElse⟩
  subst sameStage
  exact ⟨_, _, _, rfl, sameGuard, sameThen, sameElse⟩

theorem exists_loop_of_sameValue {guard : Expr} {body : Stmt}
    (same : stmt.sameValue (.loop stage guard body) = true) :
    ∃ guard' body', stmt = .loop stage guard' body' ∧
      guard'.sameValue guard = true ∧ body'.sameValue body = true := by
  cases stmt <;> simp only [Stmt.sameValue, Bool.false_eq_true, Bool.and_eq_true,
    beq_iff_eq] at same
  rcases same with ⟨⟨sameStage, sameGuard⟩, sameBody⟩
  subst sameStage
  exact ⟨_, _, rfl, sameGuard, sameBody⟩

end Stmt

@[simp] theorem Step.sameValue_refl (step : Step) : step.sameValue step = true :=
  beq_self_eq_true step.name?

@[simp] theorem Obligation.sameValues_refl (obligations : List Obligation) :
    Obligation.sameValues obligations obligations = true := by
  induction obligations with
  | nil => rfl
  | cons obligation rest restSame =>
      simp [Obligation.sameValues, Obligation.sameValue, restSame]

end HoareProof
