import HoareProof.Proofs.Arithmetic
import HoareProof.Proofs.Rows
import HoareProof.Proofs.Rules

namespace HoareProof

/-!
What lenient comparison takes for the same.  It does not see how three atoms are grouped and how
far a negation in front of two atoms reaches, and this is all that it does not see, as long as no
name contains a word of the normal form.  So it accepts a different assertion exactly where the
grouping matters: sums, differences behind sums, products, conjunctions and disjunctions may be
grouped from either side, any other two operators may not, and a negation may never be moved.
-/

namespace Operator

/-- Whether three operands may be grouped from either side. -/
def regroups (inner outer : Operator) : Bool :=
  match inner, outer with
  | .add, .add | .add, .sub | .mul, .mul | .and, .and | .or, .or => true
  | _, _ => false

theorem onRationals_regroup {inner outer : Operator} (regroups : inner.regroups outer = true)
    (x y z : ℚ) :
    outer.onRationals (inner.onRationals x y) z = inner.onRationals x (outer.onRationals y z) := by
  unfold Operator.regroups at regroups
  split at regroups
  · exact add_assoc x y z
  · exact add_sub_assoc x y z
  · exact mul_assoc x y z
  · simp [onRationals, and_assoc]
  · simp [onRationals, or_assoc]
  · cases regroups

/-- The operators that join two operands. -/
def binaries : List Operator :=
  [.add, .sub, .mul, .equal, .less, .greater, .atMost, .atLeast, .and, .or]

theorem mem_binaries {op : Operator} (binary : op.isBinary = true) : op ∈ binaries := by
  cases op with
  | not | other => cases binary
  | _ => decide

/-- Other operators may not be grouped from either side: one of four choices of values shows it. -/
theorem exists_onRationals_ne {inner outer : Operator} (innerBinary : inner.isBinary = true)
    (outerBinary : outer.isBinary = true) (distinct : inner.regroups outer = false) :
    ∃ x y z : Int, outer.onRationals (inner.onRationals x y) z ≠
      inner.onRationals x (outer.onRationals y z) := by
  have found : forall inner, inner ∈ binaries -> forall outer, outer ∈ binaries ->
      inner.regroups outer = false ->
        ∃ values, values ∈ [((3, 3, 3) : Int × Int × Int), (0, -1, 2), (1, -1, 0), (-1, -1, 0)] ∧
          outer.onRationals (inner.onRationals values.1 values.2.1) values.2.2 ≠
            inner.onRationals values.1 (outer.onRationals values.2.1 values.2.2) := by
    decide +kernel
  rcases found inner (mem_binaries innerBinary) outer (mem_binaries outerBinary) distinct with
    ⟨values, _, differ⟩
  exact ⟨values.1, values.2.1, values.2.2, differ⟩

/-- Under no operator may a negation be moved from both operands to the first one. -/
theorem exists_onRational_ne {op : Operator} (binary : op.isBinary = true) :
    ∃ x y : Int, Operator.not.onRational (op.onRationals x y) ≠
      op.onRationals (Operator.not.onRational x) y := by
  have found : forall op, op ∈ binaries ->
      ∃ values, values ∈ [((0, 2) : Int × Int), (-1, 0)] ∧
        Operator.not.onRational (op.onRationals values.1 values.2) ≠
          op.onRationals (Operator.not.onRational values.1) values.2 := by
    decide +kernel
  rcases found op (mem_binaries binary) with ⟨values, _, differ⟩
  exact ⟨values.1, values.2, differ⟩

end Operator

namespace Expr

/-! ## Where the grouping does not matter -/

/-- Whether the other grouping of an application means the same, if there is one. -/
def steadyHere : Expr -> Bool
  | .binary outer (.binary inner x y) z =>
      !(x.isAtom && y.isAtom && z.isAtom) || inner.regroups outer
  | .binary inner x (.binary outer y z) =>
      !(x.isAtom && y.isAtom && z.isAtom) || inner.regroups outer
  | .binary _ (.unary _ x) y => !(x.isAtom && y.isAtom)
  | .unary _ (.binary _ x y) => !(x.isAtom && y.isAtom)
  | _ => true

attribute [local simp] steadyHere

/-- The same throughout an assertion. -/
def isSteady : Expr -> Bool
  | .binary op left right =>
      steadyHere (.binary op left right) && (left.isSteady && right.isSteady)
  | .unary op operand => steadyHere (.unary op operand) && operand.isSteady
  | _ => true

/-- Chooses a grouping where it does not matter, and leaves negations where they are. -/
def regroupSafely : Expr -> Expr
  | .binary outer (.binary inner x y) z =>
      if inner.regroups outer then regroup (.binary outer (.binary inner x y) z)
      else .binary outer (.binary inner x y) z
  | e => e

/-- The same throughout an assertion. -/
def safelyRegrouped : Expr -> Expr
  | .binary op left right => regroupSafely (.binary op left.safelyRegrouped right.safelyRegrouped)
  | .unary op operand => .unary op operand.safelyRegrouped
  | e => e

theorem isSteady_atom {e : Expr} (atom : e.isAtom = true) : e.isSteady = true := by
  cases e with
  | binary | unary => cases atom
  | hole | var | const | truth => rfl

theorem steadyHere_atoms {op : Operator} {x y : Expr} (first : x.isAtom = true)
    (second : y.isAtom = true) : steadyHere (.binary op x y) = true := by
  cases x with
  | binary | unary => cases first
  | hole | var | const | truth =>
      cases y with
      | binary | unary => cases second
      | hole | var | const | truth => rfl

section Groupings

variable {inner outer op negation : Operator} {x y z : Expr} (first : x.isAtom = true)
  (second : y.isAtom = true) (third : z.isAtom = true)

include first second third in
theorem steadyHere_left :
    steadyHere (.binary outer (.binary inner x y) z) = inner.regroups outer := by
  simp [first, second, third]

include first second third in
theorem steadyHere_right :
    steadyHere (.binary inner x (.binary outer y z)) = inner.regroups outer := by
  cases x with
  | binary | unary => cases first
  | hole | var | const | truth => simp [first, second, third]

include first second in
theorem steadyHere_inside : steadyHere (.binary op (.unary negation x) y) = false := by
  cases y with
  | binary | unary => cases second
  | hole | var | const | truth => simp [first, second]

include first second in
theorem steadyHere_outside : steadyHere (.unary negation (.binary op x y)) = false := by
  simp [first, second]

end Groupings

/-- Both groupings are steady, or neither is. -/
theorem isSteady_regroup (e : Expr) : e.regroup.isSteady = e.isSteady := by
  apply regroup_keeps isSteady
  intro e other regrouping
  cases regrouping with
  | grouping first second third =>
      simp only [isSteady, steadyHere_left first second third, steadyHere_right first second third,
        steadyHere_atoms first second, steadyHere_atoms second third, isSteady_atom first,
        isSteady_atom second, isSteady_atom third, Bool.and_true]
  | negation first second =>
      simp only [isSteady, steadyHere_inside first second, steadyHere_outside first second,
        Bool.false_and]

theorem isAtom_of_tall {e : Expr} (tall : e.isBare = false) : e.isAtom = false := by
  cases e with
  | binary | unary => rfl
  | hole | var | const | truth => cases tall

/-- An operand in parentheses leaves only one grouping. -/
theorem steadyHere_of_tall {op : Operator} {left right : Expr}
    (tall : left.isBare = false ∨ right.isBare = false) :
    steadyHere (.binary op left right) = true := by
  unfold steadyHere
  split
  next same =>
    cases same
    rcases tall with leftTall | rightTall
    · rw [isBare] at leftTall
      simp [leftTall]
    · simp [isAtom_of_tall rightTall]
  next same =>
    cases same
    rcases tall with leftTall | rightTall
    · simp [isAtom_of_tall leftTall]
    · rw [isBare] at rightTall
      simp [Bool.and_assoc, rightTall]
  next same =>
    cases same
    rcases tall with leftTall | rightTall
    · rw [isBare] at leftTall
      simp [leftTall]
    · simp [isAtom_of_tall rightTall]
  next same => cases same
  next => rfl

theorem steadyHere_unary_of_tall {op : Operator} {operand : Expr} (tall : operand.isBare = false) :
    steadyHere (.unary op operand) = true := by
  cases operand with
  | hole | var | const | truth => cases tall
  | unary => rfl
  | binary inner x y =>
      rw [isBare] at tall
      simp [tall]

theorem isBare_regrouped (e : Expr) : e.regrouped.isBare = e.isBare := by
  have kept : forall e : Expr, e.regroup.isBare = e.isBare := by
    apply regroup_keeps isBare
    intro e other regrouping
    cases regrouping <;> simp [isBare]
  cases e with
  | hole | var | const | truth => rfl
  | binary op left right => rw [regrouped, kept, isBare, isBare, isAtom_regrouped, isAtom_regrouped]
  | unary op operand => rw [regrouped, kept, isBare, isBare, isAtom_regrouped]

theorem regrouped_of_bare {e : Expr} (bare : e.isBare = true) : e.regrouped = e := by
  have ofAtom : forall x : Expr, x.isAtom = true -> x.regrouped = x := by
    intro x atom
    cases x with
    | binary | unary => cases atom
    | hole | var | const | truth => rfl
  cases e with
  | hole | var | const | truth => rfl
  | binary op left right =>
      rcases Bool.and_eq_true_iff.mp bare with ⟨leftAtom, rightAtom⟩
      rw [regrouped, ofAtom left leftAtom, ofAtom right rightAtom, regroup_binary_atom leftAtom]
  | unary op operand => rw [regrouped, ofAtom operand bare, regroup_unary_atom bare]

/-- Whether an application is steady does not depend on the choices in its operands. -/
theorem steadyHere_regrouped_binary (op : Operator) (left right : Expr) :
    steadyHere (.binary op left.regrouped right.regrouped) = steadyHere (.binary op left right) := by
  by_cases tall : left.isBare = false ∨ right.isBare = false
  · rw [steadyHere_of_tall tall, steadyHere_of_tall]
    rwa [isBare_regrouped, isBare_regrouped]
  · simp only [not_or, Bool.not_eq_false] at tall
    rw [regrouped_of_bare tall.1, regrouped_of_bare tall.2]

theorem steadyHere_regrouped_unary (op : Operator) (operand : Expr) :
    steadyHere (.unary op operand.regrouped) = steadyHere (.unary op operand) := by
  cases bare : operand.isBare with
  | true => rw [regrouped_of_bare bare]
  | false =>
      rw [steadyHere_unary_of_tall bare, steadyHere_unary_of_tall]
      rwa [isBare_regrouped]

theorem isSteady_regrouped (e : Expr) : e.regrouped.isSteady = e.isSteady := by
  induction e with
  | hole | var | const | truth => rfl
  | binary op left right leftHypothesis rightHypothesis =>
      rw [regrouped, isSteady_regroup, isSteady, isSteady, steadyHere_regrouped_binary,
        leftHypothesis, rightHypothesis]
  | unary op operand inductionHypothesis =>
      rw [regrouped, isSteady_regroup, isSteady, isSteady, steadyHere_regrouped_unary,
        inductionHypothesis]

/-! ## Values -/

/-- The choice of a grouping that does not matter keeps the value. -/
theorem rational_regroup {e : Expr} (steady : e.steadyHere = true) (store : Store ℚ) :
    e.regroup.rational store = e.rational store := by
  rcases regroup_eq_or e with same | regrouping
  · rw [same]
  · generalize e.regroup = other at regrouping
    cases regrouping with
    | grouping first second third =>
        rw [steadyHere_left first second third] at steady
        exact (Operator.onRationals_regroup steady _ _ _).symm
    | negation first second =>
        rw [steadyHere_outside first second] at steady
        cases steady

theorem rational_regrouped {e : Expr} (steady : e.isSteady = true) (store : Store ℚ) :
    e.regrouped.rational store = e.rational store := by
  induction e with
  | hole | var | const | truth => rfl
  | binary op left right leftHypothesis rightHypothesis =>
      simp only [isSteady, Bool.and_eq_true] at steady
      rcases steady with ⟨here, leftSteady, rightSteady⟩
      rw [← steadyHere_regrouped_binary] at here
      rw [regrouped, rational_regroup here, rational, rational, leftHypothesis leftSteady,
        rightHypothesis rightSteady]
  | unary op operand inductionHypothesis =>
      simp only [isSteady, Bool.and_eq_true] at steady
      rcases steady with ⟨here, operandSteady⟩
      rw [← steadyHere_regrouped_unary] at here
      rw [regrouped, rational_regroup here, rational, rational, inductionHypothesis operandSteady]

theorem rational_regroupSafely (e : Expr) (store : Store ℚ) :
    e.regroupSafely.rational store = e.rational store := by
  unfold regroupSafely
  split
  · split
    next regroups => exact rational_regroup (by simp [regroups]) store
    next => rfl
  · rfl

theorem rational_safelyRegrouped (e : Expr) (store : Store ℚ) :
    e.safelyRegrouped.rational store = e.rational store := by
  induction e with
  | hole | var | const | truth => rfl
  | binary op left right leftHypothesis rightHypothesis =>
      rw [safelyRegrouped, rational_regroupSafely, rational, rational, leftHypothesis,
        rightHypothesis]
  | unary op operand inductionHypothesis =>
      rw [safelyRegrouped, rational, rational, inductionHypothesis]

/-- Assertions that differ in nothing but groupings have the same value if the groupings of one
of them do not matter. -/
theorem rational_eq_of_regrouped_eq {a b : Expr} (same : a.regrouped = b.regrouped)
    (steady : a.isSteady = true ∨ b.isSteady = true) (store : Store ℚ) :
    a.rational store = b.rational store := by
  have alike : a.isSteady = b.isSteady := by
    rw [← isSteady_regrouped a, same, isSteady_regrouped b]
  have bothSteady : a.isSteady = true ∧ b.isSteady = true := by
    rcases steady with aSteady | bSteady
    · exact ⟨aSteady, alike ▸ aSteady⟩
    · exact ⟨alike ▸ bSteady, bSteady⟩
  rw [← rational_regrouped bothSteady.1, same, rational_regrouped bothSteady.2]

end Expr

namespace Derivation

/-- Lenient comparison takes two assertions for the same exactly when both can be written, and
they differ in nothing but the grouping of three atoms and the reach of a negation in front of two.
They have the same value in every state of whole numbers if the groupings of one of them do not
matter, or if those in which they differ do not.  The operators for which a grouping does not
matter are exactly those that may be grouped from either side, and the reach of a negation always
matters. -/
theorem lenient_agreement {a b : Expr} (aIntegral : a.Integral) (bIntegral : b.Integral)
    (aWordless : a.WordlessNames) (bWordless : b.WordlessNames) :
    (Boundary.normalized.agree a b = true ↔
        (a.isPrintable = true ∧ b.isPrintable = true) ∧ a.regrouped = b.regrouped) ∧
      (Boundary.normalized.agree a b = true ->
        a.isSteady = true ∨ b.isSteady = true ∨ a.safelyRegrouped = b.safelyRegrouped ->
          forall state : Store Int,
            a.rational (Store.ofWhole state) = b.rational (Store.ofWhole state) ∧
              (Evaluation.arithmetic.Satisfies (Store.ofWhole state) a ↔
                Evaluation.arithmetic.Satisfies (Store.ofWhole state) b)) ∧
      (forall inner outer : Operator, inner.isBinary = true -> outer.isBinary = true ->
        (inner.regroups outer = true ↔
          forall x y z : Int, outer.onRationals (inner.onRationals x y) z =
            inner.onRationals x (outer.onRationals y z))) ∧
      forall op : Operator, op.isBinary = true ->
        ∃ x y : Int, Operator.not.onRational (op.onRationals x y) ≠
          op.onRationals (Operator.not.onRational x) y := by
  have agrees : Boundary.normalized.agree a b = true ↔
      (a.isPrintable = true ∧ b.isPrintable = true) ∧ a.regrouped = b.regrouped := by
    rw [Boundary.agree_normalized_iff,
      Expr.normalizedText_eq_iff aIntegral bIntegral aWordless bWordless]
  refine ⟨agrees, ?_, ?_, fun op => Operator.exists_onRational_ne⟩
  · intro agree harmless state
    have sameValue : a.rational (Store.ofWhole state) = b.rational (Store.ofWhole state) := by
      rcases harmless with aSteady | bSteady | same
      · exact Expr.rational_eq_of_regrouped_eq (agrees.mp agree).2 (.inl aSteady) _
      · exact Expr.rational_eq_of_regrouped_eq (agrees.mp agree).2 (.inr bSteady) _
      · rw [← Expr.rational_safelyRegrouped a, same, Expr.rational_safelyRegrouped b]
    refine ⟨sameValue, ?_⟩
    rw [Evaluation.arithmetic_satisfies_iff, Evaluation.arithmetic_satisfies_iff, sameValue]
  · intro inner outer innerBinary outerBinary
    constructor
    · intro regroups x y z
      exact Operator.onRationals_regroup regroups _ _ _
    · intro equal
      cases regroups : inner.regroups outer with
      | true => rfl
      | false =>
          rcases Operator.exists_onRationals_ne innerBinary outerBinary regroups with
            ⟨x, y, z, differ⟩
          exact absurd (equal x y z) differ

/-- A grouping of three variables, above zero: `((x inner y) outer z) > 0`. -/
def groupedLeft (inner outer : Operator) : Expr :=
  .binary .greater (.binary outer (.binary inner (.var "x") (.var "y")) (.var "z"))
    (.const (.whole 0))

/-- The other grouping, `(x inner (y outer z)) > 0`. -/
def groupedRight (inner outer : Operator) : Expr :=
  .binary .greater (.binary inner (.var "x") (.binary outer (.var "y") (.var "z")))
    (.const (.whole 0))

theorem groupings_lenient_agreement :
    (groupedLeft .add .sub).Integral ∧ (groupedRight .add .sub).Integral ∧
      (groupedLeft .add .sub).WordlessNames ∧ (groupedRight .add .sub).WordlessNames ∧
      Boundary.normalized.agree (groupedLeft .add .sub) (groupedRight .add .sub) = true ∧
      forall state : Store Int,
        (groupedLeft .add .sub).rational (Store.ofWhole state) =
          (groupedRight .add .sub).rational (Store.ofWhole state) := by
  have leftIntegral : (groupedLeft .add .sub).Integral := by decide +kernel
  have rightIntegral : (groupedRight .add .sub).Integral := by decide +kernel
  have leftWordless : (groupedLeft .add .sub).WordlessNames := by decide +kernel
  have rightWordless : (groupedRight .add .sub).WordlessNames := by decide +kernel
  have agreement := lenient_agreement leftIntegral rightIntegral leftWordless rightWordless
  have agree := agreement.1.mpr ⟨by decide +kernel, by decide +kernel⟩
  have steady : (groupedLeft .add .sub).isSteady = true := by decide +kernel
  exact ⟨leftIntegral, rightIntegral, leftWordless, rightWordless, agree,
    fun state => (agreement.2.1 agree (.inl steady) state).1⟩

/-- Differences may not be grouped from either side, and a name may contain a word. -/
theorem lenient_agreement_of_different :
    ((groupedLeft .sub .sub).Integral ∧ (groupedRight .sub .sub).Integral ∧
        Boundary.normalized.agree (groupedLeft .sub .sub) (groupedRight .sub .sub) = true ∧
        ∃ state : Store Int,
          ¬ Evaluation.arithmetic.Satisfies (Store.ofWhole state) (groupedLeft .sub .sub) ∧
            Evaluation.arithmetic.Satisfies (Store.ofWhole state) (groupedRight .sub .sub)) ∧
      (Expr.conj (.var "x") (.var "y")).Integral ∧ (Expr.var "xandy").Integral ∧
        Boundary.normalized.agree (.conj (.var "x") (.var "y")) (.var "xandy") = true ∧
        ∃ state : Store Int,
          ¬ Evaluation.arithmetic.Satisfies (Store.ofWhole state) (.conj (.var "x") (.var "y")) ∧
            Evaluation.arithmetic.Satisfies (Store.ofWhole state) (.var "xandy") := by
  refine ⟨⟨by decide +kernel, by decide +kernel, by decide +kernel,
    fun name => if name = "z" then 1 else 0, ?_, ?_⟩,
    by decide +kernel, by decide +kernel, by decide +kernel,
    fun name => if name = "xandy" then 1 else 0, ?_, ?_⟩
  · rw [Evaluation.arithmetic_satisfies_iff]
    decide +kernel
  · rw [Evaluation.arithmetic_satisfies_iff]
    decide +kernel
  · rw [Evaluation.arithmetic_satisfies_iff]
    decide +kernel
  · rw [Evaluation.arithmetic_satisfies_iff]
    decide +kernel

end Derivation
end HoareProof
