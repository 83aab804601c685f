import HoareProof.Proofs.Edits
import HoareProof.Proofs.Equivalence
import HoareProof.Proofs.Legible

namespace HoareProof

/-!
Lenient comparison beside strict comparison.  Strict comparison takes a constant for the number
that it denotes, and lenient comparison takes it for the way in which it is written.  So the
lenient checker refuses `x < 1.0` where `x < 1` is needed, although the strict one accepts it.

Nothing else that the strict checker accepts is refused, as long as the boundaries can be written
at all: two assertions of the same shape and value have the same human form as soon as their
constants are written alike.  The rules that never look at boundaries leniently need no such
condition, and neither does a loop whose postcondition is not looked at.
-/

namespace Expr

/-- The constants of two assertions are written alike, place by place. -/
def WrittenAlike (a b : Expr) : Prop :=
  a.constants.map Number.text = b.constants.map Number.text

instance (a b : Expr) : Decidable (a.WrittenAlike b) :=
  inferInstanceAs (Decidable (_ = _))

theorem length_constants_of_sameValue {a b : Expr} (same : a.sameValue b = true) :
    a.constants.length = b.constants.length := by
  induction b generalizing a with
  | hole => rw [sameValue_hole_iff.mp same]
  | var name => rw [sameValue_var_iff.mp same]
  | truth value => rw [sameValue_truth_iff.mp same]
  | const value =>
      rcases sameValue_const_iff.mp same with ⟨other, rfl, _⟩
      rfl
  | binary op left right leftHypothesis rightHypothesis =>
      rcases sameValue_binary_iff.mp same with ⟨left', right', rfl, sameLeft, sameRight⟩
      rw [constants, constants, List.length_append, List.length_append, leftHypothesis sameLeft,
        rightHypothesis sameRight]
  | unary op operand inductionHypothesis =>
      rcases sameValue_unary_iff.mp same with ⟨operand', rfl, sameOperand⟩
      rw [constants, constants, inductionHypothesis sameOperand]

/-- Equal assertions whose constants are written alike are written alike altogether. -/
theorem human_eq_of_sameValue {a b : Expr} (same : a.sameValue b = true)
    (alike : a.WrittenAlike b) : a.human = b.human := by
  induction b generalizing a with
  | hole => rw [sameValue_hole_iff.mp same]
  | var name => rw [sameValue_var_iff.mp same]
  | truth value => rw [sameValue_truth_iff.mp same]
  | const value =>
      rcases sameValue_const_iff.mp same with ⟨other, rfl, _⟩
      exact (List.cons.inj alike).1
  | binary op left right leftHypothesis rightHypothesis =>
      rcases sameValue_binary_iff.mp same with ⟨left', right', rfl, sameLeft, sameRight⟩
      have alikeLists : left'.constants.map Number.text ++ right'.constants.map Number.text =
          left.constants.map Number.text ++ right.constants.map Number.text := by
        simpa [WrittenAlike, constants] using alike
      have sameLength : (left'.constants.map Number.text).length =
          (left.constants.map Number.text).length := by
        rw [List.length_map, List.length_map, length_constants_of_sameValue sameLeft]
      rcases List.append_inj alikeLists sameLength with ⟨alikeLeft, alikeRight⟩
      rw [human, human, leftHypothesis sameLeft alikeLeft, rightHypothesis sameRight alikeRight]
  | unary op operand inductionHypothesis =>
      rcases sameValue_unary_iff.mp same with ⟨operand', rfl, sameOperand⟩
      rw [human, human, inductionHypothesis sameOperand alike]

end Expr

namespace Derivation

/-- The boundaries that are compared at a node, each with what it has to be.  The exit of a loop
may be either of two assertions, if it is looked at. -/
def comparisons (loopExit : Bool) : Derivation -> List (Expr × Expr)
  | .node ⟨pre, .cond .complete guard _ _, post⟩ (.applied .conditional) _
      [.node left _ _ _, .node right _ _ _] =>
      [(left.pre, .conj pre guard), (right.pre, .conj pre (.negate guard)), (left.post, post),
        (right.post, post)]
  | .node ⟨pre, .loop .complete guard _, post⟩ (.applied .loop) _ [.node body _ _ _] =>
      [(body.pre, .conj pre guard), (body.post, pre)] ++
        if loopExit then
          [(post, .conj pre (.negate guard)), (post, .conj (.negate guard) pre)]
        else []
  | _ => []

/-- Where strict comparison finds two boundaries of a node equal, they can be written, and their
constants are written alike. -/
def BoundariesAlike (loopExit : Bool) (node : Derivation) : Prop :=
  forall compared, compared ∈ node.comparisons loopExit ->
    compared.1.sameShape compared.2 = true ->
      (compared.1.isPrintable = true ∧ compared.2.isPrintable = true) ∧
        compared.1.WrittenAlike compared.2

instance (loopExit : Bool) (node : Derivation) : Decidable (node.BoundariesAlike loopExit) :=
  inferInstanceAs (Decidable (forall compared, compared ∈ node.comparisons loopExit -> _))

theorem BoundariesAlike.agree {loopExit : Bool} {node : Derivation}
    (alike : node.BoundariesAlike loopExit) {a b : Expr}
    (compared : (a, b) ∈ node.comparisons loopExit)
    (same : Boundary.structural.agree a b = true) : Boundary.normalized.agree a b = true := by
  rcases alike (a, b) compared same with ⟨printable, writtenAlike⟩
  have sameText := Expr.human_eq_of_sameValue (Expr.sameValue_of_sameShape same) writtenAlike
  exact Boundary.agree_normalized_iff.mpr ⟨printable, congrArg Expr.normalizedText sameText⟩

/-- A step that is strictly justified is leniently justified. -/
theorem Justified.lenient {loopExit : Bool} {node : Derivation}
    (justified : Justified ⟨.structural, loopExit⟩ node)
    (alike : node.BoundariesAlike loopExit) : Justified ⟨.normalized, loopExit⟩ node := by
  cases justified with
  | skip same => exact .skip same
  | assign same => exact .assign same
  | sequence first second start middle final => exact .sequence first second start middle final
  | consequence same => exact .consequence same
  | conditional first second thenPre elsePre thenPost elsePost =>
      apply Justified.conditional first second
      · exact alike.agree (by simp [comparisons]) thenPre
      · exact alike.agree (by simp [comparisons]) elsePre
      · exact alike.agree (by simp [comparisons]) thenPost
      · exact alike.agree (by simp [comparisons]) elsePost
  | loop body bodyPre bodyPost exit =>
      apply Justified.loop body
      · exact alike.agree (by simp [comparisons]) bodyPre
      · exact alike.agree (by simp [comparisons]) bodyPost
      · intro checked
        cases checked
        have either := exit rfl
        unfold isLoopExit at either ⊢
        rw [Bool.or_eq_true] at either ⊢
        rcases either with invariantFirst | guardFirst
        · left
          exact alike.agree (by simp [comparisons]) invariantFirst
        · right
          exact alike.agree (by simp [comparisons]) guardFirst

/-- The lenient checker accepts a derivation that the strict one accepts, unless equal constants
of two compared boundaries are written differently or are too long to be written. -/
theorem lenient_of_strict {root : Derivation} {loopExit : Bool}
    (alike : Everywhere (BoundariesAlike loopExit) root)
    (valid : root.isValid ⟨.structural, loopExit⟩ = true) :
    root.isValid ⟨.normalized, loopExit⟩ = true := by
  induction root using nodeInduction with
  | missing => cases valid
  | node conclusion step proved premises inductionHypothesis =>
      rw [isValid_node_iff] at valid ⊢
      rcases valid with ⟨justified, premisesValid⟩
      refine ⟨justified.lenient alike.root, ?_⟩
      intro premise member
      exact inductionHypothesis premise member (alike.premise member) (premisesValid premise member)

/-- The assertion `x < bound`. -/
def lessThan (bound : Number) : Expr := .binary .less (.var "x") (.const bound)

/-- The loop `{p ∧ x < 1} while x < 1 do p := p ∧ x < assigned {(p ∧ x < 1) ∧ ¬ x < 1}`, with
the precondition `(p ∧ x < 1) ∧ x < boundary` of its body. -/
def latch (assigned boundary : Number) : Derivation :=
  let invariant := Expr.conj (.var "p") (lessThan (.whole 1))
  let body := Stmt.assign .complete "p" (.conj (.var "p") (lessThan assigned))
  .node ⟨invariant, .loop .complete (lessThan (.whole 1)) body,
      .conj invariant (.negate (lessThan (.whole 1)))⟩ (.applied .loop) false
    [.node ⟨.conj invariant (lessThan boundary), body, invariant⟩ (.applied .assign) false []]

/-- The number `1.0`. -/
def decimalOne : Number := .double (Binary64.ofDecimal false 10 (-1))

theorem latch_lenient_of_strict :
    Everywhere (BoundariesAlike true) (latch decimalOne (.whole 1)) ∧
      (latch decimalOne (.whole 1)).isValid ⟨.structural, true⟩ = true ∧
        (latch decimalOne (.whole 1)).isValid ⟨.normalized, true⟩ = true := by
  have alike : Everywhere (BoundariesAlike true) (latch decimalOne (.whole 1)) := by
    refine everywhere_node_iff.mpr ⟨by decide +kernel, ?_⟩
    intro premise member
    cases List.mem_singleton.mp member
    refine everywhere_node_iff.mpr ⟨by decide +kernel, ?_⟩
    intro premise member
    cases member
  have valid : (latch decimalOne (.whole 1)).isValid ⟨.structural, true⟩ = true := by
    decide +kernel
  exact ⟨alike, valid, lenient_of_strict alike valid⟩

/-- A boundary with `1.0` for `1` is accepted strictly and refused leniently, although nothing
is missing in the derivation. -/
theorem latch_strict_not_lenient :
    Everywhere (fun node => ∃ triple, node.conclusion? = some triple ∧ triple.Whole)
        (latch (.whole 1) decimalOne) ∧
      forall loopExit, (latch (.whole 1) decimalOne).isValid ⟨.structural, loopExit⟩ = true ∧
        (latch (.whole 1) decimalOne).isValid ⟨.normalized, loopExit⟩ = false := by
  constructor
  · refine everywhere_node_iff.mpr ⟨⟨_, rfl, rfl, rfl, rfl⟩, ?_⟩
    intro premise member
    cases List.mem_singleton.mp member
    refine everywhere_node_iff.mpr ⟨⟨_, rfl, rfl, rfl, rfl⟩, ?_⟩
    intro premise member
    cases member
  · decide +kernel

end Derivation
end HoareProof
