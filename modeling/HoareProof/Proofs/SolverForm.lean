import HoareProof.Proofs.Legible

namespace HoareProof

/-!
The solver form is read back.  The minus sign has three uses at the head of an
application: the sign of a constant, a difference, and a chain of differences.  A
constant is written with the first of them only when it is negative, an application
always has two arguments, and so the three are never confused.  Writing fails exactly
when a whole number lies beyond the range of doubles.
-/

namespace Number

/-- A number that the solver form can write. -/
def Sendable (value : Number) : Prop :=
  value.isFinite = true ∧ value.exceedsDoubles = false

instance (value : Number) : Decidable value.Sendable :=
  inferInstanceAs (Decidable (_ ∧ _))

theorem doubleLimit_le_pow : doubleLimit ≤ 10 ^ Numeral.lengthLimit := by
  decide +kernel

/-- A whole number in the range of doubles is far shorter than numerals may be. -/
theorem Sendable.writable {value : Number} (sendable : value.Sendable) : value.Writable := by
  refine ⟨sendable.1, ?_⟩
  cases value with
  | double | notANumber => rfl
  | whole n =>
      have inRange : n.natAbs < doubleLimit := by simpa [exceedsDoubles] using sendable.2
      have short : n.natAbs < 10 ^ Numeral.lengthLimit :=
        Nat.lt_of_lt_of_le inRange doubleLimit_le_pow
      rw [← Nat.length_toDigits_le_iff (by decide) (by decide)] at short
      exact decide_eq_true short

end Number

namespace Expr

open PrefixForm Token

namespace PrefixForm

theorem headOperator?_of_kind? {op : Operator} {kind : TokenKind} (known : op.kind? = some kind) :
    headOperator? kind = some op := by
  cases op <;> cases known <;> rfl

theorem application?_binary {op : Operator} (binary : op.isBinary = true) (left right : Expr) :
    application? op [left, right] = some (.binary op left right) := by
  cases op <;> first | rfl | cases binary

end PrefixForm

/-- The solver form of an assertion has been written, and it spells tokens that derive
the assertion. -/
def Sent (e : Expr) : Prop :=
  ∃ text, e.solver = .ok text ∧ forall rest, Bounded rest ->
    Spells text.toList (PrefixForm.Derives · [e]) rest

theorem sent_constant {value : Number} (sendable : value.Sendable) : (Expr.const value).Sent := by
  have inRange : ¬ value.exceedsDoubles = true := by simp [sendable.2]
  cases sign : value.isNegative with
  | false =>
      refine ⟨value.text, by simp [solver, solverConstant, inRange, sign], ?_⟩
      intro rest bounded
      apply (Number.spells_text sendable.writable sign bounded).mono
      rintro _ ⟨token, rfl, denotes⟩
      exact .leaf (.number denotes) .nil
  | true =>
      refine ⟨"(- " ++ value.neg.text ++ ")", by simp [solver, solverConstant, inRange, sign], ?_⟩
      intro rest bounded
      have unsigned := Number.isNegative_neg sign
      have chars : ("(- " ++ value.neg.text ++ ")").toList =
          '(' :: ((['-'] ++ ' ' :: value.neg.text.toList) ++ [')']) := by
        simp
      rw [chars]
      apply (((spells_minus _).spaced (Number.spells_text sendable.writable.neg unsigned
        (bounded_cons rfl _))).grouped).mono
      rintro _ ⟨opening, _, closing, rfl, opens, closes, _, _, rfl, ⟨minus, rfl, isMinus, _⟩,
        token, rfl, denotes⟩
      have isHead : headOperator? minus.kind = some .sub := by rw [isMinus]; rfl
      have signed : application? .sub [.const value.neg] = some (.const value) := by
        simp [application?, Number.neg_neg]
      -- With a single constant behind it the minus sign is a sign, and it is taken off again.
      have argument := PrefixForm.Derives.leaf (.number denotes) .nil
      exact .application opens isHead argument closes signed .nil

theorem sent_binary {op : Operator} (binary : op.isBinary = true) {left right : Expr}
    (leftSent : left.Sent) (rightSent : right.Sent) : (Expr.binary op left right).Sent := by
  obtain ⟨first, firstWritten, firstSpells⟩ := leftSent
  obtain ⟨second, secondWritten, secondSpells⟩ := rightSent
  obtain ⟨kind, known⟩ : ∃ kind, op.kind? = some kind := by
    cases op <;> first | exact ⟨_, rfl⟩ | cases binary
  refine ⟨"(" ++ op.solver ++ " " ++ first ++ " " ++ second ++ ")", ?_, ?_⟩
  · rw [solver, firstWritten, secondWritten]
    rfl
  intro rest bounded
  have chars : ("(" ++ op.solver ++ " " ++ first ++ " " ++ second ++ ")").toList =
      '(' :: ((op.solver.toList ++ ' ' :: (first.toList ++ ' ' :: second.toList)) ++ [')']) := by
    simp
  rw [chars]
  apply (((Operator.spells_solver known _).spaced ((firstSpells _ (bounded_cons rfl _)).spaced
    (secondSpells _ (bounded_cons rfl _)))).grouped).mono
  rintro _ ⟨opening, _, closing, rfl, opens, closes, _, _, rfl, ⟨head, rfl, isKind, _⟩,
    _, _, rfl, leftDerives, rightDerives⟩
  have isHead : headOperator? head.kind = some op := by
    rw [isKind]
    exact headOperator?_of_kind? known
  exact .application opens isHead (leftDerives.append rightDerives) closes
    (application?_binary binary left right) .nil

theorem sent_negate {operand : Expr} (operandSent : operand.Sent) : operand.negate.Sent := by
  obtain ⟨text, written, spells⟩ := operandSent
  refine ⟨"(not " ++ text ++ ")", ?_, ?_⟩
  · rw [negate, solver, written]
    rfl
  intro rest bounded
  have chars : ("(not " ++ text ++ ")").toList =
      '(' :: ((Operator.not.solver.toList ++ ' ' :: text.toList) ++ [')']) := by
    simp [Operator.solver]
  rw [chars]
  apply (((Operator.spells_solver rfl _).spaced (spells _ (bounded_cons rfl _))).grouped).mono
  rintro _ ⟨opening, _, closing, rfl, opens, closes, _, _, rfl, ⟨head, rfl, isKind, _⟩, derives⟩
  have isHead : headOperator? head.kind = some .not := by
    rw [isKind]
    exact headOperator?_of_kind? rfl
  exact .application opens isHead derives closes rfl .nil

theorem sent_of_legible {e : Expr} (legible : e.Legible Number.Sendable) : e.Sent := by
  induction e with
  | hole => exact absurd legible.complete (by decide)
  | var name =>
      refine ⟨name, rfl, fun rest bounded => ?_⟩
      apply (spells_name (legible_var_iff.mp legible) bounded).mono
      rintro _ ⟨token, rfl, kind, isText⟩
      rw [String.ofList_toList] at isText
      exact isText ▸ .leaf (.name kind) .nil
  | const value => exact sent_constant (legible_const_iff.mp legible)
  | truth value =>
      refine ⟨_, rfl, fun rest bounded => ?_⟩
      apply (spells_truth value bounded).mono
      rintro _ ⟨token, rfl, kind, _⟩
      cases value
      · exact .leaf (.falsehood kind) .nil
      · exact .leaf (.truth kind) .nil
  | binary op left right leftHypothesis rightHypothesis =>
      obtain ⟨binary, leftLegible, rightLegible⟩ := legible_binary_iff.mp legible
      exact sent_binary binary (leftHypothesis leftLegible) (rightHypothesis rightLegible)
  | unary op operand inductionHypothesis =>
      obtain ⟨rfl, operandLegible⟩ := legible_unary_iff.mp legible
      exact sent_negate (inductionHypothesis operandLegible)

theorem Sent.ofText? {e : Expr} (sent : e.Sent) :
    ∃ text, e.solver = .ok text ∧ Expr.ofText? .prefixed text = .ok (some e) := by
  obtain ⟨text, written, spells⟩ := sent
  obtain ⟨stream, lexed, derives⟩ := (spells [] bounded_nil).ofText
  have read := prefixParser_complete derives
  exact ⟨text, written, Parsing.readAll?_eq_some_iff.mpr ⟨stream, lexed, read⟩⟩

/-! ## What the solver form refuses -/

theorem solverConstant_refuses_iff {value : Number} :
    (∃ refusal, solverConstant value = .error refusal) ↔ value.exceedsDoubles = true := by
  unfold solverConstant
  split
  next exceeds => simp [exceeds]
  next inRange => split <;> simp [inRange]

/-- The solver form refuses an assertion exactly for a constant of it. -/
theorem solver_refuses_iff {e : Expr} :
    (∃ refusal, e.solver = .error refusal) ↔
      ∃ value, value ∈ e.constants ∧ value.exceedsDoubles = true := by
  induction e with
  | hole | var | truth => simp [solver, constants]
  | const value => simpa [solver, constants] using solverConstant_refuses_iff
  | binary op left right leftHypothesis rightHypothesis =>
      simp only [constants, List.mem_append, or_and_right, exists_or, ← leftHypothesis,
        ← rightHypothesis]
      cases leftText : left.solver with
      | error refusal => simp [solver, leftText]
      | ok first =>
          cases rightText : right.solver <;> simp [solver, leftText, rightText, pure, Except.pure]
  | unary op operand inductionHypothesis =>
      simp only [constants, ← inductionHypothesis]
      cases text : operand.solver <;> simp [solver, text, pure, Except.pure]

theorem exceedsDoubles_iff {value : Number} :
    value.exceedsDoubles = true ↔ ∃ n, value = .whole n ∧ Number.doubleLimit ≤ n.natAbs := by
  cases value <;> simp [Number.exceedsDoubles]

/-- The prefix form reads what the solver form writes, signs of constants included, and
the solver form writes everything but whole numbers beyond the range of doubles. -/
theorem solver_round_trip :
    (forall e : Expr, e.Legible Number.Sendable ->
        ∃ text, e.solver = .ok text ∧ ofText? .prefixed text = .ok (some e)) ∧
      forall e : Expr, (∃ refusal, e.solver = .error refusal) ↔
        ∃ n, Number.whole n ∈ e.constants ∧ Number.doubleLimit ≤ n.natAbs := by
  refine ⟨fun e legible => (sent_of_legible legible).ofText?, fun e => ?_⟩
  rw [solver_refuses_iff]
  constructor
  · rintro ⟨value, member, exceeds⟩
    obtain ⟨n, rfl, large⟩ := exceedsDoubles_iff.mp exceeds
    exact ⟨n, member, large⟩
  · rintro ⟨n, member, large⟩
    exact ⟨.whole n, member, exceedsDoubles_iff.mpr ⟨n, rfl, large⟩⟩

/-- The assertion `((x - -0.0) == n)`. -/
def lessZero (n : Int) : Expr :=
  .binary .equal (.binary .sub (.var "x") (.const (.double (Binary64.ofDecimal true 0 0))))
    (.const (.whole n))

theorem lessZero_solver_round_trip :
    (lessZero (1 - Number.doubleLimit)).Legible Number.Sendable ∧
      (∃ text, (lessZero (1 - Number.doubleLimit)).solver = .ok text ∧
        ofText? .prefixed text = .ok (some (lessZero (1 - Number.doubleLimit)))) ∧
          ∃ refusal, (lessZero (-Number.doubleLimit)).solver = .error refusal := by
  have legible : (lessZero (1 - Number.doubleLimit)).Legible Number.Sendable := by decide +kernel
  refine ⟨legible, solver_round_trip.1 _ legible, (solver_round_trip.2 _).mpr ?_⟩
  exact ⟨-Number.doubleLimit, by decide +kernel, by decide +kernel⟩

end Expr
end HoareProof
