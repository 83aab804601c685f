import HoareProof.Proofs.Soundness
import Mathlib.Data.List.Forall2
import Mathlib.Order.WithBot

namespace HoareProof

/-!
Equality by value as the equality of the checker.  An assertion can be read as an exact
one, in which a constant is no longer a way to write a number but the number itself, a
rational or an infinity.  Where every constant is a number, the comparison of shape that a
rule makes and the comparison of values are one equivalence, and it asks whether two
assertions are one and the same exact assertion.

Everything that the strict checker looks at respects this equality: variables,
completeness, substitution, and the statements and boundaries that a rule compares.  So two
derivations of the same value get the same verdict, whatever constants there are in them.
Steps have to be rules for that, or absent.  A name that is no rule may be spelled like one,
and then it has the value of the rule but is refused.
-/

/-- The numbers that constants denote: the rational numbers and two infinities. -/
abbrev ExactNumber := WithBot (WithTop ℚ)

/-- An assertion whose constants are numbers themselves, or no numbers. -/
inductive ExactExpr where
  | hole
  | var (name : String)
  | const (value : Option ExactNumber)
  | truth (value : Bool)
  | binary (op : Operator) (left right : ExactExpr)
  | unary (op : Operator) (operand : ExactExpr)

/-! ## Numbers -/

namespace Number

open Binary64

/-- The number that a constant denotes, if it denotes one. -/
def exact : Number -> Option ExactNumber
  | .whole value => some ((value : ℚ) : WithTop ℚ)
  | .double (.finite negative units _) =>
      some (((signedUnits negative units : ℚ) / unitsPerOne : ℚ) : WithTop ℚ)
  | .double (.infinite true) => some ⊥
  | .double (.infinite false) => some ⊤
  | .notANumber _ _ => none

/-- The number of an amount. -/
def ofAmount : Int ⊕ Bool ⊕ Bool × Nat -> Option ExactNumber
  | .inl units => some (((units : ℚ) / unitsPerOne : ℚ) : WithTop ℚ)
  | .inr (.inl true) => some ⊥
  | .inr (.inl false) => some ⊤
  | .inr (.inr _) => none

theorem unitsPerOne_ne_zero : (unitsPerOne : ℚ) ≠ 0 :=
  Nat.cast_ne_zero.mpr unitsPerOne_pos.ne'

theorem exact_eq_ofAmount (a : Number) : a.exact = ofAmount a.amount := by
  cases a with
  | whole n =>
      have cancels : ((n * unitsPerOne : Int) : ℚ) / unitsPerOne = n := by
        rw [Int.cast_mul, Int.cast_natCast, mul_div_cancel_right₀ _ unitsPerOne_ne_zero]
      rw [exact, amount, ofAmount, cancels]
  | double x =>
      cases x with
      | finite negative units isExact => rfl
      | infinite negative => cases negative <;> rfl
  | notANumber negative label => rfl

theorem isSome_exact (a : Number) : a.exact.isSome = a.isNumber := by
  cases a with
  | whole | notANumber => rfl
  | double x =>
      cases x with
      | finite => rfl
      | infinite negative => cases negative <;> rfl

theorem amount_eq_of_ofAmount {first second : Int ⊕ Bool ⊕ Bool × Nat}
    (isNumber : (ofAmount second).isSome = true) (same : ofAmount first = ofAmount second) :
    first = second := by
  match first, second with
  | .inl units, .inl others =>
      have sameQuotient : (units : ℚ) / unitsPerOne = others / unitsPerOne :=
        WithTop.coe_injective (WithBot.coe_injective (Option.some.inj same))
      rw [div_left_inj' unitsPerOne_ne_zero] at sameQuotient
      rw [Int.cast_injective sameQuotient]
  | .inr (.inl true), .inr (.inl true) => rfl
  | .inr (.inl false), .inr (.inl false) => rfl
  | .inr (.inl true), .inr (.inl false) => cases same
  | .inr (.inl false), .inr (.inl true) => cases same
  | .inl units, .inr (.inl negative) => cases negative <;> cases same
  | .inr (.inl negative), .inl units => cases negative <;> cases same
  | .inr (.inr _), .inl _ => cases same
  | .inr (.inr _), .inr (.inl negative) => cases negative <;> cases same
  | _, .inr (.inr _) => cases isNumber

/-- Constants are compared by the numbers that they denote, whichever kind they are of. -/
theorem sameValue_iff_exact {a b : Number} (isNumber : b.isNumber = true) :
    a.sameValue b = true ↔ a.exact = b.exact := by
  rw [← isSome_exact, exact_eq_ofAmount] at isNumber
  rw [sameValue_iff_amount, exact_eq_ofAmount, exact_eq_ofAmount]
  exact ⟨congrArg ofAmount, amount_eq_of_ofAmount isNumber⟩

/-- A whole number is not the double next to it, which the same digits are read as. -/
example : (Number.whole 9007199254740993).sameValue
    (.double (Binary64.ofDecimal false 9007199254740993 0)) = false := by
  decide +kernel

end Number

/-! ## Assertions -/

namespace Expr

/-- The exact assertion that an assertion is read as. -/
def exact : Expr -> ExactExpr
  | .hole => .hole
  | .var name => .var name
  | .const value => .const value.exact
  | .truth value => .truth value
  | .binary op left right => .binary op left.exact right.exact
  | .unary op operand => .unary op operand.exact

variable {a b c : Expr}

/-- Assertions are compared by the exact assertions that they are read as. -/
theorem sameValue_iff_exact (numeric : b.isNumeric = true) :
    a.sameValue b = true ↔ a.exact = b.exact := by
  induction b generalizing a with
  | hole =>
      rw [sameValue_hole_iff]
      cases a <;> simp [exact]
  | var name =>
      rw [sameValue_var_iff]
      cases a <;> simp [exact]
  | truth value =>
      rw [sameValue_truth_iff]
      cases a <;> simp [exact]
  | const value =>
      have isNumber : value.isNumber = true := by simpa [isNumeric, constants] using numeric
      rw [sameValue_const_iff]
      cases a <;> simp [exact, Number.sameValue_iff_exact isNumber]
  | binary op left right leftHypothesis rightHypothesis =>
      rw [isNumeric_binary, Bool.and_eq_true] at numeric
      rw [sameValue_binary_iff]
      cases a <;> simp [exact, leftHypothesis numeric.1, rightHypothesis numeric.2, and_assoc]
  | unary op operand inductionHypothesis =>
      rw [sameValue_unary_iff]
      cases a <;> simp [exact, inductionHypothesis numeric, and_assoc]

/-- Among assertions in which every constant is a number, equality of shape is an
equivalence. -/
theorem sameShape_equivalence :
    Equivalence fun a b : { e : Expr // e.isNumeric = true } => a.val.sameShape b.val = true :=
  ⟨fun a => a.val.sameShape_self.trans a.property, sameShape_symm, sameShape_trans⟩

/-- For such assertions, equality of shape is equality by value, and asks for one and the same
exact assertion. -/
theorem sameShape_iff_sameValue_and_exact (aNumeric : a.isNumeric = true)
    (bNumeric : b.isNumeric = true) :
    (a.sameShape b = true ↔ a.sameValue b = true) ∧
      (a.sameShape b = true ↔ a.exact = b.exact) := by
  have asValues : a.sameShape b = true ↔ a.sameValue b = true := by
    rw [sameShape_iff, aNumeric, eq_self, and_true]
  exact ⟨asValues, asValues.trans (sameValue_iff_exact bNumeric)⟩

/-- Two assertions can be compared through two others of the same values. -/
theorem sameValue_of_sides {a' b' : Expr} (left : a'.sameValue a = true)
    (same : a.sameValue b = true) (right : b'.sameValue b = true) : a'.sameValue b' = true :=
  sameValue_of_common (sameValue_trans left same) right

/-- Two assertions are of one shape if two others of the same values are. -/
theorem sameShape_of_sides {a' b' : Expr} (left : a'.sameValue a = true)
    (same : a.sameShape b = true) (right : b'.sameValue b = true) : a'.sameShape b' = true := by
  rcases sameShape_iff.mp same with ⟨sameValue, numeric⟩
  exact sameShape_iff.mpr
    ⟨sameValue_of_sides left sameValue right, (isNumeric_of_sameValue left).trans numeric⟩

theorem sameShape_trans_sameValue (first : a.sameShape b = true) (second : b.sameValue c = true) :
    a.sameShape c = true :=
  sameShape_of_sides a.sameValue_refl first (sameValue_symm second)

/-- Induction over two assertions of the same value.  They are built alike, and differ at most
in how their constants are written. -/
@[elab_as_elim]
theorem sameValueInduction {motive : forall a b : Expr, a.sameValue b = true -> Prop}
    (hole : forall same, motive .hole .hole same)
    (var : forall name same, motive (.var name) (.var name) same)
    (const : forall value value' same, motive (.const value) (.const value') same)
    (truth : forall value same, motive (.truth value) (.truth value) same)
    (binary : forall op left right left' right' sameLeft sameRight same,
      motive left left' sameLeft -> motive right right' sameRight ->
        motive (.binary op left right) (.binary op left' right') same)
    (unary : forall op operand operand' sameOperand same, motive operand operand' sameOperand ->
      motive (.unary op operand) (.unary op operand') same)
    (a b : Expr) (same : a.sameValue b = true) : motive a b same := by
  induction b generalizing a with
  | hole =>
      cases sameValue_hole_iff.mp same
      exact hole same
  | var name =>
      cases sameValue_var_iff.mp same
      exact var name same
  | const value =>
      rcases sameValue_const_iff.mp same with ⟨_, rfl, _⟩
      exact const _ value same
  | truth value =>
      cases sameValue_truth_iff.mp same
      exact truth value same
  | binary op left right leftHypothesis rightHypothesis =>
      rcases sameValue_binary_iff.mp same with ⟨_, _, rfl, sameLeft, sameRight⟩
      exact binary op _ _ left right sameLeft sameRight same (leftHypothesis _ sameLeft)
        (rightHypothesis _ sameRight)
  | unary op operand inductionHypothesis =>
      rcases sameValue_unary_iff.mp same with ⟨_, rfl, sameOperand⟩
      exact unary op _ operand sameOperand same (inductionHypothesis _ sameOperand)

theorem occurrences_eq_of_sameValue (same : a.sameValue b = true) :
    a.occurrences = b.occurrences := by
  induction a, b, same using sameValueInduction with
  | hole | var | const | truth => rfl
  | binary _ _ _ _ _ _ _ _ leftHypothesis rightHypothesis =>
      rw [occurrences, occurrences, leftHypothesis, rightHypothesis]
  | unary _ _ _ _ _ inductionHypothesis => rw [occurrences, occurrences, inductionHypothesis]

theorem isComplete_eq_of_sameValue (same : a.sameValue b = true) :
    a.isComplete = b.isComplete := by
  induction a, b, same using sameValueInduction with
  | hole | var | const | truth => rfl
  | binary _ _ _ _ _ _ _ _ leftHypothesis rightHypothesis =>
      rw [isComplete, isComplete, leftHypothesis, rightHypothesis]
  | unary _ _ _ _ _ inductionHypothesis => rw [isComplete, isComplete, inductionHypothesis]

/-- Substitution respects equality by value in the assertion and in what is put into it. -/
theorem sameValue_subst (same : a.sameValue b = true) (name : String)
    {replacement replacement' : Expr} (sameReplacement : replacement.sameValue replacement' = true) :
    (a.subst name replacement).sameValue (b.subst name replacement') = true := by
  induction a, b, same using sameValueInduction with
  | hole same | const _ _ same | truth _ same => exact same
  | var other =>
      rw [subst, subst]
      by_cases isName : other = name
      · rw [if_pos isName, if_pos isName]
        exact sameReplacement
      · rw [if_neg isName, if_neg isName]
        exact sameValue_refl _
  | binary _ _ _ _ _ _ _ _ leftHypothesis rightHypothesis =>
      exact sameValue_binary_iff.mpr ⟨_, _, rfl, leftHypothesis, rightHypothesis⟩
  | unary _ _ _ _ _ inductionHypothesis =>
      exact sameValue_unary_iff.mpr ⟨_, rfl, inductionHypothesis⟩

theorem isNumeric_subst {e replacement : Expr} (numeric : e.isNumeric = true) (name : String)
    (replacementNumeric : replacement.isNumeric = true) :
    (e.subst name replacement).isNumeric = true := by
  induction e with
  | hole | truth => rfl
  | const value => exact numeric
  | var other =>
      rw [subst]
      split
      · exact replacementNumeric
      · rfl
  | binary op left right leftHypothesis rightHypothesis =>
      simp only [subst, isNumeric_binary, Bool.and_eq_true] at numeric ⊢
      exact ⟨leftHypothesis numeric.1, rightHypothesis numeric.2⟩
  | unary op operand inductionHypothesis => exact inductionHypothesis numeric

theorem sameShape_subst (same : a.sameShape b = true) (name : String)
    {replacement replacement' : Expr} (sameReplacement : replacement.sameShape replacement' = true) :
    (a.subst name replacement).sameShape (b.subst name replacement') = true := by
  rcases sameShape_iff.mp same with ⟨sameValue, numeric⟩
  rcases sameShape_iff.mp sameReplacement with ⟨sameReplacementValue, replacementNumeric⟩
  exact sameShape_iff.mpr ⟨sameValue_subst sameValue name sameReplacementValue,
    isNumeric_subst numeric name replacementNumeric⟩

end Expr

theorem Stmt.sameValue_of_sides {a b a' b' : Stmt} (left : a'.sameValue a = true)
    (same : a.sameValue b = true) (right : b'.sameValue b = true) : a'.sameValue b' = true :=
  Stmt.sameValue_of_common (Stmt.sameValue_trans left same) right

/-! ## Derivations -/

theorem Rule.tag_injective : Function.Injective Rule.tag := by
  intro first second
  cases first <;> cases second <;> decide

/-- Whether a step is a rule or still to be chosen. -/
def Step.isRecognised : Step -> Bool
  | .unrecognised _ => false
  | _ => true

/-- Steps of the same name are the same, if their names are names of rules. -/
theorem Step.eq_of_sameValue {a b : Step} (recognised : a.isRecognised = true)
    (otherRecognised : b.isRecognised = true) (same : a.sameValue b = true) : a = b := by
  have sameName : a.name? = b.name? := beq_iff_eq.mp same
  match a, b with
  | .pending, .pending => rfl
  | .applied rule, .applied other =>
      rw [Rule.tag_injective (Option.some.inj sameName)]
  | .pending, .applied _ => cases sameName
  | .applied _, .pending => cases sameName
  | .unrecognised _, _ => cases recognised
  | _, .unrecognised _ => cases otherRecognised

namespace Derivation

theorem sameValues_iff_forall₂ {left right : List Derivation} :
    sameValues left right = true ↔ List.Forall₂ (fun a b => a.sameValue b = true) left right := by
  induction left generalizing right with
  | nil => cases right <;> simp [sameValues]
  | cons first rest inductionHypothesis =>
      cases right with
      | nil => simp [sameValues]
      | cons other others => simp [sameValues, inductionHypothesis]

/-- What has the value of a node is a node, with parts of the same values. -/
theorem sameValue_node_iff {derivation : Derivation} {conclusion : Triple} {step : Step}
    {proved : Bool} {premises : List Derivation} :
    derivation.sameValue (.node conclusion step proved premises) = true ↔
      ∃ conclusion' step' premises', derivation = .node conclusion' step' proved premises' ∧
        conclusion'.sameValue conclusion = true ∧ step'.sameValue step = true ∧
          List.Forall₂ (fun a b => a.sameValue b = true) premises' premises := by
  cases derivation with
  | missing => simp [sameValue]
  | node conclusion' step' proved' premises' =>
      simp only [sameValue, Bool.and_eq_true, beq_iff_eq, sameValues_iff_forall₂, node.injEq]
      constructor
      · rintro ⟨⟨⟨sameConclusion, sameStep⟩, sameFlag⟩, samePremises⟩
        exact ⟨conclusion', step', premises', ⟨rfl, rfl, sameFlag, rfl⟩, sameConclusion, sameStep,
          samePremises⟩
      · rintro ⟨_, _, _, ⟨rfl, rfl, sameFlag, rfl⟩, sameConclusion, sameStep, samePremises⟩
        exact ⟨⟨⟨sameConclusion, sameStep⟩, sameFlag⟩, samePremises⟩

theorem sameValue_symm {a b : Derivation} (same : a.sameValue b = true) : b.sameValue a = true := by
  induction b using nodeInduction generalizing a with
  | missing =>
      cases a with
      | missing => rfl
      | node conclusion step proved premises => cases same
  | node conclusion step proved premises inductionHypothesis =>
      rcases sameValue_node_iff.mp same with
        ⟨conclusion', step', premises', rfl, sameConclusion, sameStep, samePremises⟩
      rcases Triple.sameValue_iff.mp sameConclusion with ⟨samePre, sameStmt, samePost⟩
      refine sameValue_node_iff.mpr ⟨conclusion, step, premises, rfl, ?_, ?_, ?_⟩
      · exact Triple.sameValue_iff.mpr ⟨Expr.sameValue_symm samePre, Stmt.sameValue_symm sameStmt,
          Expr.sameValue_symm samePost⟩
      · exact beq_iff_eq.mpr (beq_iff_eq.mp sameStep).symm
      · have flipped := ((List.forall₂_and_left premises premises').mpr
          ⟨fun _ member => member, samePremises.flip⟩)
        exact flipped.imp fun premise other ⟨member, samePremise⟩ =>
          inductionHypothesis premise member samePremise

/-- Premises of the same values begin with a node where the others do. -/
theorem exists_cons_of_sameValues {others rest : List Derivation} {triple : Triple} {step : Step}
    {proved : Bool} {below : List Derivation}
    (same : List.Forall₂ (fun a b => a.sameValue b = true) others
      (.node triple step proved below :: rest)) :
    ∃ triple' step' below' rest', others = .node triple' step' proved below' :: rest' ∧
      triple'.sameValue triple = true ∧
        List.Forall₂ (fun a b => a.sameValue b = true) rest' rest := by
  rcases List.forall₂_cons_right_iff.mp same with ⟨first, rest', sameFirst, sameRest, rfl⟩
  rcases sameValue_node_iff.mp sameFirst with ⟨triple', step', below', rfl, sameTriple, _, _⟩
  exact ⟨triple', step', below', rest', rfl, sameTriple, sameRest⟩

/-- Whether the step of a node is a rule or still to be chosen. -/
def isRecognised : Derivation -> Bool
  | .missing => false
  | .node _ step _ _ => step.isRecognised

/-- A step stays justified when its triples are replaced by triples of the same values. -/
theorem Justified.of_sameValue {loopExit : Bool} {conclusion conclusion' : Triple} {step : Step}
    {proved : Bool} {premises premises' : List Derivation}
    (justified : Justified ⟨.structural, loopExit⟩ (.node conclusion step proved premises))
    (same : conclusion'.sameValue conclusion = true)
    (samePremises : List.Forall₂ (fun a b => a.sameValue b = true) premises' premises) :
    Justified ⟨.structural, loopExit⟩ (.node conclusion' step proved premises') := by
  rcases conclusion' with ⟨pre', stmt', post'⟩
  rcases Triple.sameValue_iff.mp same with ⟨samePre, sameStmt, samePost⟩
  cases justified with
  | skip sameAssertions =>
      cases Stmt.eq_skip_of_sameValue sameStmt
      cases samePremises
      exact .skip (Expr.sameShape_of_sides samePre sameAssertions samePost)
  | assign sameAssertions =>
      rcases Stmt.exists_assign_of_sameValue sameStmt with ⟨value', rfl, sameValue⟩
      cases samePremises
      exact .assign (Expr.sameShape_of_sides samePre sameAssertions
        (Expr.sameValue_subst samePost _ sameValue))
  | sequence isFirst isSecond start middle final =>
      rcases Stmt.exists_seq_of_sameValue sameStmt with
        ⟨first', second', rfl, sameFirst, sameSecond⟩
      rcases exists_cons_of_sameValues samePremises with ⟨left', _, _, _, rfl, sameLeft, sameRest⟩
      rcases exists_cons_of_sameValues sameRest with ⟨right', _, _, _, rfl, sameRight, isEnd⟩
      cases isEnd
      rcases Triple.sameValue_iff.mp sameLeft with ⟨leftPre, leftStmt, leftPost⟩
      rcases Triple.sameValue_iff.mp sameRight with ⟨rightPre, rightStmt, rightPost⟩
      exact .sequence (Stmt.sameValue_of_sides leftStmt isFirst sameFirst)
        (Stmt.sameValue_of_sides rightStmt isSecond sameSecond)
        (Expr.sameShape_of_sides leftPre start samePre)
        (Expr.sameShape_of_sides leftPost middle rightPre)
        (Expr.sameShape_of_sides rightPost final samePost)
  | conditional isThen isElse thenPre elsePre thenPost elsePost =>
      rcases Stmt.exists_cond_of_sameValue sameStmt with
        ⟨guard', then', else', rfl, sameGuard, sameThen, sameElse⟩
      rcases exists_cons_of_sameValues samePremises with ⟨left', _, _, _, rfl, sameLeft, sameRest⟩
      rcases exists_cons_of_sameValues sameRest with ⟨right', _, _, _, rfl, sameRight, isEnd⟩
      cases isEnd
      rcases Triple.sameValue_iff.mp sameLeft with ⟨leftPre, leftStmt, leftPost⟩
      rcases Triple.sameValue_iff.mp sameRight with ⟨rightPre, rightStmt, rightPost⟩
      have sameThenPre := Expr.sameValue_conj samePre sameGuard
      have sameElsePre := Expr.sameValue_conj samePre (Expr.sameValue_negate sameGuard)
      exact .conditional (Stmt.sameValue_of_sides leftStmt isThen sameThen)
        (Stmt.sameValue_of_sides rightStmt isElse sameElse)
        (Expr.sameShape_of_sides leftPre thenPre sameThenPre)
        (Expr.sameShape_of_sides rightPre elsePre sameElsePre)
        (Expr.sameShape_of_sides leftPost thenPost samePost)
        (Expr.sameShape_of_sides rightPost elsePost samePost)
  | loop isBody bodyPre bodyPost exit =>
      rcases Stmt.exists_loop_of_sameValue sameStmt with ⟨guard', body', rfl, sameGuard, sameBody⟩
      rcases exists_cons_of_sameValues samePremises with
        ⟨premise', _, _, _, rfl, samePremise, isEnd⟩
      cases isEnd
      rcases Triple.sameValue_iff.mp samePremise with ⟨premisePre, premiseStmt, premisePost⟩
      refine .loop (Stmt.sameValue_of_sides premiseStmt isBody sameBody)
        (Expr.sameShape_of_sides premisePre bodyPre (Expr.sameValue_conj samePre sameGuard))
        (Expr.sameShape_of_sides premisePost bodyPost samePre) ?_
      intro checked
      have sameExit := Expr.sameValue_negate sameGuard
      rcases Bool.or_eq_true_iff.mp (exit checked) with invariantFirst | guardFirst
      · exact Bool.or_eq_true_iff.mpr (Or.inl
          (Expr.sameShape_of_sides samePost invariantFirst (Expr.sameValue_conj samePre sameExit)))
      · exact Bool.or_eq_true_iff.mpr (Or.inr
          (Expr.sameShape_of_sides samePost guardFirst (Expr.sameValue_conj sameExit samePre)))
  | consequence isStatement =>
      rcases exists_cons_of_sameValues samePremises with
        ⟨premise', _, _, _, rfl, samePremise, isEnd⟩
      cases isEnd
      rcases Triple.sameValue_iff.mp samePremise with ⟨_, premiseStmt, _⟩
      exact .consequence (Stmt.sameValue_of_sides premiseStmt isStatement sameStmt)

/-- A derivation that has the value of a valid one is valid. -/
theorem isValid_of_sameValue {loopExit : Bool} {root other : Derivation}
    (valid : root.isValid ⟨.structural, loopExit⟩ = true) (same : other.sameValue root = true)
    (recognised : Everywhere (fun node => node.isRecognised = true) root)
    (otherRecognised : Everywhere (fun node => node.isRecognised = true) other) :
    other.isValid ⟨.structural, loopExit⟩ = true := by
  induction root using nodeInduction generalizing other with
  | missing => cases valid
  | node conclusion step proved premises inductionHypothesis =>
      rcases sameValue_node_iff.mp same with
        ⟨conclusion', step', premises', rfl, sameConclusion, sameStep, samePremises⟩
      cases Step.eq_of_sameValue otherRecognised.root recognised.root sameStep
      rcases (isValid_node_iff _ _ _ _ _).mp valid with ⟨justified, premisesValid⟩
      refine (isValid_node_iff _ _ _ _ _).mpr
        ⟨justified.of_sameValue sameConclusion samePremises, ?_⟩
      intro other member
      rcases List.mem_iff_getElem.mp member with ⟨index, bound, rfl⟩
      have isPremise := List.getElem_mem (samePremises.length_eq ▸ bound)
      exact inductionHypothesis _ isPremise (premisesValid _ isPremise)
        (samePremises.get bound _) (recognised.premise isPremise) (otherRecognised.premise member)

/-- Equality by value is a congruence for the checker.  Among assertions in which every constant
is a number, equality of shape is an equivalence; it is equality by value, and two such assertions
are equal exactly when they are one and the same exact assertion.  Assertions of one shape have
the same variables, are both complete or both not, and stay of one shape when expressions of one
shape are put for a variable.  Two derivations of the same value, all of whose steps are rules or
absent, are both valid or both not under strict comparison, whether the end of a loop is looked at
or not. -/
theorem value_equality_congruence :
    (Equivalence fun a b : { e : Expr // e.isNumeric = true } => a.val.sameShape b.val = true) ∧
      (forall a b : Expr, a.isNumeric = true -> b.isNumeric = true ->
        (a.sameShape b = true ↔ a.sameValue b = true) ∧
          (a.sameShape b = true ↔ a.exact = b.exact)) ∧
      (forall a b : Expr, a.sameShape b = true ->
        a.variableNames = b.variableNames ∧ a.isComplete = b.isComplete ∧
          forall name replacement replacement', replacement.sameShape replacement' = true ->
            (a.subst name replacement).sameShape (b.subst name replacement') = true) ∧
      forall (loopExit : Bool) (root other : Derivation), root.sameValue other = true ->
        Everywhere (fun node => node.isRecognised = true) root ->
        Everywhere (fun node => node.isRecognised = true) other ->
          root.isValid ⟨.structural, loopExit⟩ = other.isValid ⟨.structural, loopExit⟩ := by
  refine ⟨Expr.sameShape_equivalence,
    fun a b aNumeric bNumeric => Expr.sameShape_iff_sameValue_and_exact aNumeric bNumeric, ?_, ?_⟩
  · intro a b same
    have sameValue := Expr.sameValue_of_sameShape same
    refine ⟨?_, Expr.isComplete_eq_of_sameValue sameValue, ?_⟩
    · rw [Expr.variableNames, Expr.variableNames, Expr.occurrences_eq_of_sameValue sameValue]
    · intro name replacement replacement' sameReplacement
      exact Expr.sameShape_subst same name sameReplacement
  · intro loopExit root other same recognised otherRecognised
    apply Bool.eq_iff_iff.mpr
    constructor
    · intro valid
      exact isValid_of_sameValue valid (sameValue_symm same) recognised otherRecognised
    · intro valid
      exact isValid_of_sameValue valid same otherRecognised recognised

/-- The assertion that `x` is at least zero after an amount is taken away. -/
def enough (amount : Number) : Expr :=
  .binary .atLeast (.binary .sub (.var "x") (.const amount)) (.const (.whole 0))

/-- The derivation of `{x - 1 ≥ 0} x := x - 1; skip {x ≥ 0}`, in which one is written as a given
number at the precondition of the root and in the statement of the first premise. -/
def lowered (one : Number) : Derivation :=
  .node ⟨enough one, .seq .complete (countBy (.whole 1)) .skip, atLeastConst 0⟩
    (.applied .sequence) false [
    .node ⟨enough (.whole 1), countBy one, atLeastConst 0⟩ (.applied .assign) false [],
    .node ⟨atLeastConst 0, .skip, atLeastConst 0⟩ (.applied .skip) false []]

theorem everywhere_lowered_iff (property : Derivation -> Prop) (one : Number) :
    Everywhere property (lowered one) ↔
      property (lowered one) ∧
        property (.node ⟨enough (.whole 1), countBy one, atLeastConst 0⟩ (.applied .assign) false
          []) ∧
        property (.node ⟨atLeastConst 0, .skip, atLeastConst 0⟩ (.applied .skip) false []) := by
  simp only [lowered, everywhere_node_iff, List.mem_cons, List.not_mem_nil, or_false,
    forall_eq_or_imp, forall_eq, false_implies, implies_true, and_true]

theorem lowered_value_equality_congruence :
    lowered (.whole 1) ≠ lowered unitDouble ∧
      (lowered (.whole 1)).sameValue (lowered unitDouble) = true ∧
        (lowered (.whole 1)).isValid .full = true ∧ (lowered unitDouble).isValid .full = true := by
  have same : (lowered (.whole 1)).sameValue (lowered unitDouble) = true := by decide +kernel
  have valid : (lowered (.whole 1)).isValid .full = true := by decide +kernel
  have recognised (one : Number) :
      Everywhere (fun node => node.isRecognised = true) (lowered one) :=
    (everywhere_lowered_iff _ one).mpr ⟨rfl, rfl, rfl⟩
  have sameVerdict := value_equality_congruence.2.2.2 true _ _ same (recognised _) (recognised _)
  exact ⟨by decide +kernel, same, valid, sameVerdict.symm.trans valid⟩

end Derivation
end HoareProof
