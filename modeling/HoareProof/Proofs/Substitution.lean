import HoareProof.Expr.Basic
import Mathlib.Data.Finset.Basic
import Mathlib.Logic.Function.Basic

namespace HoareProof

/-!
The variables of an assertion and what becomes of them when something is put for one.  Nothing
is bound in an assertion, so a substitution is settled at the leaves: it is a case of putting an
expression for every variable at once, and of that it is known what the result is made of, when
it is complete, and that two of them in a row are one.

The laws of substitution for one variable follow by looking at a single name.  They hold of
assertions under construction as well, whose holes no substitution fills.
-/

namespace Expr

/-! ## Names in order -/

theorem mem_insertName {name other : String} {names : List String} :
    other ∈ insertName name names ↔ other = name ∨ other ∈ names := by
  induction names with
  | nil => simp [insertName]
  | cons head rest inductionHypothesis =>
      rw [insertName]
      split
      · simp
      · split
        next same => simp [same]
        next => simp [inductionHypothesis, or_left_comm]

theorem mem_distinctNames {name : String} {names : List String} :
    name ∈ distinctNames names ↔ name ∈ names := by
  induction names with
  | nil => rfl
  | cons head rest inductionHypothesis =>
      change name ∈ insertName head (distinctNames rest) ↔ _
      rw [mem_insertName, inductionHypothesis, List.mem_cons]

theorem pairwise_insertName {name : String} {names : List String}
    (ascending : names.Pairwise (· < ·)) : (insertName name names).Pairwise (· < ·) := by
  induction names with
  | nil => exact List.pairwise_singleton _ _
  | cons head rest inductionHypothesis =>
      rcases List.pairwise_cons.mp ascending with ⟨first, ascendingRest⟩
      rw [insertName]
      split
      next less =>
        refine List.pairwise_cons.mpr ⟨?_, ascending⟩
        intro other member
        rcases List.mem_cons.mp member with rfl | later
        · exact less
        · exact String.lt_trans less (first other later)
      next notLess =>
        split
        next => exact ascending
        next different =>
          refine List.pairwise_cons.mpr ⟨?_, inductionHypothesis ascendingRest⟩
          intro other member
          rcases mem_insertName.mp member with rfl | later
          · apply Classical.byContradiction
            intro notGreater
            exact different (String.le_antisymm (String.not_lt.mp notGreater)
              (String.not_lt.mp notLess))
          · exact first other later

/-- Distinct names are in ascending order, and none of them stands there twice. -/
theorem pairwise_distinctNames (names : List String) :
    (distinctNames names).Pairwise (· < ·) := by
  induction names with
  | nil => exact .nil
  | cons head rest inductionHypothesis => exact pairwise_insertName inductionHypothesis

/-- The variables of an assertion as a set. -/
def variableSet (e : Expr) : Finset String :=
  e.variableNames.toFinset

theorem mem_variableSet {e : Expr} {name : String} :
    name ∈ e.variableSet ↔ name ∈ e.occurrences := by
  rw [variableSet, List.mem_toFinset, variableNames, mem_distinctNames]

/-! ## Putting an expression for every variable -/

/-- Puts an expression for every variable, for all of them at once. -/
def substAll (e : Expr) (replacements : String -> Expr) : Expr :=
  match e with
  | .hole => .hole
  | .var name => replacements name
  | .const value => .const value
  | .truth value => .truth value
  | .binary op left right => .binary op (left.substAll replacements) (right.substAll replacements)
  | .unary op operand => .unary op (operand.substAll replacements)

/-- A substitution for one variable puts every other variable for itself. -/
theorem subst_eq_substAll (e : Expr) (x : String) (replacement : Expr) :
    e.subst x replacement = e.substAll (Function.update .var x replacement) := by
  induction e with
  | hole | const | truth => rfl
  | var name =>
      rw [subst, substAll]
      by_cases same : name = x
      · rw [if_pos same, same, Function.update_self]
      · rw [if_neg same, Function.update_of_ne same]
  | binary op left right leftHypothesis rightHypothesis =>
      rw [subst, substAll, leftHypothesis, rightHypothesis]
  | unary op operand inductionHypothesis => rw [subst, substAll, inductionHypothesis]

@[simp] theorem substAll_var (e : Expr) : e.substAll .var = e := by
  induction e with
  | hole | const | truth | var => rfl
  | binary op left right leftHypothesis rightHypothesis =>
      rw [substAll, leftHypothesis, rightHypothesis]
  | unary op operand inductionHypothesis => rw [substAll, inductionHypothesis]

/-- Only what is put for the variables that occur matters. -/
theorem substAll_congr {e : Expr} {first second : String -> Expr}
    (agree : forall name, name ∈ e.occurrences -> first name = second name) :
    e.substAll first = e.substAll second := by
  induction e with
  | hole | const | truth => rfl
  | var name => exact agree name List.mem_cons_self
  | binary op left right leftHypothesis rightHypothesis =>
      rw [substAll, substAll,
        leftHypothesis fun name member => agree name (List.mem_append_left _ member),
        rightHypothesis fun name member => agree name (List.mem_append_right _ member)]
  | unary op operand inductionHypothesis =>
      rw [substAll, substAll, inductionHypothesis agree]

/-- What is put for the variables of what was put first can be put there beforehand. -/
theorem substAll_substAll (e : Expr) (first second : String -> Expr) :
    (e.substAll first).substAll second = e.substAll fun name => (first name).substAll second := by
  induction e with
  | hole | const | truth | var => rfl
  | binary op left right leftHypothesis rightHypothesis =>
      rw [substAll, substAll, substAll, leftHypothesis, rightHypothesis]
  | unary op operand inductionHypothesis => rw [substAll, substAll, substAll, inductionHypothesis]

/-- Each occurrence of a variable gives way to the occurrences in what is put for it. -/
theorem occurrences_substAll (e : Expr) (replacements : String -> Expr) :
    (e.substAll replacements).occurrences =
      e.occurrences.flatMap fun name => (replacements name).occurrences := by
  induction e with
  | hole | const | truth => rfl
  | var name => exact (List.flatMap_singleton _ _).symm
  | binary op left right leftHypothesis rightHypothesis =>
      rw [substAll, occurrences, occurrences, leftHypothesis, rightHypothesis, List.flatMap_append]
  | unary op operand inductionHypothesis =>
      rw [substAll, occurrences, occurrences, inductionHypothesis]

/-- A hole or an unknown operator stays, and none comes in but with what is put for a variable
that occurs. -/
theorem isComplete_substAll_iff {e : Expr} {replacements : String -> Expr} :
    (e.substAll replacements).isComplete = true ↔
      e.isComplete = true ∧
        forall name, name ∈ e.occurrences -> (replacements name).isComplete = true := by
  induction e with
  | hole => simp [substAll, isComplete]
  | const | truth | var => simp [substAll, isComplete, occurrences]
  | binary op left right leftHypothesis rightHypothesis =>
      simp only [substAll, isComplete, occurrences, Bool.and_eq_true, leftHypothesis,
        rightHypothesis, List.mem_append, or_imp, forall_and]
      tauto
  | unary op operand inductionHypothesis =>
      simp only [substAll, isComplete, occurrences, Bool.and_eq_true, inductionHypothesis,
        and_assoc]

/-! ## Putting an expression for one variable -/

variable {e a b : Expr} {x y : String}

theorem subst_of_not_mem (absent : x ∉ e.occurrences) : e.subst x a = e := by
  have agree : forall name, name ∈ e.occurrences ->
      Function.update Expr.var x a name = .var name := by
    intro name member
    exact Function.update_of_ne (ne_of_mem_of_not_mem member absent) _ _
  rw [subst_eq_substAll, substAll_congr agree, substAll_var]

/-- The variable itself goes, unless it comes in again with what is put for it. -/
theorem mem_occurrences_subst {name : String} :
    name ∈ (e.subst x a).occurrences ↔
      (name ∈ e.occurrences ∧ name ≠ x) ∨ (x ∈ e.occurrences ∧ name ∈ a.occurrences) := by
  rw [subst_eq_substAll, occurrences_substAll, List.mem_flatMap]
  constructor
  · rintro ⟨source, occurs, member⟩
    by_cases same : source = x
    · subst same
      rw [Function.update_self] at member
      exact .inr ⟨occurs, member⟩
    · rw [Function.update_of_ne same] at member
      cases List.mem_singleton.mp member
      exact .inl ⟨occurs, same⟩
  · rintro (⟨occurs, different⟩ | ⟨occurs, member⟩)
    · refine ⟨name, occurs, ?_⟩
      rw [Function.update_of_ne different]
      exact List.mem_singleton_self name
    · refine ⟨x, occurs, ?_⟩
      rwa [Function.update_self]

theorem variableSet_subst :
    (e.subst x a).variableSet =
      e.variableSet.erase x ∪ if x ∈ e.occurrences then a.variableSet else ∅ := by
  ext name
  rw [mem_variableSet, mem_occurrences_subst, Finset.mem_union, Finset.mem_erase, mem_variableSet]
  by_cases occurs : x ∈ e.occurrences
  · simp [occurs, mem_variableSet, and_comm]
  · simp [occurs, and_comm]

theorem isComplete_subst_iff :
    (e.subst x a).isComplete = true ↔
      e.isComplete = true ∧ (x ∉ e.occurrences ∨ a.isComplete = true) := by
  rw [subst_eq_substAll, isComplete_substAll_iff]
  refine and_congr_right fun _ => ⟨fun complete => ?_, fun possible name member => ?_⟩
  · by_cases occurs : x ∈ e.occurrences
    · have replaced := complete x occurs
      rw [Function.update_self] at replaced
      exact .inr replaced
    · exact .inl occurs
  · by_cases same : name = x
    · subst same
      rw [Function.update_self]
      exact possible.resolve_left (not_not_intro member)
    · rw [Function.update_of_ne same]
      rfl

/-- Of two substitutions for one variable, the second reaches only what the first has put. -/
theorem subst_subst_self (e : Expr) (x : String) (a b : Expr) :
    (e.subst x a).subst x b = e.subst x (a.subst x b) := by
  simp only [subst_eq_substAll, substAll_substAll]
  -- Both sides put something for every variable at once, and put the same for each name.
  refine substAll_congr fun name _ => ?_
  by_cases same : name = x
  · rw [same, Function.update_self, Function.update_self]
  · rw [Function.update_of_ne same, Function.update_of_ne same, substAll,
      Function.update_of_ne same]

/-- Substitutions for two variables can be exchanged, if what is put for the second does not
bring in the first. -/
theorem subst_subst_of_ne (e : Expr) (a : Expr) (different : x ≠ y) (absent : x ∉ b.occurrences) :
    (e.subst x a).subst y b = (e.subst y b).subst x (a.subst y b) := by
  -- What comes in for the second variable is met by the other substitution only if that one is
  -- made last, so it must have nothing to replace there.
  have unchanged : b.substAll (Function.update .var x (a.subst y b)) = b := by
    rw [← subst_eq_substAll, subst_of_not_mem absent]
  simp only [subst_eq_substAll, substAll_substAll] at unchanged ⊢
  refine substAll_congr fun name _ => ?_
  by_cases isFirst : name = x
  · subst isFirst
    rw [Function.update_self, Function.update_of_ne different, substAll, Function.update_self]
  · rw [Function.update_of_ne isFirst, substAll]
    by_cases isSecond : name = y
    · subst isSecond
      rw [Function.update_self, unchanged]
    · rw [Function.update_of_ne isSecond, substAll, Function.update_of_ne isFirst]

/-- The laws of substitution, for assertions with or without holes.  The variables are those of
the assertion without the one that is replaced, and those of the replacement if there was
something to replace; where there was not, nothing changes.  The result is complete when the
assertion is and what has come in is.  A second substitution for the same variable can be made
in the replacement, and one for another variable can be made first. -/
theorem substitution_is_lawful (e : Expr) (x : String) (a : Expr) :
    (e.subst x a).variableSet =
        e.variableSet.erase x ∪ (if x ∈ e.occurrences then a.variableSet else ∅) ∧
      (x ∉ e.occurrences -> e.subst x a = e) ∧
      ((e.subst x a).isComplete = true ↔
        e.isComplete = true ∧ (x ∉ e.occurrences ∨ a.isComplete = true)) ∧
      (forall b, (e.subst x a).subst x b = e.subst x (a.subst x b)) ∧
      forall y b, x ≠ y -> x ∉ b.occurrences ->
        (e.subst x a).subst y b = (e.subst y b).subst x (a.subst y b) := by
  refine ⟨variableSet_subst, subst_of_not_mem, isComplete_subst_iff, subst_subst_self e x a, ?_⟩
  intro y b different absent
  exact subst_subst_of_ne e a different absent

/-- A bound on one variable by a sum in which it occurs again, and a part that is still missing. -/
def boundedBySum : Expr :=
  .conj (.binary .less (.var "x") (.binary .add (.var "y") (.var "x"))) .hole

/-- A product, put for one variable, brings both variables in.  Something for the other variable
can be put before it or after it. -/
theorem boundedBySum_substitution_is_lawful :
    (boundedBySum.subst "x" (.binary .mul (.var "x") (.var "y"))).variableSet = {"x", "y"} ∧
      "z" ∉ boundedBySum.occurrences ∧ boundedBySum.subst "z" .hole = boundedBySum ∧
      "x" ≠ "y" ∧ "x" ∉ (Expr.var "z").occurrences ∧
      (boundedBySum.subst "x" (.binary .mul (.var "x") (.var "y"))).subst "y" (.var "z") =
        (boundedBySum.subst "y" (.var "z")).subst "x" (.binary .mul (.var "x") (.var "z")) := by
  have absent : "z" ∉ boundedBySum.occurrences := by decide
  have different : "x" ≠ "y" := by decide
  have notInReplacement : "x" ∉ (Expr.var "z").occurrences := by decide
  rcases substitution_is_lawful boundedBySum "x" (.binary .mul (.var "x") (.var "y")) with
    ⟨variablesAfter, _, _, _, exchanges⟩
  refine ⟨?_, absent, (substitution_is_lawful boundedBySum "z" .hole).2.1 absent, different,
    notInReplacement, exchanges "y" (.var "z") different notInReplacement⟩
  rw [variablesAfter]
  decide

end Expr
end HoareProof
