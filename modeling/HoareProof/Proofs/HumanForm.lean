import HoareProof.Proofs.Legible

namespace HoareProof
namespace Expr

/-!
The human form is read back.  It puts every application in parentheses, so whatever is
written is an atom of the infix grammar, and each of its operands is one as well; the
order of the levels never matters.  What the grammar derives the parser reads.
-/

namespace InfixForm

/-- An operator that joins two operands is written as a token that joins them at a level. -/
theorem exists_level_of_isBinary {op : Operator} (binary : op.isBinary = true) :
    ∃ kind level, op.kind? = some kind ∧ Sign level kind op := by
  cases op with
  | add => exact ⟨.plus, .sum, rfl, .plus⟩
  | sub => exact ⟨.minus, .sum, rfl, .minus⟩
  | mul => exact ⟨.star, .product, rfl, .star⟩
  | equal => exact ⟨.equal, .comparison, rfl, .equal⟩
  | less => exact ⟨.less, .comparison, rfl, .less⟩
  | greater => exact ⟨.greater, .comparison, rfl, .greater⟩
  | atMost => exact ⟨.atMost, .comparison, rfl, .atMost⟩
  | atLeast => exact ⟨.atLeast, .comparison, rfl, .atLeast⟩
  | and => exact ⟨.and, .conjunction, rfl, .and⟩
  | or => exact ⟨.or, .disjunction, rfl, .or⟩
  | not | other => cases binary

variable {tokens first second : List Token} {e left right : Expr}

theorem Derives.negationOfAtom (atom : Derives .atom tokens e) : Derives .negation tokens e :=
  .ofComparison (.ofSum (.ofProduct (.ofAtom atom)))

/-- Two atoms can be joined at any level. -/
theorem Derives.join (leftAtom : Derives .atom first left) (rightAtom : Derives .atom second right)
    {level : Level} {token : Token} {op : Operator}
    (sign : Sign level token.kind op) :
    Derives .disjunction (first ++ token :: second) (.binary op left right) := by
  have leftProduct := Derives.ofAtom leftAtom
  have leftConjunction := Derives.ofNegation leftAtom.negationOfAtom
  cases level with
  | atom | negation => cases sign
  | product =>
      have product := Derives.multiply sign leftProduct rightAtom
      exact .ofConjunction (.ofNegation (.ofComparison (.ofSum (.ofProduct product))))
  | sum =>
      have sum := Derives.add sign (.ofProduct leftProduct) (.ofAtom rightAtom)
      exact .ofConjunction (.ofNegation (.ofComparison (.ofSum sum)))
  | comparison =>
      have comparison := Derives.compare sign (.ofProduct leftProduct)
        (.ofProduct (.ofAtom rightAtom))
      exact .ofConjunction (.ofNegation (.ofComparison comparison))
  | conjunction =>
      exact .ofConjunction (.conjoin sign leftConjunction rightAtom.negationOfAtom)
  | disjunction =>
      exact .disjoin sign (.ofConjunction leftConjunction)
        (.ofNegation rightAtom.negationOfAtom)

end InfixForm

open InfixForm Token

theorem spells_constant {value : Number} (writable : value.Writable) {rest : List Char}
    (bounded : Bounded rest) :
    Spells value.text.toList (InfixForm.Derives .atom · (.const value)) rest := by
  cases sign : value.isNegative with
  | false =>
      apply (Number.spells_text writable sign bounded).mono
      rintro _ ⟨token, rfl, denotes⟩
      exact .number denotes
  | true =>
      -- The sign is a token of its own, which the grammar takes back into the constant.
      have unsigned := Number.spells_text writable.neg (Number.isNegative_neg sign) bounded
      rw [Number.toList_text_of_isNegative writable sign, ← List.singleton_append]
      apply ((spells_minus _).append unsigned).mono
      rintro _ ⟨_, _, rfl, ⟨minus, rfl, isMinus, _⟩, token, rfl, denotes⟩
      have derives := InfixForm.Derives.negativeNumber isMinus denotes
      rwa [Number.neg_neg] at derives

/-- The human form of an assertion spells tokens that derive it as an atom. -/
theorem spells_human {e : Expr} (printable : e.Printable) {rest : List Char}
    (bounded : Bounded rest) : Spells e.human.toList (InfixForm.Derives .atom · e) rest := by
  induction e generalizing rest with
  | hole => exact absurd printable.complete (by decide)
  | var name =>
      apply (spells_name (legible_var_iff.mp printable) bounded).mono
      rintro _ ⟨token, rfl, kind, isText⟩
      rw [String.ofList_toList] at isText
      exact isText ▸ .name kind
  | const value => exact spells_constant (legible_const_iff.mp printable) bounded
  | truth value =>
      apply (spells_truth value bounded).mono
      rintro _ ⟨token, rfl, kind, _⟩
      cases value
      · exact .falsehood kind
      · exact .truth kind
  | binary op left right leftHypothesis rightHypothesis =>
      obtain ⟨binary, leftPrintable, rightPrintable⟩ := legible_binary_iff.mp printable
      obtain ⟨kind, level, known, sign⟩ := exists_level_of_isBinary binary
      have chars : (Expr.binary op left right).human.toList =
          '(' :: ((left.human.toList ++ ' ' :: (op.human.toList ++ ' ' :: right.human.toList)) ++
            [')']) := by
        simp [human]
      rw [chars]
      apply (((leftHypothesis leftPrintable (bounded_cons rfl _)).spaced
        ((Operator.spells_human known _).spaced
          (rightHypothesis rightPrintable (bounded_cons rfl _)))).grouped).mono
      rintro _ ⟨opening, _, closing, rfl, opens, closes, first, _, rfl, leftDerives, _, second, rfl,
        ⟨token, rfl, isKind, _⟩, rightDerives⟩
      -- Both operands are atoms, so they can be joined at the level of any operator.
      rw [← isKind] at sign
      exact .group opens closes (leftDerives.join rightDerives sign)
  | unary op operand inductionHypothesis =>
      obtain ⟨rfl, operandPrintable⟩ := legible_unary_iff.mp printable
      have chars : (Expr.unary .not operand).human.toList =
          '(' :: ((['¬'] ++ operand.human.toList) ++ [')']) := by
        simp [human, Operator.human]
      rw [chars]
      apply (((spells_negation _).append
        (inductionHypothesis operandPrintable (bounded_cons rfl _))).grouped).mono
      rintro _ ⟨opening, _, closing, rfl, opens, closes, _, tokens, rfl, ⟨token, rfl, isNot, _⟩,
        derives⟩
      have negation := Derives.negate isNot derives.negationOfAtom
      exact .group opens closes (.ofConjunction (.ofNegation negation))

theorem ofText?_human {e : Expr} (printable : e.Printable) :
    ofText? .infixed e.human = .ok (some e) := by
  obtain ⟨stream, lexed, atom⟩ := (spells_human printable bounded_nil).ofText
  have derives := Derives.ofConjunction (.ofNegation atom.negationOfAtom)
  have read := infixParser_complete derives (Level.disjunction.stops_nil)
  rw [List.append_nil] at read
  exact Parsing.readAll?_eq_some_iff.mpr ⟨stream, lexed, read⟩

theorem printable_of_short {e : Expr} (short : e.Short)
    (finite : forall value, value ∈ e.constants -> value.isFinite = true) : e.Printable := by
  refine ⟨short.complete, short.names, fun value member => ?_⟩
  exact ⟨finite value member, short.constants value member⟩

/-- What has been read can be written, unless a constant is infinite. -/
theorem printable_of_ofText? {form : Form} {text : String} {e : Expr}
    (read : ofText? form text = .ok (some e))
    (finite : forall value, value ∈ e.constants -> value.isFinite = true) : e.Printable :=
  printable_of_short (short_of_ofText? read) finite

/-- The infix form reads what the human form writes.  Whatever a text in either form is
read as can be written in its turn, unless a constant has become infinite. -/
theorem human_round_trip :
    (forall e : Expr, e.Printable -> ofText? .infixed e.human = .ok (some e)) ∧
      forall (form : Form) (text : String) (e : Expr), ofText? form text = .ok (some e) ->
        (e.Printable ↔ forall value, value ∈ e.constants -> value.isFinite = true) ∧
          (e.Printable -> ofText? .infixed e.human = .ok (some e)) := by
  refine ⟨fun e printable => ofText?_human printable, fun form text e read => ⟨⟨?_, ?_⟩, ?_⟩⟩
  · intro printable value member
    exact (printable.constants value member).1
  · exact printable_of_ofText? read
  · exact ofText?_human

/-- The assertion `(¬((x - -3) < 2.5e-05))`. -/
def farFromZero : Expr :=
  .negate (.binary .less (.binary .sub (.var "x") (.const (.whole (-3))))
    (.const (.double (Binary64.ofDecimal false 25 (-6)))))

theorem farFromZero_human_round_trip :
    farFromZero.Printable ∧ farFromZero.human = "(¬((x - -3) < 2.5e-05))" ∧
      ofText? .infixed farFromZero.human = .ok (some farFromZero) ∧
        ofText? .prefixed "(not (< (- x (- 3)) 0.25e-4))" = .ok (some farFromZero) ∧
          forall value, value ∈ farFromZero.constants -> value.isFinite = true := by
  have printable : farFromZero.Printable := by decide +kernel
  have read : ofText? .prefixed "(not (< (- x (- 3)) 0.25e-4))" = .ok (some farFromZero) := by
    decide +kernel
  refine ⟨printable, by decide +kernel, human_round_trip.1 farFromZero printable, read, ?_⟩
  exact (human_round_trip.2 .prefixed _ farFromZero read).1.mp printable

end Expr
end HoareProof
