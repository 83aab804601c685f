import HoareProof.Proofs.PrefixGrammar

namespace HoareProof
namespace Expr
namespace PrefixForm

open Parsing

/-!
The language of the prefix form.  A term is a constant, a variable, or an operator in front
of terms, in parentheses.  How many arguments an operator takes and what they amount to is
said here once more, operator by operator and without the parser: it collects arguments of
any number first, up to a parenthesis or the end of the text, and looks at them afterwards.

The parser reads exactly the terms.  What is left open, closed too early or applied to too
few or too many arguments is rejected at whatever depth it stands, and only a number without
a value is an error.
-/

/-- The tokens that stand at the head of an application, with the operators they mean. -/
def heads : List (TokenKind × Operator) := [
  (.equal, .equal), (.less, .less), (.greater, .greater), (.atMost, .atMost),
  (.atLeast, .atLeast), (.plus, .add), (.minus, .sub), (.star, .mul), (.and, .and), (.or, .or),
  (.not, .not)]

/-- The operators of exactly two arguments. -/
def comparisons : List Operator := [.equal, .less, .greater, .atMost, .atLeast]

/-- The operators of two arguments or more. -/
def repeatable : List Operator := [.add, .sub, .mul, .and, .or]

/-- The legal applications of operators to arguments, and their values.  A minus sign in front
of one constant is its sign; more than two arguments group to the left. -/
inductive Applies : Operator -> List Expr -> Expr -> Prop where
  | negation (operand : Expr) : Applies .not [operand] (.negate operand)
  | negative (value : Number) : Applies .sub [.const value] (.const value.neg)
  | comparison {op : Operator} (compares : op ∈ comparisons) (left right : Expr) :
      Applies op [left, right] (.binary op left right)
  | grouping {op : Operator} (repeats : op ∈ repeatable) (first second : Expr)
      (more : List Expr) :
      Applies op (first :: second :: more) (more.foldl (.binary op) (.binary op first second))

/-- The tokens of a term and its value.  The arguments of an application are given as the list
of their tokens and values. -/
inductive Term : List Token -> Expr -> Prop where
  | leaf {token : Token} {e : Expr} (isLeaf : Leaf token e) : Term [token] e
  | application {opening head closing : Token} {op : Operator}
      {arguments : List (List Token × Expr)} {e : Expr} (opens : opening.kind = .openParen)
      (isHead : (head.kind, op) ∈ heads)
      (terms : forall argument, argument ∈ arguments -> Term argument.1 argument.2)
      (closes : closing.kind = .closeParen) (legal : Applies op (arguments.map Prod.snd) e) :
      Term (opening :: head :: (arguments.flatMap Prod.fst ++ [closing])) e

/-! ## Applications -/

theorem headOperator?_eq_some_iff {kind : TokenKind} {op : Operator} :
    headOperator? kind = some op ↔ (kind, op) ∈ heads := by
  cases kind <;> simp [headOperator?, heads, eq_comm]

theorem isRepeatable_iff {op : Operator} : isRepeatable op = true ↔ op ∈ repeatable := by
  cases op <;> simp [isRepeatable, repeatable]

/-- An operator at a head is negation, a comparison, or one that can be repeated. -/
theorem mem_comparisons_or_repeatable {kind : TokenKind} {op : Operator}
    (isHead : (kind, op) ∈ heads) (notNegation : op ≠ .not) :
    op ∈ comparisons ∨ op ∈ repeatable := by
  rw [← headOperator?_eq_some_iff] at isHead
  cases kind <;> cases isHead <;> simp_all [comparisons, repeatable]

theorem Applies.application? {op : Operator} {args : List Expr} {e : Expr}
    (applies : Applies op args e) : application? op args = some e := by
  cases applies with
  | negation operand => rfl
  | negative value => rfl
  | comparison compares left right =>
      simp only [comparisons, List.mem_cons, List.not_mem_nil, or_false] at compares
      rcases compares with rfl | rfl | rfl | rfl | rfl <;> rfl
  | grouping repeats first second more =>
      have notNegation : op ≠ .not := by
        rintro rfl
        simp [repeatable] at repeats
      cases more with
      | nil => simp [PrefixForm.application?, notNegation]
      | cons third more =>
          simp [PrefixForm.application?, notNegation, isRepeatable_iff.mpr repeats]

/-- What the parser makes of the arguments is what the operator takes. -/
theorem application?_eq_some_iff {kind : TokenKind} {op : Operator}
    (isHead : (kind, op) ∈ heads) {args : List Expr} {e : Expr} :
    application? op args = some e ↔ Applies op args e := by
  refine ⟨fun legal => ?_, Applies.application?⟩
  unfold application? at legal
  split at legal
  next isNegation =>
    subst isNegation
    split at legal
    · cases legal
      exact .negation _
    · cases legal
  next notNegation =>
    split at legal
    · split at legal
      next isMinus =>
        subst isMinus
        split at legal
        · cases legal
          exact .negative _
        · cases legal
      · cases legal
    next left right =>
      cases legal
      rcases mem_comparisons_or_repeatable isHead notNegation with compares | repeats
      · exact .comparison compares left right
      · exact .grouping repeats left right []
    next first second third more =>
      split at legal
      next repeats =>
        cases legal
        exact .grouping (isRepeatable_iff.mp repeats) first second (third :: more)
      · cases legal
    · cases legal

/-! ## Terms and rows of terms -/

/-- Terms in a row are derived one after the other. -/
theorem derives_flatMap {arguments : List (List Token × Expr)}
    (each : forall argument, argument ∈ arguments -> Derives argument.1 [argument.2]) :
    Derives (arguments.flatMap Prod.fst) (arguments.map Prod.snd) := by
  induction arguments with
  | nil => exact .nil
  | cons argument arguments inductionHypothesis =>
      have first := each argument List.mem_cons_self
      exact first.append (inductionHypothesis fun other member =>
        each other (List.mem_cons_of_mem _ member))

theorem Term.derives {tokens : List Token} {e : Expr} (isTerm : Term tokens e) :
    Derives tokens [e] := by
  induction isTerm with
  | leaf isLeaf => exact .leaf isLeaf .nil
  | application opens isHead _ closes legal inductionHypothesis =>
      exact .application opens (headOperator?_eq_some_iff.mpr isHead)
        (derives_flatMap inductionHypothesis) closes legal.application? .nil

/-- What is derived as a row is a row of terms. -/
theorem Derives.exists_terms {tokens : List Token} {args : List Expr}
    (derives : Derives tokens args) :
    ∃ arguments : List (List Token × Expr),
      (forall argument, argument ∈ arguments -> Term argument.1 argument.2) ∧
        tokens = arguments.flatMap Prod.fst ∧ args = arguments.map Prod.snd := by
  induction derives with
  | nil => exact ⟨[], fun _ member => absurd member List.not_mem_nil, rfl, rfl⟩
  | @leaf token _ e _ isLeaf _ inductionHypothesis =>
      rcases inductionHypothesis with ⟨behind, terms, rfl, rfl⟩
      exact ⟨([token], e) :: behind, List.forall_mem_cons.mpr ⟨.leaf isLeaf, terms⟩, rfl, rfl⟩
  | @application opening head closing _ _ _ e _ _ opens isHead _ closes legal _ innerHypothesis
      behindHypothesis =>
      rcases innerHypothesis with ⟨arguments, innerTerms, rfl, rfl⟩
      rcases behindHypothesis with ⟨behind, behindTerms, rfl, rfl⟩
      have listed := headOperator?_eq_some_iff.mp isHead
      have isTerm := Term.application opens listed innerTerms closes
        ((application?_eq_some_iff listed).mp legal)
      exact ⟨(_, e) :: behind, List.forall_mem_cons.mpr ⟨isTerm, behindTerms⟩, by simp, rfl⟩

theorem derives_singleton_iff {tokens : List Token} {e : Expr} :
    Derives tokens [e] ↔ Term tokens e := by
  refine ⟨fun derives => ?_, Term.derives⟩
  rcases derives.exists_terms with ⟨arguments, terms, rfl, isValue⟩
  rcases List.map_eq_singleton_iff.mp isValue.symm with ⟨argument, rfl, rfl⟩
  simpa using terms argument List.mem_cons_self

/-! ## Errors are those of numbers -/

theorem Sound.consumes {parser : Parser Expr} (sound : Sound parser) :
    Consumes parser fun used e => Derives used [e] :=
  sound

theorem arguments_blames {parser : Parser Expr} (sound : Sound parser) (blames : Blames parser)
    (bound : Nat) : Blames (arguments parser bound) := by
  induction bound with
  | zero =>
      intro tokens error fails
      cases fails
  | succ bound inductionHypothesis =>
      intro tokens error fails
      cases tokens with
      | nil => cases fails
      | cons token tokens =>
          simp only [arguments] at fails
          split at fails
          · cases fails
          · split at fails
            next failsFirst =>
              cases fails
              exact blames _ error failsFirst
            next first rest readFirst =>
              split at fails
              next failsMore =>
                cases fails
                have blamed := inductionHypothesis rest error failsMore
                exact blamed.mono (sound.consumes.subset readFirst)
              · cases fails

theorem applicationParser_blames {parser : Parser Expr} (sound : Sound parser)
    (blames : Blames parser) : Blames (applicationParser parser) := by
  intro tokens error fails
  cases tokens with
  | nil => cases fails
  | cons head tokens =>
      simp only [applicationParser] at fails
      split at fails
      · cases fails
      · split at fails
        next failsArguments =>
          cases fails
          exact (arguments_blames sound blames tokens.length tokens error failsArguments).cons
        · cases fails
        · split at fails <;> cases fails

theorem term_blames (bound : Nat) : Blames (term bound) := by
  induction bound with
  | zero =>
      intro tokens error fails
      cases fails
  | succ bound inductionHypothesis =>
      intro tokens error fails
      cases tokens with
      | nil => cases fails
      | cons token tokens =>
          simp only [term] at fails
          split at fails
          next kind => exact blamed_of_value (.whole kind) fails
          next kind => exact blamed_of_value (.decimal kind) fails
          · cases fails
          · cases fails
          · cases fails
          · have blames := applicationParser_blames (term_sound bound) inductionHypothesis
            exact (blames tokens error fails).cons
          · cases fails

end PrefixForm

open Parsing PrefixForm

theorem prefixParser_blames : Blames prefixParser := by
  intro tokens error fails
  exact term_blames tokens.length tokens error fails

/-- The parser reads tokens to the last exactly when they are a term. -/
theorem prefixParser_eq_ok_iff (tokens : List Token) (e : Expr) :
    prefixParser tokens = .ok (e, []) ↔ Term tokens e := by
  rw [← derives_singleton_iff]
  constructor
  · intro read
    exact prefixParser_sound.consumes.whole read
  · exact prefixParser_complete

/-- A text whose numbers have values is read as the term that its tokens are.  No tokens are
two terms, and a text whose tokens are none has no value. -/
theorem term_reads_exactly {text : String} {stream : Token.Stream}
    (lexed : Token.ofText text = .ok stream)
    (readable : forall token, token ∈ stream.tokens -> Readable token) :
    ReadsExactly (ofText? .prefixed text) (Term stream.tokens) :=
  readsExactly_of_agrees prefixParser_eq_ok_iff prefixParser_blames lexed readable

/-- The tokens of `(- (+ x 1 y) (- 2))`.  The first minus sign has two arguments, and the
second one belongs to a constant. -/
def sumLessConstant : Token.Stream where
  tokens := [⟨.openParen, "(", ⟨1, 1⟩⟩, ⟨.minus, "-", ⟨1, 2⟩⟩, ⟨.openParen, "(", ⟨1, 4⟩⟩,
    ⟨.plus, "+", ⟨1, 5⟩⟩, ⟨.name, "x", ⟨1, 7⟩⟩, ⟨.whole, "1", ⟨1, 9⟩⟩, ⟨.name, "y", ⟨1, 11⟩⟩,
    ⟨.closeParen, ")", ⟨1, 12⟩⟩, ⟨.openParen, "(", ⟨1, 14⟩⟩, ⟨.minus, "-", ⟨1, 15⟩⟩,
    ⟨.whole, "2", ⟨1, 17⟩⟩, ⟨.closeParen, ")", ⟨1, 18⟩⟩, ⟨.closeParen, ")", ⟨1, 19⟩⟩]
  stop := ⟨1, 20⟩

theorem sumLessConstant_reads_exactly :
    Token.ofText "(- (+ x 1 y) (- 2))" = .ok sumLessConstant ∧
      (forall token, token ∈ sumLessConstant.tokens -> Readable token) ∧
        ReadsExactly (ofText? .prefixed "(- (+ x 1 y) (- 2))") (Term sumLessConstant.tokens) ∧
          forall e, Term sumLessConstant.tokens e -> e =
            .binary .sub (.binary .add (.binary .add (.var "x") (.const (.whole 1))) (.var "y"))
              (.const (.whole (-2))) := by
  have lexed : Token.ofText "(- (+ x 1 y) (- 2))" = .ok sumLessConstant := rfl
  have readable : forall token, token ∈ sumLessConstant.tokens -> Readable token := by
    decide +kernel
  have reading := term_reads_exactly lexed readable
  refine ⟨lexed, readable, reading, fun e isTerm => reading.unique e _ isTerm ?_⟩
  exact (reading.reads _).mp rfl

end Expr
end HoareProof
