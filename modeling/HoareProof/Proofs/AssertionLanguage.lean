import HoareProof.Proofs.InfixGrammar

namespace HoareProof
namespace Expr
namespace InfixForm

open Parsing

/-!
The language of the infix form.  The parser walks over the tokens once, takes a minus
sign as part of a number only where an operand is expected, and groups to the left by
carrying along what it has read.  Nothing of this shows in the grammar.  Together with
the two directions proved of the grammar, it remains to see how the parser fails: a text
outside the grammar is rejected, and only a number without a value is an error.
-/

theorem Sound.consumes {parser : Parser Expr} {level : Level} (sound : Sound parser level) :
    Consumes parser (Derives level) :=
  sound

section

variable {operand : Parser Expr} {operator? : TokenKind -> Option Operator} {next : Level}

theorem chainFrom_blames (sound : Sound operand next) (blames : Blames operand) (bound : Nat) :
    forall left, Blames (chainFrom operand operator? bound left) := by
  induction bound with
  | zero =>
      intro left tokens error fails
      cases fails
  | succ bound inductionHypothesis =>
      intro left tokens error fails
      cases tokens with
      | nil => cases fails
      | cons token tokens =>
          simp only [chainFrom] at fails
          split at fails
          · cases fails
          · split at fails
            next failsRight =>
              cases fails
              exact (blames tokens error failsRight).cons
            next right rest readRight =>
              have blamed := inductionHypothesis _ rest error fails
              exact (blamed.mono (sound.consumes.subset readRight)).cons

theorem chain_blames (sound : Sound operand next) (blames : Blames operand) :
    Blames (chain operand operator?) := by
  intro tokens error fails
  simp only [chain] at fails
  split at fails
  next failsFirst =>
    cases fails
    exact blames tokens error failsFirst
  next left rest readFirst =>
    have blamed := chainFrom_blames sound blames rest.length left rest error fails
    exact blamed.mono (sound.consumes.subset readFirst)

end

section

variable {atomParser : Parser Expr}

theorem product_blames (sound : Sound atomParser .atom) (blames : Blames atomParser) :
    Blames (product atomParser) :=
  chain_blames sound blames

theorem sum_blames (sound : Sound atomParser .atom) (blames : Blames atomParser) :
    Blames (sum atomParser) :=
  chain_blames (product_sound sound) (product_blames sound blames)

theorem comparison_blames (sound : Sound atomParser .atom) (blames : Blames atomParser) :
    Blames (comparison atomParser) := by
  intro tokens error fails
  simp only [comparison] at fails
  split at fails
  next failsLeft =>
    cases fails
    exact sum_blames sound blames tokens error failsLeft
  · cases fails
  next left token rest readLeft =>
    split at fails
    · cases fails
    · split at fails
      next failsRight =>
        cases fails
        have blamed := sum_blames sound blames rest error failsRight
        exact blamed.cons.mono ((sum_sound sound).consumes.subset readLeft)
      · cases fails

theorem negation_blames (sound : Sound atomParser .atom) (blames : Blames atomParser) :
    Blames (negation atomParser) := by
  intro tokens
  induction tokens with
  | nil => exact comparison_blames sound blames []
  | cons token tokens inductionHypothesis =>
      intro error fails
      simp only [negation] at fails
      split at fails
      · split at fails
        next failsOperand =>
          cases fails
          exact (inductionHypothesis error failsOperand).cons
        · cases fails
      · exact comparison_blames sound blames (token :: tokens) error fails

theorem conjunction_blames (sound : Sound atomParser .atom) (blames : Blames atomParser) :
    Blames (conjunction atomParser) :=
  chain_blames (negation_sound sound) (negation_blames sound blames)

theorem disjunction_blames (sound : Sound atomParser .atom) (blames : Blames atomParser) :
    Blames (disjunction atomParser) :=
  chain_blames (conjunction_sound sound) (conjunction_blames sound blames)

end

theorem negativeNumber_blames : Blames negativeNumber := by
  intro tokens error fails
  cases tokens with
  | nil => cases fails
  | cons token tokens =>
      simp only [negativeNumber] at fails
      split at fails
      next kind =>
        exact blamed_of_value (.whole kind) fails
      next kind =>
        exact blamed_of_value (.decimal kind) fails
      · cases fails

theorem atom_blames (bound : Nat) : Blames (atom bound) := by
  induction bound with
  | zero =>
      intro tokens error fails
      cases fails
  | succ bound inductionHypothesis =>
      intro tokens error fails
      cases tokens with
      | nil => cases fails
      | cons token tokens =>
          simp only [atom] at fails
          split at fails
          next kind =>
            exact blamed_of_value (.whole kind) fails
          next kind =>
            exact blamed_of_value (.decimal kind) fails
          · exact (negativeNumber_blames tokens error fails).cons
          · cases fails
          · cases fails
          · cases fails
          · have innerSound := disjunction_sound (atom_sound bound)
            have innerBlames := disjunction_blames (atom_sound bound) inductionHypothesis
            refine (blamed_of_part innerSound.consumes innerBlames fails ?_).cons
            intro inner afterInner failsClosing
            refine blamed_of_expect failsClosing fun afterClosing succeeds => ?_
            cases succeeds
          · cases fails

end InfixForm

open Parsing InfixForm

theorem infixParser_blames : Blames infixParser := by
  intro tokens error fails
  exact disjunction_blames (atom_sound tokens.length) (atom_blames tokens.length) tokens error fails

/-- The parser reads tokens to the last exactly as the grammar derives them. -/
theorem infixParser_eq_ok_iff (tokens : List Token) (e : Expr) :
    infixParser tokens = .ok (e, []) ↔ Derives .disjunction tokens e := by
  constructor
  · intro read
    exact infixParser_sound.consumes.whole read
  · intro derives
    have read := infixParser_complete derives Level.disjunction.stops_nil
    rw [List.append_nil] at read
    exact read

/-- A text whose numbers have values is read as the assertion that its tokens derive.  No
tokens derive two assertions, and a text whose tokens derive none has no value. -/
theorem infix_reads_exactly {text : String} {stream : Token.Stream}
    (lexed : Token.ofText text = .ok stream)
    (readable : forall token, token ∈ stream.tokens -> Readable token) :
    ReadsExactly (ofText? .infixed text) (Derives .disjunction stream.tokens) :=
  readsExactly_of_agrees infixParser_eq_ok_iff infixParser_blames lexed readable

/-- The tokens of `1 - -2 - x`.  The first and the last minus sign join operands, and the
one between them belongs to a number. -/
def threeMinusSigns : Token.Stream where
  tokens := [⟨.whole, "1", ⟨1, 1⟩⟩, ⟨.minus, "-", ⟨1, 3⟩⟩, ⟨.minus, "-", ⟨1, 5⟩⟩,
    ⟨.whole, "2", ⟨1, 6⟩⟩, ⟨.minus, "-", ⟨1, 8⟩⟩, ⟨.name, "x", ⟨1, 10⟩⟩]
  stop := ⟨1, 11⟩

theorem threeMinusSigns_reads_exactly :
    Token.ofText "1 - -2 - x" = .ok threeMinusSigns ∧
      (forall token, token ∈ threeMinusSigns.tokens -> Readable token) ∧
        ReadsExactly (ofText? .infixed "1 - -2 - x")
          (Derives .disjunction threeMinusSigns.tokens) ∧
          forall e, Derives .disjunction threeMinusSigns.tokens e -> e =
            .binary .sub (.binary .sub (.const (.whole 1)) (.const (.whole (-2)))) (.var "x") := by
  have lexed : Token.ofText "1 - -2 - x" = .ok threeMinusSigns := rfl
  have readable : forall token, token ∈ threeMinusSigns.tokens -> Readable token := by
    decide +kernel
  have reading := infix_reads_exactly lexed readable
  refine ⟨lexed, readable, reading, fun e derives => reading.unique e _ derives ?_⟩
  exact (reading.reads _).mp rfl

end Expr
end HoareProof
