import HoareProof.Stmt.Printer
import HoareProof.Stmt.Reader
import HoareProof.Proofs.HumanForm

namespace HoareProof
namespace Stmt

open Parsing Token
open HoareProof.Expr (InfixForm.Level InfixForm.Derives infixParser_complete)

/-!
The text of a statement is read back.  A semicolon binds loosest, so a sequence needs
parentheses wherever one simple statement is expected: before a semicolon, in the
branches of a conditional, and in the body of a loop.  Nothing else needs them, because
every conditional has both branches and an assertion ends before each of the words and
signs that can follow it.
-/

/-! ## The grammar -/

/-- The two places for a statement: one for a single simple statement, and one for
simple statements with semicolons between them. -/
inductive Place where
  | simple | sequence
deriving DecidableEq, Repr

/-- The tokens that derive a statement in a place. -/
inductive Derives : Place -> List Token -> Stmt -> Prop where
  | skip {token : Token} (kind : token.kind = .skipWord) : Derives .simple [token] .skip
  | assign {name sign : Token} {tokens : List Token} {value : Expr} (isName : name.kind = .name)
      (becomes : sign.kind = .assign) (valueDerives : InfixForm.Derives .disjunction tokens value) :
      Derives .simple (name :: sign :: tokens) (.assign .complete name.text value)
  | cond {ifToken thenToken elseToken : Token} {test first second : List Token} {guard : Expr}
      {thenBranch elseBranch : Stmt} (isIf : ifToken.kind = .ifWord)
      (guardDerives : InfixForm.Derives .disjunction test guard)
      (isThen : thenToken.kind = .thenWord) (thenDerives : Derives .simple first thenBranch)
      (isElse : elseToken.kind = .elseWord) (elseDerives : Derives .simple second elseBranch) :
      Derives .simple (ifToken :: (test ++ thenToken :: (first ++ elseToken :: second)))
        (.cond .complete guard thenBranch elseBranch)
  | loop {whileToken doToken : Token} {test tokens : List Token} {guard : Expr} {body : Stmt}
      (isWhile : whileToken.kind = .whileWord)
      (guardDerives : InfixForm.Derives .disjunction test guard) (isDo : doToken.kind = .doWord)
      (bodyDerives : Derives .simple tokens body) :
      Derives .simple (whileToken :: (test ++ doToken :: tokens)) (.loop .complete guard body)
  | group {opening closing : Token} {tokens : List Token} {stmt : Stmt}
      (opens : opening.kind = .openParen) (closes : closing.kind = .closeParen)
      (inner : Derives .sequence tokens stmt) :
      Derives .simple (opening :: (tokens ++ [closing])) stmt
  | single {tokens : List Token} {stmt : Stmt} (inner : Derives .simple tokens stmt) :
      Derives .sequence tokens stmt
  | join {semicolon : Token} {tokens more : List Token} {first second : Stmt}
      (firstDerives : Derives .simple tokens first) (separates : semicolon.kind = .semicolon)
      (secondDerives : Derives .sequence more second) :
      Derives .sequence (tokens ++ semicolon :: more) (.seq .complete first second)

/-- The tokens behind a statement cannot continue the last assertion in it. -/
abbrev Stops (rest : List Token) : Prop :=
  InfixForm.Level.disjunction.Stops rest

/-- The tokens behind a statement do not go on with a sequence either. -/
def Ends (rest : List Token) : Prop :=
  Stops rest ∧ forall token, rest.head? = some token -> token.kind ≠ .semicolon

theorem stops_cons {token : Token} {kind : TokenKind} (isKind : token.kind = kind)
    (joinsNothing : Expr.InfixForm.joined? kind = none) (rest : List Token) :
    Stops (token :: rest) :=
  InfixForm.Level.stops_of_joined?_eq_none .disjunction (isKind ▸ joinsNothing)

theorem ends_nil : Ends [] :=
  ⟨InfixForm.Level.disjunction.stops_nil, nofun⟩

/-- The parser of a place reads a statement off its tokens, whatever stands behind them
as long as it cannot belong to the statement. -/
def Reads : Place -> List Token -> Stmt -> Prop
  | .simple, tokens, stmt => forall bound rest, tokens.length ≤ bound -> Stops rest ->
      simple bound (tokens ++ rest) = .ok (stmt, rest)
  | .sequence, tokens, stmt => forall bound count rest, tokens.length ≤ bound ->
      tokens.length ≤ count -> Ends rest ->
        sequenceOf (simple bound) count (tokens ++ rest) = .ok (stmt, rest)

theorem sequenceOf_stop {parser : Parser Stmt} {tokens rest : List Token} {stmt : Stmt}
    (read : parser tokens = .ok (stmt, rest))
    (noSemicolon : forall token, rest.head? = some token -> token.kind ≠ .semicolon)
    (count : Nat) : sequenceOf parser count tokens = .ok (stmt, rest) := by
  cases count with
  | zero => exact read
  | succ count =>
      cases rest with
      | nil => rw [sequenceOf, read]
      | cons token rest =>
          rw [sequenceOf, read]
          exact if_neg (noSemicolon token rfl)

theorem expect_cons {token : Token} {kind : TokenKind} (isKind : token.kind = kind)
    (rest : List Token) : expect kind (token :: rest) = .ok rest :=
  expect_eq_ok_iff.mpr ⟨token, rfl, isKind⟩

theorem Derives.reads {place : Place} {tokens : List Token} {stmt : Stmt}
    (derives : Derives place tokens stmt) : Reads place tokens stmt := by
  induction derives with
  | skip kind =>
      intro bound rest enough stops
      cases bound with
      | zero => cases enough
      | succ bound => simp [simple, kind]
  | assign isName becomes valueDerives =>
      intro bound rest enough stops
      cases bound with
      | zero => cases enough
      | succ bound =>
          simp only [List.cons_append, simple, isName, expect_cons becomes, ok_bind,
            infixParser_complete valueDerives stops]
          rfl
  | cond isIf guardDerives isThen _ isElse _ thenReads elseReads =>
      intro bound rest enough stops
      cases bound with
      | zero => cases enough
      | succ bound =>
          simp only [List.length_cons, List.length_append] at enough
          -- Each part ends at the word that follows it, which joins no operands.
          have guardRead behind := infixParser_complete guardDerives (stops_cons isThen rfl behind)
          have thenRead behind := thenReads bound _ (by omega) (stops_cons isElse rfl behind)
          have elseRead := elseReads bound rest (by omega) stops
          simp only [List.cons_append, List.append_assoc, simple, isIf, guardRead, ok_bind,
            expect_cons isThen, thenRead, expect_cons isElse, elseRead]
          rfl
  | loop isWhile guardDerives isDo _ bodyReads =>
      intro bound rest enough stops
      cases bound with
      | zero => cases enough
      | succ bound =>
          simp only [List.length_cons, List.length_append] at enough
          have guardRead behind := infixParser_complete guardDerives (stops_cons isDo rfl behind)
          have bodyRead := bodyReads bound rest (by omega) stops
          simp only [List.cons_append, List.append_assoc, simple, isWhile, guardRead, ok_bind,
            expect_cons isDo, bodyRead]
          rfl
  | @group opening closing tokens stmt opens closes _ innerReads =>
      intro bound rest enough stops
      cases bound with
      | zero => cases enough
      | succ bound =>
          simp only [List.length_cons, List.length_append] at enough
          have ends : Ends (closing :: rest) := by
            refine ⟨stops_cons closes rfl _, ?_⟩
            rintro _ ⟨⟩
            rw [closes]
            decide
          have innerRead := innerReads bound (tokens ++ closing :: rest).length _ (by omega)
            (by simp) ends
          simp only [List.cons_append, List.append_assoc, List.nil_append, simple, opens, innerRead,
            ok_bind, expect_cons closes]
          rfl
  | single _ innerReads =>
      intro bound count rest enough _ ends
      exact sequenceOf_stop (innerReads bound rest enough ends.1) ends.2 count
  | join _ separates _ firstReads secondReads =>
      intro bound count rest enough enoughCount ends
      simp only [List.length_append, List.length_cons] at enough enoughCount
      cases count with
      | zero => omega
      | succ count =>
          have firstRead behind := firstReads bound _ (by omega) (stops_cons separates rfl behind)
          have secondRead := secondReads bound count rest (by omega) (by omega) ends
          rw [List.append_assoc, List.cons_append, sequenceOf, firstRead]
          simp only [separates, if_true, secondRead]

/-- The parser reads what the grammar derives. -/
theorem parser_complete {tokens : List Token} {stmt : Stmt}
    (derives : Derives .sequence tokens stmt) : parser tokens = .ok (stmt, []) := by
  have read := derives.reads tokens.length tokens.length [] (Nat.le_refl _) (Nat.le_refl _) ends_nil
  rwa [List.append_nil] at read

/-! ## The text -/

/-- A statement of which no part is a draft or missing, whose targets have names and
whose assertions can be printed. -/
def Printable : Stmt -> Prop
  | .hole => False
  | .skip => True
  | .assign stage target value =>
      stage = .complete ∧ Token.isName target = true ∧ value.Printable
  | .seq stage first second => stage = .complete ∧ first.Printable ∧ second.Printable
  | .cond stage guard thenBranch elseBranch =>
      stage = .complete ∧ guard.Printable ∧ thenBranch.Printable ∧ elseBranch.Printable
  | .loop stage guard body => stage = .complete ∧ guard.Printable ∧ body.Printable

instance decidablePrintable : (stmt : Stmt) -> Decidable stmt.Printable
  | .hole => inferInstanceAs (Decidable False)
  | .skip => inferInstanceAs (Decidable True)
  | .assign _ _ _ => inferInstanceAs (Decidable (_ ∧ _ ∧ _))
  | .seq _ first second =>
      have := decidablePrintable first
      have := decidablePrintable second
      inferInstanceAs (Decidable (_ ∧ _ ∧ _))
  | .cond _ _ thenBranch elseBranch =>
      have := decidablePrintable thenBranch
      have := decidablePrintable elseBranch
      inferInstanceAs (Decidable (_ ∧ _ ∧ _ ∧ _))
  | .loop _ _ body =>
      have := decidablePrintable body
      inferInstanceAs (Decidable (_ ∧ _ ∧ _))

/-- The tightest place for the text of a statement. -/
def place : Stmt -> Place
  | .seq .. => .sequence
  | _ => .simple

/-- A text spells a statement for a place in front of every boundary. -/
def SpelledAt (place : Place) (text : String) (stmt : Stmt) : Prop :=
  forall rest, Bounded rest -> Spells text.toList (Derives place · stmt) rest

theorem SpelledAt.sequence {stmt : Stmt} (spelled : SpelledAt stmt.place stmt.text stmt) :
    SpelledAt .sequence stmt.text stmt := by
  intro rest bounded
  cases stmt with
  | seq => exact spelled rest bounded
  | hole | skip | assign | cond | loop => exact (spelled rest bounded).mono fun _ => .single

/-- Parentheses make room for a sequence where a simple statement is expected. -/
theorem SpelledAt.parenthesized {stmt : Stmt} (spelled : SpelledAt stmt.place stmt.text stmt) :
    SpelledAt .simple (stmt.parenthesized stmt.text) stmt := by
  intro rest bounded
  cases stmt with
  | hole | skip | assign | cond | loop => exact spelled rest bounded
  | seq stage first second =>
      have chars : (Stmt.parenthesized (.seq stage first second)
          (Stmt.seq stage first second).text).toList =
            '(' :: ((Stmt.seq stage first second).text.toList ++ [')']) := by
        simp [Stmt.parenthesized]
      rw [chars]
      apply (spelled _ (bounded_cons rfl _)).grouped.mono
      rintro _ ⟨opening, tokens, closing, rfl, opens, closes, derives⟩
      exact .group opens closes derives

theorem spells_assertion {e : Expr} (printable : e.Printable) {rest : List Char}
    (bounded : Bounded rest) : Spells e.human.toList (InfixForm.Derives .disjunction · e) rest := by
  apply (Expr.spells_human printable bounded).mono
  intro tokens atom
  exact .ofConjunction (.ofNegation atom.negationOfAtom)

theorem spelledAt_assign {target : String} {value : Expr} (named : Token.isName target = true)
    (printable : value.Printable) :
    SpelledAt .simple (Stmt.assign .complete target value).text (.assign .complete target value) := by
  intro rest bounded
  have chars : (Stmt.assign .complete target value).text.toList =
      target.toList ++ ' ' :: ([':', '='] ++ ' ' :: value.human.toList) := by
    simp [text, isEmpty_of_isName named]
  have spellsBecomes (rest : List Char) : Spells [':', '='] (Single .assign [':', '=']) rest :=
    spells_lexeme rfl rfl
  rw [chars]
  apply ((spells_name named (bounded_cons rfl _)).spaced
    ((spellsBecomes _).spaced (spells_assertion printable bounded))).mono
  rintro _ ⟨_, _, rfl, ⟨name, rfl, isName, isText⟩, _, _, rfl, ⟨sign, rfl, becomes, _⟩, derives⟩
  rw [String.ofList_toList] at isText
  exact isText ▸ .assign isName becomes derives

theorem spelledAt_seq {first second : Stmt}
    (firstSpelled : SpelledAt .simple (first.parenthesized first.text) first)
    (secondSpelled : SpelledAt .sequence second.text second) :
    SpelledAt .sequence (Stmt.seq .complete first second).text (.seq .complete first second) := by
  intro rest bounded
  have chars : (Stmt.seq .complete first second).text.toList =
      (first.parenthesized first.text).toList ++ ([';'] ++ ' ' :: second.text.toList) := by
    simp [text]
  have spellsSemicolon (rest : List Char) : Spells [';'] (Single .semicolon [';']) rest :=
    spells_lexeme rfl rfl
  rw [chars]
  apply ((firstSpelled _ (bounded_cons rfl _)).append ((spellsSemicolon _).spaced
    (secondSpelled rest bounded))).mono
  rintro _ ⟨_, _, rfl, firstDerives, _, _, rfl, ⟨semicolon, rfl, separates, _⟩, secondDerives⟩
  exact .join firstDerives separates secondDerives

theorem spelledAt_cond {guard : Expr} (printable : guard.Printable) {thenBranch elseBranch : Stmt}
    (thenSpelled : SpelledAt .simple (thenBranch.parenthesized thenBranch.text) thenBranch)
    (elseSpelled : SpelledAt .simple (elseBranch.parenthesized elseBranch.text) elseBranch) :
    SpelledAt .simple (Stmt.cond .complete guard thenBranch elseBranch).text
      (.cond .complete guard thenBranch elseBranch) := by
  intro rest bounded
  have chars : (Stmt.cond .complete guard thenBranch elseBranch).text.toList =
      ['i', 'f'] ++ ' ' :: (guard.human.toList ++ ' ' :: (['t', 'h', 'e', 'n'] ++ ' ' ::
        ((thenBranch.parenthesized thenBranch.text).toList ++ ' ' :: (['e', 'l', 's', 'e'] ++ ' ' ::
          (elseBranch.parenthesized elseBranch.text).toList)))) := by
    simp [text]
  rw [chars]
  apply ((spells_word rfl rfl (bounded_cons rfl _)).spaced
    ((spells_assertion printable (bounded_cons rfl _)).spaced
      ((spells_word rfl rfl (bounded_cons rfl _)).spaced ((thenSpelled _ (bounded_cons rfl _)).spaced
        ((spells_word rfl rfl (bounded_cons rfl _)).spaced (elseSpelled rest bounded)))))).mono
  rintro _ ⟨_, _, rfl, ⟨ifToken, rfl, isIf, _⟩, _, _, rfl, guardDerives,
    _, _, rfl, ⟨thenToken, rfl, isThen, _⟩, _, _, rfl, thenDerives,
    _, _, rfl, ⟨elseToken, rfl, isElse, _⟩, elseDerives⟩
  exact .cond isIf guardDerives isThen thenDerives isElse elseDerives

theorem spelledAt_loop {guard : Expr} (printable : guard.Printable) {body : Stmt}
    (bodySpelled : SpelledAt .simple (body.parenthesized body.text) body) :
    SpelledAt .simple (Stmt.loop .complete guard body).text (.loop .complete guard body) := by
  intro rest bounded
  have chars : (Stmt.loop .complete guard body).text.toList =
      ['w', 'h', 'i', 'l', 'e'] ++ ' ' :: (guard.human.toList ++ ' ' :: (['d', 'o'] ++ ' ' ::
        (body.parenthesized body.text).toList)) := by
    simp [text]
  rw [chars]
  apply ((spells_word rfl rfl (bounded_cons rfl _)).spaced
    ((spells_assertion printable (bounded_cons rfl _)).spaced
      ((spells_word rfl rfl (bounded_cons rfl _)).spaced (bodySpelled rest bounded)))).mono
  rintro _ ⟨_, _, rfl, ⟨whileToken, rfl, isWhile, _⟩, _, _, rfl, guardDerives,
    _, _, rfl, ⟨doToken, rfl, isDo, _⟩, bodyDerives⟩
  exact .loop isWhile guardDerives isDo bodyDerives

theorem spelledAt_text {stmt : Stmt} (printable : stmt.Printable) :
    SpelledAt stmt.place stmt.text stmt := by
  induction stmt with
  | hole => exact printable.elim
  | skip =>
      intro rest bounded
      have chars : Stmt.skip.text.toList = ['s', 'k', 'i', 'p'] := by simp [text]
      rw [chars]
      apply (spells_word rfl rfl bounded).mono
      rintro _ ⟨token, rfl, kind, _⟩
      exact .skip kind
  | assign stage target value =>
      obtain ⟨rfl, named, valuePrintable⟩ := printable
      exact spelledAt_assign named valuePrintable
  | seq stage first second firstHypothesis secondHypothesis =>
      obtain ⟨rfl, firstPrintable, secondPrintable⟩ := printable
      exact spelledAt_seq (firstHypothesis firstPrintable).parenthesized
        (secondHypothesis secondPrintable).sequence
  | cond stage guard thenBranch elseBranch thenHypothesis elseHypothesis =>
      obtain ⟨rfl, guardPrintable, thenPrintable, elsePrintable⟩ := printable
      exact spelledAt_cond guardPrintable (thenHypothesis thenPrintable).parenthesized
        (elseHypothesis elsePrintable).parenthesized
  | loop stage guard body inductionHypothesis =>
      obtain ⟨rfl, guardPrintable, bodyPrintable⟩ := printable
      exact spelledAt_loop guardPrintable (inductionHypothesis bodyPrintable).parenthesized

/-- A text that spells a statement, in either place, is read as that statement. -/
theorem SpelledAt.ofText? {place : Place} {text : String} {stmt : Stmt}
    (spelled : SpelledAt place text stmt) : Stmt.ofText? text = .ok (some stmt) := by
  obtain ⟨stream, lexed, derives⟩ := (spelled [] bounded_nil).ofText
  have sequence : Derives .sequence stream.tokens stmt := by
    cases place with
    | simple => exact .single derives
    | sequence => exact derives
  exact readAll?_eq_some_iff.mpr ⟨stream, lexed, parser_complete sequence⟩

/-- What is written for a statement is read as that statement, however sequences,
conditionals and loops are nested in it, and so is what is written for it inside another
statement. -/
theorem text_round_trip (stmt : Stmt) (printable : stmt.Printable) :
    ofText? stmt.text = .ok (some stmt) ∧
      ofText? (stmt.parenthesized stmt.text) = .ok (some stmt) := by
  have spelled := spelledAt_text printable
  exact ⟨spelled.ofText?, spelled.parenthesized.ofText?⟩

/-- A conditional in the first branch of a conditional, a loop in its second branch, and
sequences in all of them. -/
def nested : Stmt :=
  .seq .complete
    (.cond .complete (.binary .less (.var "x") (.const (.double (Binary64.ofDecimal false 25 (-1)))))
      (.cond .complete (.truth true)
        (.seq .complete .skip (.assign .complete "x" (.const (.whole (-7))))) .skip)
      (.loop .complete (.negate (.var "y"))
        (.seq .complete (.assign .complete "y" (.truth true)) (.seq .complete .skip .skip))))
    .skip

theorem nested_text_round_trip :
    nested.Printable ∧
      (ofText? nested.text = .ok (some nested) ∧
        ofText? (nested.parenthesized nested.text) = .ok (some nested)) ∧
      nested.text = "if (x < 2.5) then if true then (skip; x := -7) else skip else " ++
        "while (¬y) do (y := true; skip; skip); skip" := by
  have printable : nested.Printable := by decide +kernel
  exact ⟨printable, text_round_trip nested printable, by decide +kernel⟩

end Stmt
end HoareProof
