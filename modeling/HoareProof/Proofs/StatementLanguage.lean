import HoareProof.Proofs.AssertionLanguage
import HoareProof.Proofs.StatementText

namespace HoareProof
namespace Stmt

open Parsing
open HoareProof.Expr (InfixForm.Derives infixParser_sound infixParser_blames)

/-!
The language of statements.  An assertion inside a statement is read by the parser of
assertions, which stops by itself: where the statement goes on, the next token is a word
or a sign that joins no operands.  A parenthesis opens a statement where a statement is
expected and an assertion where an assertion is, so it never has to be decided which of
them it opens.

Every statement that is read is complete, since its targets are names and its assertions
have no holes.
-/

/-! ## What the parser reads is derived -/

theorem sequenceOf_consumes {parser : Parser Stmt}
    (consumes : Consumes parser (Derives .simple)) (count : Nat) :
    Consumes (sequenceOf parser count) (Derives .sequence) := by
  induction count with
  | zero =>
      intro tokens stmt rest read
      rcases consumes tokens stmt rest read with ⟨used, whole, derives⟩
      exact ⟨used, whole, .single derives⟩
  | succ count inductionHypothesis =>
      intro tokens stmt rest read
      simp only [sequenceOf] at read
      split at read
      · cases read
      next first readFirst =>
        cases read
        rcases consumes _ _ _ readFirst with ⟨used, whole, derives⟩
        exact ⟨used, whole, .single derives⟩
      next first token behind readFirst =>
        rcases consumes _ _ _ readFirst with ⟨used, rfl, firstDerives⟩
        split at read
        next separates =>
          split at read
          · cases read
          next second afterSecond readSecond =>
            cases read
            rcases inductionHypothesis _ _ _ readSecond with ⟨more, rfl, secondDerives⟩
            exact ⟨used ++ token :: more, by simp, .join firstDerives separates secondDerives⟩
        · cases read
          exact ⟨used, rfl, .single firstDerives⟩

theorem simple_consumes (bound : Nat) : Consumes (simple bound) (Derives .simple) := by
  induction bound with
  | zero =>
      intro tokens stmt rest read
      cases read
  | succ bound inductionHypothesis =>
      intro tokens stmt rest read
      cases tokens with
      | nil => cases read
      | cons token tokens =>
          simp only [simple] at read
          split at read
          next kind =>
            cases read
            exact ⟨[token], rfl, .skip kind⟩
          next isName =>
            rcases bind_eq_ok_iff.mp read with ⟨afterSign, isSign, readValue⟩
            rcases expect_eq_ok_iff.mp isSign with ⟨sign, rfl, becomes⟩
            rcases bind_eq_ok_iff.mp readValue with ⟨⟨value, afterValue⟩, valueRead, result⟩
            cases result
            rcases infixParser_sound _ _ _ valueRead with ⟨used, rfl, valueDerives⟩
            exact ⟨token :: sign :: used, rfl, .assign isName becomes valueDerives⟩
          next isIf =>
            rcases bind_eq_ok_iff.mp read with ⟨⟨guard, afterGuard⟩, guardRead, readThen⟩
            rcases bind_eq_ok_iff.mp readThen with ⟨afterWord, isWord, readBranches⟩
            rcases expect_eq_ok_iff.mp isWord with ⟨thenToken, rfl, isThen⟩
            rcases bind_eq_ok_iff.mp readBranches with ⟨⟨first, afterFirst⟩, firstRead, readElse⟩
            rcases bind_eq_ok_iff.mp readElse with ⟨afterElse, isOther, readSecond⟩
            rcases expect_eq_ok_iff.mp isOther with ⟨elseToken, rfl, isElse⟩
            rcases bind_eq_ok_iff.mp readSecond with ⟨⟨second, afterSecond⟩, secondRead, result⟩
            cases result
            rcases infixParser_sound _ _ _ guardRead with ⟨test, rfl, guardDerives⟩
            rcases inductionHypothesis _ _ _ firstRead with ⟨thenTokens, rfl, thenDerives⟩
            rcases inductionHypothesis _ _ _ secondRead with ⟨elseTokens, rfl, elseDerives⟩
            refine ⟨token :: (test ++ thenToken :: (thenTokens ++ elseToken :: elseTokens)),
              by simp, ?_⟩
            exact .cond isIf guardDerives isThen thenDerives isElse elseDerives
          next isWhile =>
            rcases bind_eq_ok_iff.mp read with ⟨⟨guard, afterGuard⟩, guardRead, readDo⟩
            rcases bind_eq_ok_iff.mp readDo with ⟨afterWord, isWord, readBody⟩
            rcases expect_eq_ok_iff.mp isWord with ⟨doToken, rfl, isDo⟩
            rcases bind_eq_ok_iff.mp readBody with ⟨⟨body, afterBody⟩, bodyRead, result⟩
            cases result
            rcases infixParser_sound _ _ _ guardRead with ⟨test, rfl, guardDerives⟩
            rcases inductionHypothesis _ _ _ bodyRead with ⟨bodyTokens, rfl, bodyDerives⟩
            refine ⟨token :: (test ++ doToken :: bodyTokens), by simp, ?_⟩
            exact .loop isWhile guardDerives isDo bodyDerives
          next opens =>
            rcases bind_eq_ok_iff.mp read with ⟨⟨inner, afterInner⟩, innerRead, readClosing⟩
            rcases bind_eq_ok_iff.mp readClosing with ⟨afterClosing, isClosing, result⟩
            rcases expect_eq_ok_iff.mp isClosing with ⟨closing, rfl, closes⟩
            cases result
            have sequenceConsumes := sequenceOf_consumes inductionHypothesis tokens.length
            rcases sequenceConsumes _ _ _ innerRead with ⟨used, rfl, innerDerives⟩
            exact ⟨token :: (used ++ [closing]), by simp, .group opens closes innerDerives⟩
          · cases read

/-- The parser reads tokens to the last exactly as the grammar derives them. -/
theorem parser_eq_ok_iff (tokens : List Token) (stmt : Stmt) :
    parser tokens = .ok (stmt, []) ↔ Derives .sequence tokens stmt := by
  constructor
  · intro read
    have consumes := sequenceOf_consumes (simple_consumes tokens.length) tokens.length
    exact consumes.whole read
  · exact parser_complete

/-! ## Errors are those of numbers -/

theorem sequenceOf_blames {parser : Parser Stmt} (consumes : Consumes parser (Derives .simple))
    (blames : Blames parser) (count : Nat) : Blames (sequenceOf parser count) := by
  induction count with
  | zero => exact blames
  | succ count inductionHypothesis =>
      intro tokens error fails
      simp only [sequenceOf] at fails
      split at fails
      next failsFirst =>
        cases fails
        exact blames tokens error failsFirst
      · cases fails
      next first token behind readFirst =>
        split at fails
        · split at fails
          next failsSecond =>
            cases fails
            have blamed := inductionHypothesis behind error failsSecond
            exact blamed.cons.mono (consumes.subset readFirst)
          · cases fails
        · cases fails

theorem simple_blames (bound : Nat) : Blames (simple bound) := by
  induction bound with
  | zero =>
      intro tokens error fails
      cases fails
  | succ bound inductionHypothesis =>
      intro tokens error fails
      have assertion := infixParser_sound.consumes
      have statement := simple_consumes bound
      cases tokens with
      | nil => cases fails
      | cons token tokens =>
          simp only [simple] at fails
          split at fails
          · cases fails
          · refine (blamed_of_expect fails fun afterSign failsValue => ?_).cons
            refine blamed_of_part assertion infixParser_blames failsValue ?_
            intro value afterValue succeeds
            cases succeeds
          · refine (blamed_of_part assertion infixParser_blames fails ?_).cons
            intro guard afterGuard failsThen
            refine blamed_of_expect failsThen fun afterThen failsFirst => ?_
            refine blamed_of_part statement inductionHypothesis failsFirst ?_
            intro first afterFirst failsElse
            refine blamed_of_expect failsElse fun afterElse failsSecond => ?_
            refine blamed_of_part statement inductionHypothesis failsSecond ?_
            intro second afterSecond succeeds
            cases succeeds
          · refine (blamed_of_part assertion infixParser_blames fails ?_).cons
            intro guard afterGuard failsDo
            refine blamed_of_expect failsDo fun afterDo failsBody => ?_
            refine blamed_of_part statement inductionHypothesis failsBody ?_
            intro body afterBody succeeds
            cases succeeds
          · have sequence := sequenceOf_consumes statement tokens.length
            have sequenceBlames := sequenceOf_blames statement inductionHypothesis tokens.length
            refine (blamed_of_part sequence sequenceBlames fails ?_).cons
            intro inner afterInner failsClosing
            refine blamed_of_expect failsClosing fun afterClosing succeeds => ?_
            cases succeeds
          · cases fails

theorem parser_blames : Blames parser := by
  intro tokens error fails
  exact sequenceOf_blames (simple_consumes tokens.length) (simple_blames tokens.length)
    tokens.length tokens error fails

/-! ## What is read is complete -/

/-- A statement is derived from tokens as a complete one. -/
theorem Derives.finalize {place : Place} {tokens : List Token} {stmt : Stmt}
    (derives : Derives place tokens stmt)
    (genuine : forall token, token ∈ tokens -> Token.Genuine token) :
    stmt.finalize = some stmt := by
  induction derives with
  | skip => rfl
  | @assign name sign tokens value isName becomes valueDerives =>
      have named : Token.isName name.text = true := genuine name List.mem_cons_self isName
      have short := valueDerives.short fun token member => genuine token (by simp [member])
      simp [Stmt.finalize, Token.isEmpty_of_isName named, short.complete]
  | cond _ guardDerives _ _ _ _ thenHypothesis elseHypothesis =>
      have short := guardDerives.short fun token member => genuine token (by simp [member])
      have thenFinal := thenHypothesis fun token member => genuine token (by simp [member])
      have elseFinal := elseHypothesis fun token member => genuine token (by simp [member])
      simp [Stmt.finalize, short.complete, thenFinal, elseFinal]
  | loop _ guardDerives _ _ bodyHypothesis =>
      have short := guardDerives.short fun token member => genuine token (by simp [member])
      have bodyFinal := bodyHypothesis fun token member => genuine token (by simp [member])
      simp [Stmt.finalize, short.complete, bodyFinal]
  | group _ _ _ innerHypothesis =>
      exact innerHypothesis fun token member => genuine token (by simp [member])
  | single _ innerHypothesis => exact innerHypothesis genuine
  | join _ _ _ firstHypothesis secondHypothesis =>
      have firstFinal := firstHypothesis fun token member => genuine token (by simp [member])
      have secondFinal := secondHypothesis fun token member => genuine token (by simp [member])
      simp [Stmt.finalize, firstFinal, secondFinal]

/-- A text whose numbers have values is read as the statement that its tokens derive.  No
tokens derive two statements, a text whose tokens derive none has no value, and nothing is
missing in a statement that is read. -/
theorem statement_reads_exactly {text : String} {stream : Token.Stream}
    (lexed : Token.ofText text = .ok stream)
    (readable : forall token, token ∈ stream.tokens -> Readable token) :
    ReadsExactly (ofText? text) (Derives .sequence stream.tokens) ∧
      forall stmt, ofText? text = .ok (some stmt) -> stmt.finalize = some stmt := by
  have reading := readsExactly_of_agrees parser_eq_ok_iff parser_blames lexed readable
  refine ⟨reading, fun stmt read => ?_⟩
  have derives := (reading.reads stmt).mp read
  exact derives.finalize (Token.genuine_of_ofText lexed)

/-- The tokens of `(while (x) do y := 1; skip)`.  The first parenthesis opens a statement
and the second an assertion, and the semicolon ends the loop. -/
def loopAndSkip : Token.Stream where
  tokens := [⟨.openParen, "(", ⟨1, 1⟩⟩, ⟨.whileWord, "while", ⟨1, 2⟩⟩, ⟨.openParen, "(", ⟨1, 8⟩⟩,
    ⟨.name, "x", ⟨1, 9⟩⟩, ⟨.closeParen, ")", ⟨1, 10⟩⟩, ⟨.doWord, "do", ⟨1, 12⟩⟩,
    ⟨.name, "y", ⟨1, 15⟩⟩, ⟨.assign, ":=", ⟨1, 17⟩⟩, ⟨.whole, "1", ⟨1, 20⟩⟩,
    ⟨.semicolon, ";", ⟨1, 21⟩⟩, ⟨.skipWord, "skip", ⟨1, 23⟩⟩, ⟨.closeParen, ")", ⟨1, 27⟩⟩]
  stop := ⟨1, 28⟩

theorem loopAndSkip_reads_exactly :
    Token.ofText "(while (x) do y := 1; skip)" = .ok loopAndSkip ∧
      (forall token, token ∈ loopAndSkip.tokens -> Readable token) ∧
        ReadsExactly (ofText? "(while (x) do y := 1; skip)")
          (Derives .sequence loopAndSkip.tokens) ∧
          forall stmt, Derives .sequence loopAndSkip.tokens stmt ->
            stmt.finalize = some stmt ∧
              stmt = .seq .complete (.loop .complete (.var "x")
                (.assign .complete "y" (.const (.whole 1)))) .skip := by
  have lexed : Token.ofText "(while (x) do y := 1; skip)" = .ok loopAndSkip := rfl
  have readable : forall token, token ∈ loopAndSkip.tokens -> Readable token := by
    decide +kernel
  have reading := statement_reads_exactly lexed readable
  refine ⟨lexed, readable, reading.1, fun stmt derives => ⟨?_, ?_⟩⟩
  · exact reading.2 stmt ((reading.1.reads stmt).mpr derives)
  · apply reading.1.unique stmt _ derives
    exact (reading.1.reads _).mp rfl

end Stmt
end HoareProof
