import HoareProof.Issue
import HoareProof.Proofs.Spelling

namespace HoareProof

/-!
What a scan reads.  The characters of a text are the spaces and the tokens of its scan, in
order, and the place of a token follows from the characters in front of it.  A scan is
described by the steps it makes: it passes over a space, or it reads a token.  The steps
keep the characters that are left in view, because where a token ends depends on them; a
step stays possible when the text is cut behind it.  So a scan that stops at a character
has read the tokens of the text in front of that character.
-/

namespace Position

/-- The place of a character, given all characters in front of it: its line counts the
newlines, its column the characters since the last of them. -/
def after (before : List Char) : Position :=
  ⟨1 + before.count '\n', 1 + (before.reverse.takeWhile (· ≠ '\n')).length⟩

theorem after_concat (before : List Char) (c : Char) :
    after (before ++ [c]) = (after before).advance c := by
  by_cases newline : c = '\n'
  · subst newline
    simp [after, advance, Nat.add_assoc]
  · simp [after, advance, newline, Nat.add_assoc]

theorem passed_start (before : List Char) : start.passed before = after before := by
  induction before using List.reverseRecOn with
  | nil => rfl
  | append_singleton before c inductionHypothesis =>
      rw [passed_append, inductionHypothesis, after_concat]
      rfl

end Position

namespace Token

/-! ## The steps of a scan -/

/-- From a place and the characters there, a scan reads some tokens; it comes to another
place and the characters that are left there. -/
inductive Reads : Position -> List Char -> List Token -> Position -> List Char -> Prop where
  | stay (position : Position) (chars : List Char) : Reads position chars [] position chars
  | space {position next : Position} {c : Char} {rest left : List Char} {tokens : List Token}
      (isSpace : isSpace c = true) (further : Reads (position.advance c) rest tokens next left) :
      Reads position (c :: rest) tokens next left
  | token {position next : Position} {c : Char} {more rest left : List Char} {kind : TokenKind}
      {tokens : List Token} (noSpace : isSpace c = false)
      (found : lexeme? c (more ++ rest) = .ok (kind, c :: more))
      (further : Reads (position.passed (c :: more)) rest tokens next left) :
      Reads position (c :: (more ++ rest)) (⟨kind, String.ofList (c :: more), position⟩ :: tokens)
        next left

theorem scan_unknown {c : Char} {rest : List Char} {cause : LexicalCause}
    (noSpace : isSpace c = false) (fails : lexeme? c rest = .error cause) (position : Position) :
    scan 0 position (c :: rest) = .error ⟨cause, position⟩ := by
  simp only [scan, noSpace, Bool.false_eq_true, if_false, fails]

/-- A scan goes on from wherever its steps have come. -/
theorem Reads.scan_eq {position next : Position} {chars left : List Char} {tokens : List Token}
    (reads : Reads position chars tokens next left) :
    scan 0 position chars = (scan 0 next left).map (Stream.prepend tokens) := by
  induction reads with
  | stay position chars => cases scan 0 position chars <;> rfl
  | space isSpace _ inductionHypothesis => rw [scan_space isSpace, inductionHypothesis]
  | @token position next c more rest left kind tokens noSpace found _ inductionHypothesis =>
      rw [scan_lexeme noSpace found, inductionHypothesis]
      cases scan 0 next left <;> rfl

/-- A scan comes to the end of the text, or to a character where no token starts. -/
theorem exists_reads (position : Position) (chars : List Char) :
    ∃ tokens next left, Reads position chars tokens next left ∧
      (left = [] ∨ ∃ c rest cause, left = c :: rest ∧ isSpace c = false ∧
        lexeme? c rest = .error cause) := by
  induction size : chars.length using Nat.strong_induction_on generalizing position chars with
  | h size inductionHypothesis =>
      subst size
      cases chars with
      | nil => exact ⟨[], position, [], .stay position [], .inl rfl⟩
      | cons c rest =>
          by_cases space : isSpace c = true
          · rcases inductionHypothesis rest.length (Nat.lt_succ_self _) (position.advance c) rest
                rfl with ⟨tokens, next, left, reads, ends⟩
            exact ⟨tokens, next, left, .space space reads, ends⟩
          · rw [Bool.not_eq_true] at space
            cases found : lexeme? c rest with
            | error cause =>
                exact ⟨[], position, c :: rest, .stay position _,
                  .inr ⟨c, rest, cause, rfl, space, found⟩⟩
            | ok token =>
                rcases token with ⟨kind, lexeme⟩
                rcases isLexeme_of_lexeme? found with ⟨-, more, behind, rfl, rfl⟩
                have shorter : behind.length < (c :: (more ++ behind)).length := by
                  rw [List.length_cons, List.length_append]
                  omega
                rcases inductionHypothesis behind.length shorter (position.passed (c :: more))
                    behind rfl with ⟨tokens, next, left, reads, ends⟩
                exact ⟨_ :: tokens, next, left, .token space found reads, ends⟩

theorem reads_of_scan_ok {position : Position} {chars : List Char} {stream : Stream}
    (scanned : scan 0 position chars = .ok stream) :
    Reads position chars stream.tokens stream.stop [] := by
  rcases exists_reads position chars with ⟨tokens, next, left, reads, ends⟩
  have goesOn := reads.scan_eq
  rcases ends with rfl | ⟨c, rest, cause, rfl, noSpace, fails⟩
  · rw [scanned] at goesOn
    cases goesOn
    simpa [Stream.prepend] using reads
  · rw [scanned, scan_unknown noSpace fails] at goesOn
    cases goesOn

theorem reads_of_scan_error {position : Position} {chars : List Char} {error : LexicalError}
    (scanned : scan 0 position chars = .error error) :
    ∃ tokens c rest, Reads position chars tokens error.position (c :: rest) ∧
      isSpace c = false ∧ lexeme? c rest = .error error.cause := by
  rcases exists_reads position chars with ⟨tokens, next, left, reads, ends⟩
  have goesOn := reads.scan_eq
  rcases ends with rfl | ⟨c, rest, cause, rfl, noSpace, fails⟩
  · rw [scanned] at goesOn
    cases goesOn
  · rw [scanned, scan_unknown noSpace fails] at goesOn
    cases goesOn
    exact ⟨tokens, c, rest, reads, noSpace, fails⟩

theorem Reads.scan_ok {position stop : Position} {chars : List Char} {tokens : List Token}
    (reads : Reads position chars tokens stop []) :
    scan 0 position chars = .ok ⟨tokens, stop⟩ := by
  rw [reads.scan_eq]
  simp [scan, Except.map, Stream.prepend]

/-- The steps of a scan stay possible when the text is cut behind them. -/
theorem Reads.cut {position next : Position} {text remaining : List Char} {tokens : List Token}
    (reads : Reads position text tokens next remaining) (left back : List Char)
    (isRemaining : remaining = left ++ back) :
    ∃ chars, text = chars ++ back ∧ Reads position chars tokens next left := by
  induction reads with
  | stay position chars => exact ⟨left, isRemaining, .stay position left⟩
  | @space position next c rest remaining tokens isSpace _ inductionHypothesis =>
      rcases inductionHypothesis isRemaining with ⟨chars, rfl, reads⟩
      exact ⟨c :: chars, rfl, .space isSpace reads⟩
  | @token position next c more rest remaining kind tokens noSpace found _ inductionHypothesis =>
      rcases inductionHypothesis isRemaining with ⟨chars, rfl, reads⟩
      refine ⟨c :: (more ++ chars), by simp, ?_⟩
      exact .token noSpace (lexeme?_cut found) reads

/-! ## Texts as spaces and lexemes -/

/-- A text of spaces only. -/
def Blank (chars : List Char) : Prop :=
  forall c, c ∈ chars -> isSpace c = true

instance (chars : List Char) : Decidable (Blank chars) :=
  List.decidableBAll (fun c => isSpace c = true) chars

/-- A text that starts with a lead and goes on with lexemes, each with the gap behind it. -/
def spread (lead : List Char) (pieces : List (List Char × List Char)) : List Char :=
  lead ++ pieces.flatMap fun piece => piece.1 ++ piece.2

theorem spread_cons (lead lexeme gap : List Char) (pieces : List (List Char × List Char)) :
    spread lead ((lexeme, gap) :: pieces) = lead ++ (lexeme ++ spread gap pieces) := by
  simp [spread]

/-- The characters of tokens, each with the gap behind it. -/
def pieces (tokens : List Token) (gaps : List (List Char)) : List (List Char × List Char) :=
  (tokens.map fun token => token.text.toList).zip gaps

/-- Tokens laid out over a text that starts at a place. -/
structure Laid (position : Position) (tokens : List Token) (lead : List Char)
    (gaps : List (List Char)) : Prop where
  length_eq : gaps.length = tokens.length
  lead_blank : Blank lead
  gaps_blank : forall gap, gap ∈ gaps -> Blank gap
  located : forall (index : Nat) (token : Token), tokens[index]? = some token ->
    token.position = position.passed (spread lead ((pieces tokens gaps).take index))

/-- What a scan has read are spaces and its tokens, and each token stands at its place. -/
theorem Reads.exists_laid {position next : Position} {chars left : List Char}
    {tokens : List Token} (reads : Reads position chars tokens next left) :
    ∃ lead gaps, Laid position tokens lead gaps ∧
      chars = spread lead (pieces tokens gaps) ++ left ∧
        next = position.passed (spread lead (pieces tokens gaps)) := by
  induction reads with
  | stay position chars =>
      refine ⟨[], [], ⟨rfl, ?_, ?_, ?_⟩, rfl, rfl⟩
      · exact fun _ member => absurd member List.not_mem_nil
      · exact fun _ member => absurd member List.not_mem_nil
      · intro index token isToken
        cases isToken
  | @space position next c rest left tokens isSpace _ inductionHypothesis =>
      rcases inductionHypothesis with ⟨lead, gaps, laid, isRest, isNext⟩
      refine ⟨c :: lead, gaps, ⟨laid.length_eq, ?_, laid.gaps_blank, laid.located⟩, ?_, isNext⟩
      · simpa [Blank, isSpace] using laid.lead_blank
      · rw [isRest]
        rfl
  | @token position next c more rest left kind tokens noSpace found _ inductionHypothesis =>
      rcases inductionHypothesis with ⟨lead, gaps, laid, isRest, isNext⟩
      have step : forall taken, spread [] ((c :: more, lead) :: taken) =
          c :: more ++ spread lead taken := fun taken => spread_cons [] _ lead taken
      have first : pieces (⟨kind, String.ofList (c :: more), position⟩ :: tokens) (lead :: gaps) =
          (c :: more, lead) :: pieces tokens gaps := by
        simp [pieces]
      refine ⟨[], lead :: gaps, ⟨by simp [laid.length_eq], ?_, ?_, ?_⟩, ?_, ?_⟩
      · exact fun _ member => absurd member List.not_mem_nil
      · simpa [laid.lead_blank] using laid.gaps_blank
      · intro index token isToken
        cases index with
        | zero =>
            cases isToken
            rfl
        | succ index =>
            rw [laid.located index token isToken, first, List.take_succ_cons, step,
              Position.passed_append]
      · rw [first, step, isRest]
        simp
      · rw [first, step, Position.passed_append, isNext]

theorem Reads.isLexeme {position next : Position} {chars left : List Char} {tokens : List Token}
    (reads : Reads position chars tokens next left) :
    forall token, token ∈ tokens -> IsLexeme token.kind token.text.toList := by
  induction reads with
  | stay position chars => exact fun _ member => absurd member List.not_mem_nil
  | space _ _ inductionHypothesis => exact inductionHypothesis
  | token noSpace found _ inductionHypothesis =>
      simpa [(isLexeme_of_lexeme? found).1] using inductionHypothesis

/-- The end of a text is no token. -/
theorem label_ne_endLabel (kind : TokenKind) : kind.label ≠ TokenKind.endLabel := by
  cases kind <;> decide

/-- A text that has tokens is exactly its tokens and the spaces around them.  Each token is
of the class of its kind and stands at the place that the characters in front of it give;
the listing ends with the one entry of the end.  A text that has none is blamed, by one
issue, at a character that is no space and at which no lexeme starts; the text in front of
it has the tokens that were read. -/
theorem ofText_lossless_located (text : String) :
    (forall stream, ofText text = .ok stream ->
      ∃ lead gaps, gaps.length = stream.tokens.length ∧
        Blank lead ∧ (forall gap, gap ∈ gaps -> Blank gap) ∧
        text.toList = spread lead (pieces stream.tokens gaps) ∧
        (forall (index : Nat) (token : Token), stream.tokens[index]? = some token ->
          IsLexeme token.kind token.text.toList ∧ token.kind.label ≠ "EOF" ∧
            token.position =
              Position.after (spread lead ((pieces stream.tokens gaps).take index))) ∧
        stream.listing =
          stream.tokens.map (fun token => ⟨token.kind.label, token.text, token.position⟩) ++
            [⟨"EOF", "", Position.after text.toList⟩]) ∧
    (forall error, ofText text = .error error ->
      ∃ before c rest tokens, text.toList = before ++ c :: rest ∧
        error.position = Position.after before ∧ isSpace c = false ∧
        (forall kind front back, c :: rest = front ++ back -> Not (IsLexeme kind front)) ∧
        Reads .start text.toList tokens error.position (c :: rest) ∧
        ofText (String.ofList before) = .ok ⟨tokens, error.position⟩ ∧
        forall file, Issue.ofLexical file error =
          ⟨.syntaxError, error.cause.message, none,
            some ((Position.after before).within file), []⟩) := by
  constructor
  · intro stream scanned
    have reads := reads_of_scan_ok scanned
    rcases reads.exists_laid with ⟨lead, gaps, laid, isText, isStop⟩
    rw [List.append_nil] at isText
    refine ⟨lead, gaps, laid.length_eq, laid.lead_blank, laid.gaps_blank, isText, ?_, ?_⟩
    · intro index token isToken
      refine ⟨reads.isLexeme token (List.mem_of_getElem? isToken), label_ne_endLabel _, ?_⟩
      rw [laid.located index token isToken, Position.passed_start]
    · rw [Stream.listing, isStop, ← isText, Position.passed_start]
      rfl
  · intro error scanned
    rcases reads_of_scan_error scanned with ⟨tokens, c, rest, reads, noSpace, fails⟩
    rcases reads.cut [] (c :: rest) rfl with ⟨before, isText, readsBefore⟩
    have isPlace : error.position = Position.after before := by
      rcases readsBefore.exists_laid with ⟨lead, gaps, -, isBefore, isPlace⟩
      rw [isPlace, isBefore, List.append_nil, Position.passed_start]
    refine ⟨before, c, rest, tokens, isText, isPlace, noSpace, ?_, reads, ?_, ?_⟩
    · exact fun kind front back chars => not_isLexeme_of_lexeme? fails chars kind
    · rw [ofText, String.toList_ofList]
      exact readsBefore.scan_ok
    · intro file
      rw [Issue.ofLexical, Issue.misfit, isPlace]

/-- A number that no exponent ends, over two lines, in front of a character that starts no
token. -/
def halted : String := "1٣ \n 2e+@ x"

theorem halted_lossless_located :
    ofText halted = .error ⟨.unexpected '@', ⟨2, 5⟩⟩ ∧
      ∃ before c rest tokens, halted.toList = before ++ c :: rest ∧
        (⟨2, 5⟩ : Position) = Position.after before ∧
        (forall kind front back, c :: rest = front ++ back -> Not (IsLexeme kind front)) ∧
        ofText (String.ofList before) = .ok ⟨tokens, ⟨2, 5⟩⟩ ∧
        ∃ lead gaps, gaps.length = tokens.length ∧
          before = spread lead (pieces tokens gaps) := by
  have scanned : ofText halted = .error ⟨.unexpected '@', ⟨2, 5⟩⟩ := by decide +kernel
  refine ⟨scanned, ?_⟩
  rcases (ofText_lossless_located halted).2 _ scanned with
    ⟨before, c, rest, tokens, isText, isPlace, -, noLexeme, -, scannedBefore, -⟩
  rcases (ofText_lossless_located (String.ofList before)).1 _ scannedBefore with
    ⟨lead, gaps, sameLength, -, -, isBefore, -, -⟩
  rw [String.toList_ofList] at isBefore
  exact ⟨before, c, rest, tokens, isText, isPlace, noLexeme, scannedBefore, lead, gaps,
    sameLength, isBefore⟩

end Token
end HoareProof
