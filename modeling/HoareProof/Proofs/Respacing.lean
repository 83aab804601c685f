import HoareProof.Proofs.Places
import HoareProof.Proofs.Scanning

namespace HoareProof
namespace Token

/-!
The spaces between tokens.  A token of a text is also the token of its own characters, when
nothing stands around them, and then again when a space or nothing follows.  So the tokens
of a text can be written down again with other spaces between them, as long as there are
some, and the new text has the same tokens at other places.
-/

/-- A token that its own characters give, when nothing follows them. -/
def Standalone (token : Token) : Prop :=
  ∃ c more, token.text = String.ofList (c :: more) ∧ isSpace c = false ∧
    lexeme? c more = .ok (token.kind, c :: more)

theorem Reads.standalone {position next : Position} {chars left : List Char}
    {tokens : List Token} (reads : Reads position chars tokens next left) :
    forall token, token ∈ tokens -> Standalone token := by
  induction reads with
  | stay position chars => exact fun _ member => absurd member List.not_mem_nil
  | space _ _ inductionHypothesis => exact inductionHypothesis
  | @token position next c more rest left kind tokens noSpace found _ inductionHypothesis =>
      have alone : lexeme? c (more ++ []) = .ok (kind, c :: more) := lexeme?_cut found
      rw [List.append_nil] at alone
      intro token member
      rcases List.mem_cons.mp member with rfl | member
      · exact ⟨c, more, rfl, noSpace, alone⟩
      · exact inductionHypothesis token member

theorem reads_blank {lead : List Char} (blank : Blank lead) {position next : Position}
    {rest left : List Char} {tokens : List Token}
    (further : Reads (position.passed lead) rest tokens next left) :
    Reads position (lead ++ rest) tokens next left := by
  induction lead generalizing position with
  | nil => exact further
  | cons c lead inductionHypothesis =>
      have blankLead : Blank lead := fun c member => blank c (List.mem_cons_of_mem _ member)
      exact .space (blank c List.mem_cons_self) (inductionHypothesis blankLead further)

/-- Behind a token stands a boundary, if there is a space wherever another token follows. -/
theorem bounded_spread {gap : List Char} {more : List (List Char × List Char)}
    (blank : Blank gap) (separated : gap = [] -> more = []) : Bounded (spread gap more) := by
  cases gap with
  | nil =>
      rw [separated rfl]
      exact bounded_nil
  | cons c gap =>
      exact bounded_cons (by simp [isBoundary, blank c List.mem_cons_self]) _

/-- Tokens that stand alone are read again from their characters with spaces between. -/
theorem exists_reads_spread {tokens : List Token}
    (standalone : forall token, token ∈ tokens -> Standalone token) (position : Position)
    {lead : List Char} {gaps : List (List Char)} (leadBlank : Blank lead)
    (gapsBlank : forall gap, gap ∈ gaps -> Blank gap) (sameLength : gaps.length = tokens.length)
    (separated : forall gap, gap ∈ gaps.dropLast -> gap ≠ []) :
    ∃ placed stop, Reads position (spread lead (pieces tokens gaps)) placed stop [] ∧
      placed.map placeless = tokens.map placeless := by
  induction tokens generalizing position lead gaps with
  | nil => exact ⟨[], position.passed lead, reads_blank leadBlank (.stay _ _), rfl⟩
  | cons token tokens inductionHypothesis =>
      cases gaps with
      | nil => cases sameLength
      | cons gap gaps =>
          rcases standalone token List.mem_cons_self with ⟨c, more, isText, noSpace, alone⟩
          have gapBlank : Blank gap := gapsBlank gap List.mem_cons_self
          -- Only the last gap may be empty, and nothing follows it.
          have ends : gap = [] -> pieces tokens gaps = [] := by
            intro noGap
            cases gaps with
            | nil => simp [pieces]
            | cons second gaps => exact absurd noGap (separated gap List.mem_cons_self)
          have separatedMore : forall gap, gap ∈ gaps.dropLast -> gap ≠ [] := by
            intro other member
            apply separated
            cases gaps with
            | nil => cases member
            | cons second gaps => exact List.mem_cons_of_mem gap member
          rcases inductionHypothesis
              (fun token member => standalone token (List.mem_cons_of_mem _ member))
              ((position.passed lead).passed (c :: more)) gapBlank
              (fun gap member => gapsBlank gap (List.mem_cons_of_mem _ member))
              (Nat.succ.inj sameLength) separatedMore with ⟨placed, stop, reads, alike⟩
          have found := lexeme?_bounded alone (bounded_spread gapBlank ends)
          have first : pieces (token :: tokens) (gap :: gaps) =
              (c :: more, gap) :: pieces tokens gaps := by
            simp [pieces, isText]
          refine ⟨⟨token.kind, String.ofList (c :: more), position.passed lead⟩ :: placed, stop,
            ?_, ?_⟩
          · rw [first, spread_cons]
            exact reads_blank leadBlank (.token noSpace found reads)
          · rw [List.map_cons, List.map_cons, alike, ← isText]
            rfl

/-- Other spaces around the tokens of a text, with at least one between any two of them,
give a text with tokens of the same kinds and texts.  Both texts are the same assertion in
either form, and the same statement. -/
theorem respaced_reads_alike {source : String} {stream : Stream}
    (lexed : ofText source = .ok stream) {lead : List Char} {gaps : List (List Char)}
    (leadBlank : Blank lead) (gapsBlank : forall gap, gap ∈ gaps -> Blank gap)
    (sameLength : gaps.length = stream.tokens.length)
    (separated : forall gap, gap ∈ gaps.dropLast -> gap ≠ []) {respaced : String}
    (isRespaced : respaced.toList = spread lead (pieces stream.tokens gaps)) :
    (∃ other, ofText respaced = .ok other ∧
      other.tokens.map (fun token => (token.kind, token.text)) =
        stream.tokens.map fun token => (token.kind, token.text)) ∧
    (forall form, Expr.ofText? form respaced = Expr.ofText? form source) ∧
      Stmt.ofText? respaced = Stmt.ofText? source := by
  rcases exists_reads_spread (reads_of_scan_ok lexed).standalone .start leadBlank gapsBlank
    sameLength separated with ⟨placed, stop, reads, alike⟩
  have lexedAgain : ofText respaced = .ok ⟨placed, stop⟩ := by
    rw [ofText, isRespaced]
    exact reads.scan_ok
  refine ⟨⟨⟨placed, stop⟩, lexedAgain, ?_⟩, ?_, ?_⟩
  · have spelled := congrArg (List.map fun token => (token.kind, token.text)) alike
    rw [List.map_map, List.map_map] at spelled
    exact spelled
  · exact fun form => (Expr.form_blind form).readAll?_eq lexedAgain lexed alike
  · exact Stmt.parser_blind.readAll?_eq lexedAgain lexed alike

/-- A statement without spaces, in which a digit of another script and the sign of an
exponent continue a number. -/
def compact : String := "x1:=1٣-2e+3"

/-- The same statement with a space or a new line between any two tokens. -/
def loose : String := "\tx1 :=\r\n1٣ - 2e+3"

theorem loose_reads_alike :
    ∃ stream, ofText compact = .ok stream ∧ stream.tokens.length = 5 ∧
      loose.toList =
        spread ['\t'] (pieces stream.tokens [[' '], ['\r', '\n'], [' '], [' '], []]) ∧
      (∃ other, ofText loose = .ok other ∧
        other.tokens.map (fun token => (token.kind, token.text)) =
          stream.tokens.map fun token => (token.kind, token.text)) ∧
      (forall form, Expr.ofText? form loose = Expr.ofText? form compact) ∧
      Stmt.ofText? loose = Stmt.ofText? compact := by
  have lexed : ofText compact = .ok ⟨[⟨.name, "x1", ⟨1, 1⟩⟩, ⟨.assign, ":=", ⟨1, 3⟩⟩,
      ⟨.whole, "1٣", ⟨1, 5⟩⟩, ⟨.minus, "-", ⟨1, 7⟩⟩, ⟨.decimal, "2e+3", ⟨1, 8⟩⟩], ⟨1, 12⟩⟩ := by
    decide +kernel
  have isLoose : loose.toList = spread ['\t'] (pieces [⟨.name, "x1", ⟨1, 1⟩⟩,
      ⟨.assign, ":=", ⟨1, 3⟩⟩, ⟨.whole, "1٣", ⟨1, 5⟩⟩, ⟨.minus, "-", ⟨1, 7⟩⟩,
      ⟨.decimal, "2e+3", ⟨1, 8⟩⟩] [[' '], ['\r', '\n'], [' '], [' '], []]) := by
    decide +kernel
  exact ⟨_, lexed, rfl, isLoose,
    respaced_reads_alike lexed (by decide) (by decide) rfl (by decide) isLoose⟩

end Token
end HoareProof
