import HoareProof.Proofs.Disks
import HoareProof.Proofs.Edits
import HoareProof.Proofs.ProofFiles
import HoareProof.Proofs.StatementLanguage

namespace HoareProof

/-!
What comes from a proof file can go into one.  A text only yields assertions and
statements that can be printed, infinite constants apart, so a derivation that was loaded
can be stored.  Edits keep that, provided the assertions they are given can be printed:
they copy parts of triples and join them with connectives, and compute nothing.
-/

/-! ## Constants -/

namespace Stmt

/-- The constants of a statement from left to right. -/
def constants : Stmt -> List Number
  | .hole => []
  | .skip => []
  | .assign _ _ value => value.constants
  | .seq _ first second => first.constants ++ second.constants
  | .cond _ guard thenBranch elseBranch =>
      guard.constants ++ (thenBranch.constants ++ elseBranch.constants)
  | .loop _ guard body => guard.constants ++ body.constants

/-- Whatever is derived from the tokens of a text can be printed, unless a constant is
infinite. -/
theorem Derives.printable {place : Place} {tokens : List Token} {stmt : Stmt}
    (derives : Derives place tokens stmt)
    (genuine : forall token, token ∈ tokens -> token.Genuine)
    (finite : forall value, value ∈ stmt.constants -> value.isFinite = true) : stmt.Printable := by
  induction derives with
  | skip kind => exact True.intro
  | assign isName _ valueDerives =>
      refine ⟨rfl, genuine _ List.mem_cons_self isName, ?_⟩
      apply Expr.printable_of_short (valueDerives.short fun token member => ?_) finite
      exact genuine token (List.mem_cons_of_mem _ (List.mem_cons_of_mem _ member))
  | cond _ guardDerives _ _ _ _ thenHypothesis elseHypothesis =>
      simp only [constants, List.mem_append] at finite
      refine ⟨rfl, ?_, ?_, ?_⟩
      · apply Expr.printable_of_short (guardDerives.short fun token member => ?_)
        · exact fun value member => finite value (Or.inl member)
        · exact genuine token (by simp [member])
      · apply thenHypothesis (fun token member => genuine token (by simp [member]))
        exact fun value member => finite value (Or.inr (Or.inl member))
      · apply elseHypothesis (fun token member => genuine token (by simp [member]))
        exact fun value member => finite value (Or.inr (Or.inr member))
  | loop _ guardDerives _ _ bodyHypothesis =>
      simp only [constants, List.mem_append] at finite
      refine ⟨rfl, ?_, ?_⟩
      · apply Expr.printable_of_short (guardDerives.short fun token member => ?_)
        · exact fun value member => finite value (Or.inl member)
        · exact genuine token (by simp [member])
      · apply bodyHypothesis (fun token member => genuine token (by simp [member]))
        exact fun value member => finite value (Or.inr member)
  | group _ _ _ inductionHypothesis =>
      exact inductionHypothesis (fun token member => genuine token (by simp [member])) finite
  | single _ inductionHypothesis => exact inductionHypothesis genuine finite
  | join _ _ _ firstHypothesis secondHypothesis =>
      simp only [constants, List.mem_append] at finite
      refine ⟨rfl, ?_, ?_⟩
      · apply firstHypothesis (fun token member => genuine token (by simp [member]))
        exact fun value member => finite value (Or.inl member)
      · apply secondHypothesis (fun token member => genuine token (by simp [member]))
        exact fun value member => finite value (Or.inr member)

theorem printable_of_ofText? {text : String} {stmt : Stmt} (read : ofText? text = .ok (some stmt))
    (finite : forall value, value ∈ stmt.constants -> value.isFinite = true) : stmt.Printable := by
  rcases Parsing.readAll?_eq_some_iff.mp read with ⟨stream, lexed, parsed⟩
  exact ((parser_eq_ok_iff _ _).mp parsed).printable (Token.genuine_of_ofText lexed) finite

end Stmt

/-- The constants of a triple. -/
def Triple.constants (triple : Triple) : List Number :=
  triple.pre.constants ++ (triple.stmt.constants ++ triple.post.constants)

/-- A triple whose parts can be printed. -/
structure Triple.Printable (triple : Triple) : Prop where
  pre : triple.pre.Printable
  stmt : triple.stmt.Printable
  post : triple.post.Printable

namespace Derivation

/-- No constant of any node is infinite. -/
def IsFinite (root : Derivation) : Prop :=
  Everywhere (fun node => forall triple, node.conclusion? = some triple ->
    forall value, value ∈ triple.constants -> value.isFinite = true) root

theorem storable_node_iff {conclusion : Triple} {step : Step} {proved : Bool}
    {premises : List Derivation} :
    (Derivation.node conclusion step proved premises).Storable ↔
      conclusion.Printable ∧ (forall name, step ≠ .unrecognised name) ∧
        forall premise, premise ∈ premises -> premise.Storable := by
  constructor
  · rintro ⟨pre, stmt, post, recognised, each⟩
    exact ⟨⟨pre, stmt, post⟩, recognised, each⟩
  · rintro ⟨⟨pre, stmt, post⟩, recognised, each⟩
    exact .node pre stmt post recognised each

end Derivation

/-! ## What is loaded can be stored -/

namespace ProofFile

open HoareProof.Derivation

theorem exists_text_of_textField {Value : Type}
    {read : String -> Except NumeralError (Option Value)} {path : Path}
    {fields : List (String × Json)} {field : String} {value : Value}
    (found : textField read path fields field = .ok value) :
    ∃ text, read text = .ok (some value) := by
  unfold textField at found
  split at found
  next text _ =>
    split at found
    next isValue =>
      cases found
      exact ⟨text, isValue⟩
    · cases found
    · cases found
  · cases found

theorem recognised_of_stepOf {path : Path} {fields : List (String × Json)} {step : Step}
    (found : stepOf path fields = .ok step) (name : String) : step ≠ .unrecognised name := by
  unfold stepOf at found
  split at found
  · cases found
    exact Step.noConfusion
  · cases found
    exact Step.noConfusion
  · split at found
    · cases found
      exact Step.noConfusion
    · split at found
      · cases found
      · cases found

theorem printable_of_headOf {path : Path} {fields : List (String × Json)} {conclusion : Triple}
    {step : Step} {proved : Bool} (found : headOf path fields = .ok (conclusion, step, proved))
    (finite : forall value, value ∈ conclusion.constants -> value.isFinite = true) :
    conclusion.Printable ∧ forall name, step ≠ .unrecognised name := by
  unfold headOf at found
  rcases bind_eq_ok_iff.mp found with ⟨pre, isPre, found⟩
  rcases bind_eq_ok_iff.mp found with ⟨post, isPost, found⟩
  rcases bind_eq_ok_iff.mp found with ⟨stmt, isStmt, found⟩
  rcases bind_eq_ok_iff.mp found with ⟨step, isStep, found⟩
  rcases bind_eq_ok_iff.mp found with ⟨_, _, found⟩
  rcases bind_eq_ok_iff.mp found with ⟨proved, _, isHead⟩
  cases isHead
  simp only [Triple.constants, List.mem_append] at finite
  rcases exists_text_of_textField isPre with ⟨_, preRead⟩
  rcases exists_text_of_textField isPost with ⟨_, postRead⟩
  rcases exists_text_of_textField isStmt with ⟨_, stmtRead⟩
  refine ⟨⟨?_, ?_, ?_⟩, recognised_of_stepOf isStep⟩
  · apply Expr.printable_of_ofText? preRead
    exact fun value member => finite value (Or.inl member)
  · apply Stmt.printable_of_ofText? stmtRead
    exact fun value member => finite value (Or.inr (Or.inl member))
  · apply Expr.printable_of_ofText? postRead
    exact fun value member => finite value (Or.inr (Or.inr member))

theorem exists_decodeAt_of_decodeItems {path : Path} {index : Nat} {items : List Json}
    {premises : List Derivation} (decoded : decodeItems path index items = .ok premises) :
    forall premise, premise ∈ premises -> ∃ place item, decodeAt place item = .ok premise := by
  induction items generalizing index premises with
  | nil =>
      rw [decodeItems] at decoded
      cases decoded
      intro premise member
      cases member
  | cons item items inductionHypothesis =>
      rw [decodeItems] at decoded
      rcases bind_eq_ok_iff.mp decoded with ⟨first, isFirst, decoded⟩
      rcases bind_eq_ok_iff.mp decoded with ⟨more, isMore, isAll⟩
      cases isAll
      intro premise member
      rcases List.mem_cons.mp member with rfl | later
      · exact ⟨_, item, isFirst⟩
      · exact inductionHypothesis isMore premise later

theorem exists_decodeAt_of_decodePremises {path : Path} {fields : List (String × Json)}
    {premises : List Derivation} (decoded : decodePremises path fields = .ok premises) :
    forall premise, premise ∈ premises -> ∃ place item, decodeAt place item = .ok premise := by
  induction fields with
  | nil =>
      rw [decodePremises] at decoded
      cases decoded
      intro premise member
      cases member
  | cons field fields inductionHypothesis =>
      rcases field with ⟨name, value⟩
      rw [decodePremises.eq_def] at decoded
      simp only at decoded
      split at decoded
      · split at decoded
        · exact exists_decodeAt_of_decodeItems decoded
        · cases decoded
          intro premise member
          cases member
      · exact inductionHypothesis decoded

/-- A derivation that was read from a document has a document, unless a constant is
infinite. -/
theorem storable_of_decodeAt {path : Path} {value : Json} {root : Derivation}
    (decoded : decodeAt path value = .ok root) (finite : root.IsFinite) : root.Storable := by
  induction root using nodeInduction generalizing path value with
  | missing =>
      rw [decodeAt.eq_def] at decoded
      split at decoded
      · rcases bind_eq_ok_iff.mp decoded with ⟨⟨_, _, _⟩, _, decodedBelow⟩
        rcases bind_eq_ok_iff.mp decodedBelow with ⟨_, _, isNode⟩
        cases isNode
      · cases decoded
  | node conclusion step proved premises inductionHypothesis =>
      rw [decodeAt.eq_def] at decoded
      split at decoded
      next fields =>
        rcases bind_eq_ok_iff.mp decoded with ⟨⟨_, _, _⟩, head, decodedBelow⟩
        rcases bind_eq_ok_iff.mp decodedBelow with ⟨_, below, isNode⟩
        cases isNode
        rcases printable_of_headOf head (finite.root _ rfl) with ⟨printable, recognised⟩
        refine storable_node_iff.mpr ⟨printable, recognised, ?_⟩
        intro premise member
        rcases exists_decodeAt_of_decodePremises below premise member with ⟨_, _, decodedPremise⟩
        exact inductionHypothesis premise member decodedPremise (finite.premise member)
      · cases decoded

theorem storable_of_load {text file : String} {root : Derivation}
    (loaded : load text file = .ok root) (finite : root.IsFinite) : root.Storable := by
  unfold load at loaded
  split at loaded
  · cases loaded
  · cases loaded
  next value _ =>
    split at loaded
    next decoded =>
      cases loaded
      exact storable_of_decodeAt decoded finite
    · cases loaded

/-- The text of a derivation, with a line end behind it, is loaded as the derivation. -/
theorem exists_text_of_storable {root : Derivation} (storable : root.Storable) :
    ∃ text, write (some "  ") root = .ok text ∧
      forall file, load (Disk.uniformLines (text ++ "\n")) file = .ok root := by
  rcases stored_of_storable storable with ⟨value, encoded, plain, decoded⟩
  have twoSpaces : forall indent : String, some "  " = some indent ->
      forall c, c ∈ indent.toList -> c = ' ' := by
    rintro _ ⟨⟩ c member
    simpa using member
  have blank : Json.Style.Blank ⟨some "  ", false⟩ := by
    intro indent isIndent c member
    exact twoSpaces indent isIndent c member ▸ rfl
  have returnless : Json.Style.Returnless ⟨some "  ", false⟩ := by
    intro indent isIndent member
    exact absurd (twoSpaces indent isIndent _ member) (by decide)
  refine ⟨value.write ⟨some "  ", false⟩, ?_, fun file => ?_⟩
  · rw [write, encoded]
    rfl
  · have isText : (value.write ⟨some "  ", false⟩ ++ "\n").toList =
        Json.chars ⟨some "  ", false⟩ 0 value ++ ['\n'] := by
      rw [String.toList_append]
      rfl
    have noReturn : '\r' ∉ (value.write ⟨some "  ", false⟩ ++ "\n").toList := by
      rw [isText, List.mem_append, not_or]
      exact ⟨plain.return_notMem_chars rfl returnless 0, by decide⟩
    have lineEnd : Json.IsBlank ['\n'] := by
      intro c member
      exact List.mem_singleton.mp member ▸ rfl
    rw [Disk.uniformLines_of_notMem noReturn]
    exact load_of_decode (Json.ofText_append rfl blank plain lineEnd isText) (decoded []) file

end ProofFile

/-! ## What is edited can be stored -/

namespace Derivation

theorem Storable.at? {root node : Derivation} {path : Path} (storable : root.Storable)
    (found : root.at? path = some node) : node.Storable := by
  induction path generalizing root with
  | nil =>
      cases eq_of_at?_nil found
      exact storable
  | cons index path inductionHypothesis =>
      rcases exists_premise_of_at?_cons found with
        ⟨_, _, _, _, _, premise, rfl, _, atPosition, foundBelow⟩
      cases storable with
      | node _ _ _ _ each =>
          exact inductionHypothesis (each premise (List.mem_of_getElem? atPosition)) foundBelow

theorem Storable.replace? {root replacement result : Derivation} {path : Path}
    (storable : root.Storable) (replacementStorable : replacement.Storable)
    (replaced : root.replace? path replacement = some result) : result.Storable := by
  induction path generalizing root result with
  | nil =>
      cases eq_of_replace?_nil replaced
      exact replacementStorable
  | cons index path inductionHypothesis =>
      rcases replace?_cons_eq_some_iff.mp replaced with
        ⟨conclusion, step, proved, premises, position, premise, changed, rfl, rfl, atPosition,
          below, rfl⟩
      rcases storable_node_iff.mp storable with ⟨printable, recognised, each⟩
      refine storable_node_iff.mpr ⟨printable, recognised, ?_⟩
      intro other member
      rcases List.mem_or_eq_of_mem_set member with isOld | isChanged
      · exact each other isOld
      · subst isChanged
        exact inductionHypothesis (each premise (List.mem_of_getElem? atPosition)) below

/-- The assertions of an input that are complete can be printed. -/
structure RuleInput.Printable (given : RuleInput) : Prop where
  intermediate : given.intermediate.isComplete = true -> given.intermediate.Printable
  newPre : given.newPre.isComplete = true -> given.newPre.Printable
  newPost : given.newPost.isComplete = true -> given.newPost.Printable

theorem printable_conj {left right : Expr} (leftPrintable : left.Printable)
    (rightPrintable : right.Printable) : (Expr.conj left right).Printable :=
  Expr.legible_binary_iff.mpr ⟨rfl, leftPrintable, rightPrintable⟩

theorem printable_negate {operand : Expr} (printable : operand.Printable) :
    (Expr.negate operand).Printable :=
  Expr.legible_unary_iff.mpr ⟨rfl, printable⟩

/-- What a rule asks for can be printed, if its conclusion and its input can. -/
theorem Expands.printable {rule : Rule} {conclusion : Triple} {given : RuleInput}
    {triples : List Triple} (expands : Expands rule conclusion given triples)
    (conclusionPrintable : conclusion.Printable) (givenPrintable : given.Printable) :
    forall triple, triple ∈ triples -> triple.Printable := by
  rcases conclusionPrintable with ⟨pre, stmt, post⟩
  intro triple member
  cases expands with
  | skip | assign => cases member
  | sequence complete =>
      have middle := givenPrintable.intermediate complete
      rcases stmt with ⟨_, first, second⟩
      simp only [List.mem_cons, List.not_mem_nil, or_false] at member
      rcases member with rfl | rfl
      · exact ⟨pre, first, middle⟩
      · exact ⟨middle, second, post⟩
  | conditional =>
      rcases stmt with ⟨_, guard, thenBranch, elseBranch⟩
      simp only [List.mem_cons, List.not_mem_nil, or_false] at member
      rcases member with rfl | rfl
      · exact ⟨printable_conj pre guard, thenBranch, post⟩
      · exact ⟨printable_conj pre (printable_negate guard), elseBranch, post⟩
  | loop =>
      rcases stmt with ⟨_, guard, body⟩
      cases List.mem_singleton.mp member
      exact ⟨printable_conj pre guard, body, pre⟩
  | consequence preComplete postComplete =>
      cases List.mem_singleton.mp member
      exact ⟨givenPrintable.newPre preComplete, stmt, givenPrintable.newPost postComplete⟩

theorem Storable.edit? {root result : Derivation} {edit : Edit} (storable : root.Storable)
    (givenPrintable : edit.given.Printable) (edited : root.edit? edit = some result) :
    result.Storable := by
  rcases edit?_eq_some_iff.mp edited with ⟨rule, _, refined⟩
  rcases refine?_eq_some_iff.mp refined with
    ⟨conclusion, step, proved, below, triples, found, expands, replaced⟩
  have printable := (storable_node_iff.mp (storable.at? found)).1
  refine storable.replace? ?_ replaced
  refine storable_node_iff.mpr ⟨printable, fun _ => Step.noConfusion, ?_⟩
  intro premise member
  rcases List.mem_map.mp member with ⟨triple, isTriple, rfl⟩
  refine storable_node_iff.mpr ⟨?_, fun _ => Step.noConfusion, fun _ below => ?_⟩
  · exact expands.printable printable givenPrintable triple isTriple
  · cases below

end Derivation
end HoareProof
