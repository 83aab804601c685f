import HoareProof.Derivation.Check
import HoareProof.ProofFile
import HoareProof.Proofs.JsonText
import HoareProof.Proofs.StatementText

namespace HoareProof

/-!
Proof files lose nothing.  A derivation whose steps are rules or still to be chosen, and
whose assertions and statements can be printed, is read from its document with every
part of every node as it was.  Where a node stands in the document does not matter to
what is read there, so the path is generalised.
-/

/-- A derivation of which every node has printable parts and a step that is a rule or
still to be chosen. -/
inductive Derivation.Storable : Derivation -> Prop where
  | node {conclusion : Triple} {step : Step} {proved : Bool} {premises : List Derivation}
      (pre : conclusion.pre.Printable) (stmt : conclusion.stmt.Printable)
      (post : conclusion.post.Printable) (recognised : forall name, step ≠ .unrecognised name)
      (each : forall premise, premise ∈ premises -> Storable premise) :
      Storable (.node conclusion step proved premises)

namespace ProofFile

theorem ofText?_tag (rule : Rule) : Rule.ofText? rule.tag = some rule := by
  cases rule <;> decide +kernel

/-- A derivation has a document without numbers, and the document has that derivation. -/
def Stored (derivation : Derivation) : Prop :=
  ∃ value, encode derivation = .ok value ∧ value.Plain ∧
    forall path, decodeAt path value = .ok derivation

theorem stored_all {premises : List Derivation}
    (each : forall premise, premise ∈ premises -> Stored premise) :
    ∃ values, encodeAll premises = .ok values ∧
      (forall value, value ∈ values -> Json.Plain value) ∧
        forall path index, decodeItems path index values = .ok premises := by
  induction premises with
  | nil =>
      refine ⟨[], by rw [encodeAll], nofun, fun path index => ?_⟩
      rw [decodeItems]
  | cons premise premises inductionHypothesis =>
      obtain ⟨value, encoded, plain, decoded⟩ := each premise List.mem_cons_self
      obtain ⟨values, encodedMore, plainMore, decodedMore⟩ := inductionHypothesis
        fun premise member => each premise (List.mem_cons_of_mem _ member)
      refine ⟨value :: values, ?_, ?_, ?_⟩
      · rw [encodeAll, encoded, encodedMore]
        rfl
      · intro other member
        rcases List.mem_cons.mp member with rfl | later
        · exact plain
        · exact plainMore other later
      · intro path index
        rw [decodeItems, decoded, decodedMore]
        rfl

/-- The fields of a node. -/
def nodeFields (conclusion : Triple) (rule : Json) (proved : Bool) (children : List Json) :
    List (String × Json) := [
  ("pre", .string conclusion.pre.human),
  ("stmt", .string conclusion.stmt.text),
  ("post", .string conclusion.post.human),
  ("rule", rule),
  ("obligations_proved", .bool proved),
  ("children", .array children)]

theorem plain_nodeFields {conclusion : Triple} {rule : Json} (rulePlain : rule.Plain)
    (proved : Bool) {children : List Json}
    (childrenPlain : forall value, value ∈ children -> Json.Plain value) :
    (Json.object (nodeFields conclusion rule proved children)).Plain := by
  apply Json.Plain.object
  · intro field member
    simp only [nodeFields, List.mem_cons, List.not_mem_nil, or_false] at member
    rcases member with rfl | rfl | rfl | rfl | rfl | rfl
    · exact .string _
    · exact .string _
    · exact .string _
    · exact rulePlain
    · exact .bool _
    · exact .array childrenPlain
  · simp [nodeFields]

theorem exists_stepField {step : Step} (recognised : forall name, step ≠ .unrecognised name) :
    ∃ rule, stepField step = .ok rule ∧ rule.Plain ∧
      forall path conclusion proved children,
        stepOf path (nodeFields conclusion rule proved children) = .ok step := by
  cases step with
  | pending => exact ⟨.null, rfl, .null, fun _ _ _ _ => rfl⟩
  | applied rule =>
      refine ⟨.string rule.tag, rfl, .string _, fun path conclusion proved children => ?_⟩
      have found : ruleOf? (.string rule.tag) = some rule := ofText?_tag rule
      simp [stepOf, nodeFields, List.lookup_cons, found]
  | unrecognised name => exact absurd rfl (recognised name)

theorem headOf_nodeFields {conclusion : Triple} (pre : conclusion.pre.Printable)
    (stmt : conclusion.stmt.Printable) (post : conclusion.post.Printable) {path : Path}
    {step : Step} {rule : Json} {proved : Bool} {children : List Json}
    (isStep : stepOf path (nodeFields conclusion rule proved children) = .ok step) :
    headOf path (nodeFields conclusion rule proved children) = .ok (conclusion, step, proved) := by
  have preRead := Expr.ofText?_human pre
  have postRead := Expr.ofText?_human post
  have stmtRead := (Stmt.spelledAt_text stmt).ofText?
  have isPre : textField (Expr.ofText? .infixed) path (nodeFields conclusion rule proved children)
      "pre" = .ok conclusion.pre := by
    simp [textField, nodeFields, preRead]
  have isPost : textField (Expr.ofText? .infixed) path
      (nodeFields conclusion rule proved children) "post" = .ok conclusion.post := by
    simp [textField, nodeFields, List.lookup_cons, postRead]
  have isStmt : textField Stmt.ofText? path (nodeFields conclusion rule proved children) "stmt" =
      .ok conclusion.stmt := by
    simp [textField, nodeFields, List.lookup_cons, stmtRead]
  have checked : checkPremises path (nodeFields conclusion rule proved children) = .ok () := by
    simp [checkPremises, nodeFields, List.lookup_cons]
  have isFlag : flagOf path (nodeFields conclusion rule proved children) = .ok proved := by
    simp [flagOf, nodeFields, List.lookup_cons]
  rw [headOf, isPre, isPost, isStmt, isStep, checked, isFlag]
  rfl

theorem stored_of_storable {derivation : Derivation} (storable : derivation.Storable) :
    Stored derivation := by
  induction storable with
  | @node conclusion step proved premises pre stmt post recognised _ inductionHypothesis =>
      obtain ⟨children, encoded, childrenPlain, decoded⟩ := stored_all inductionHypothesis
      obtain ⟨rule, isRule, rulePlain, isStep⟩ := exists_stepField recognised
      refine ⟨.object (nodeFields conclusion rule proved children), ?_,
        plain_nodeFields rulePlain proved childrenPlain, ?_⟩
      · rw [encode, isRule, encoded]
        rfl
      · intro path
        have head := headOf_nodeFields pre stmt post (isStep path conclusion proved children)
        have below : decodePremises path (nodeFields conclusion rule proved children) =
            .ok premises := by
          simp [nodeFields, decodePremises, decoded]
        rw [decodeAt, head, ok_bind, below]
        rfl

/-- The text of a document that is read back is loaded as the derivation it is about. -/
theorem load_of_decode {value : Json} {derivation : Derivation} {text : String}
    (read : Json.ofText text = .ok value) (decoded : decode value = .ok derivation)
    (file : String) : load text file = .ok derivation := by
  rw [load, read]
  simp only [decoded]

/-- A derivation is read from its document unchanged.  So it is from the text of its
document, for every indentation with blanks and for any other with which documents can
be read, and checking it gives the same verdict as before, however strict the check. -/
theorem stored_round_trip (derivation : Derivation) (storable : derivation.Storable) :
    ∃ value, encode derivation = .ok value ∧ decode value = .ok derivation ∧
      forall (indent : Option String) (file : String),
        (Json.Style.Blank ⟨indent, false⟩ ∨
          Json.ofText (value.write ⟨indent, false⟩) = .ok value) ->
        ∃ text loaded, write indent derivation = .ok text ∧ load text file = .ok loaded ∧
          loaded = derivation ∧ forall strictness,
            loaded.isValid strictness = derivation.isValid strictness := by
  obtain ⟨value, encoded, plain, decoded⟩ := stored_of_storable storable
  refine ⟨value, encoded, decoded [], fun indent file indentation => ?_⟩
  have written : write indent derivation = .ok (value.write ⟨indent, false⟩) := by
    rw [write, encoded]
    rfl
  have read : Json.ofText (value.write ⟨indent, false⟩) = .ok value := by
    rcases indentation with blank | read
    · exact Json.ofText_write rfl blank plain
    · exact read
  exact ⟨_, derivation, written, load_of_decode read (decoded []) file, rfl, fun _ => rfl⟩

/-- A claim of consequence about `x := -1`, with one premise that is still to be proved. -/
def weakened : Derivation :=
  .node ⟨.truth true, .assign .complete "x" (.const (.whole (-1))),
      .binary .less (.var "x") (.const (.double (Binary64.ofDecimal false 5 (-1))))⟩
    (.applied .consequence) true
    [.node ⟨.truth true, .assign .complete "x" (.const (.whole (-1))),
        .binary .less (.var "x") (.const (.whole 0))⟩ .pending false []]

theorem weakened_stored_round_trip :
    weakened.Storable ∧ Json.Style.Blank ⟨some "  ", false⟩ ∧
      ∃ value, encode weakened = .ok value ∧ decode value = .ok weakened ∧
        ∃ text loaded, write (some "  ") weakened = .ok text ∧
          load text "proof.json" = .ok loaded ∧ loaded = weakened ∧ forall strictness,
            loaded.isValid strictness = weakened.isValid strictness := by
  have storable : weakened.Storable := by
    refine .node (by decide +kernel) (by decide +kernel) (by decide +kernel) nofun ?_
    intro premise member
    rw [List.mem_singleton.mp member]
    exact .node (by decide +kernel) (by decide +kernel) (by decide +kernel) nofun nofun
  have blank : Json.Style.Blank ⟨some "  ", false⟩ := by
    rintro _ ⟨⟩ c member
    have isSpace : c = ' ' := by simpa using member
    exact isSpace ▸ rfl
  obtain ⟨value, encoded, decoded, loads⟩ := stored_round_trip weakened storable
  exact ⟨storable, blank, value, encoded, decoded, loads (some "  ") "proof.json" (.inl blank)⟩

end ProofFile
end HoareProof
