import HoareProof.ProofFile
import HoareProof.Proofs.Agreement
import HoareProof.Proofs.AssertionLanguage
import HoareProof.Proofs.StatementLanguage

namespace HoareProof
namespace ProofFile

/-!
Which documents are derivations, and which node is blamed if one is not.  A document can hold
anything, and a person may have written it, so an ill-formed node must neither be passed over
nor be looked for at the wrong place.  What makes a node well-formed is said here of one value,
without a word about the order in which its fields are checked or its premises are read.

A document has a derivation exactly when the values at all of its paths are well-formed, and
the derivation has the same paths.  Otherwise there is one error, and it names the path of the
first value that is ill-formed.  First means first in the order of paths, in which a node comes
before its premises and a premise before those on its right, with all that is below it.  There
is one exception: what stands in the place of a rule is shown in the message about it, and if it
holds a number that is too long to be shown, the error names no path.
-/

/-! ## Values of a document -/

/-- The values of the premises of a node. -/
def premiseValues (value : Json) : List Json :=
  match value.field? "children" with
  | some (.array items) => items
  | _ => []

/-- The value at a path of a document. -/
def valueAt? (value : Json) : Path -> Option Json
  | [] => some value
  | .ofNat index :: path =>
      match (premiseValues value)[index]? with
      | none => none
      | some item => valueAt? item path
  | .negSucc _ :: _ => none

theorem valueAt?_cons (value : Json) (index : Nat) (path : Path) :
    valueAt? value ((index : Int) :: path) =
      (premiseValues value)[index]?.bind fun item => valueAt? item path := by
  rw [← Int.ofNat_eq_natCast, valueAt?]
  cases (premiseValues value)[index]? <;> rfl

theorem exists_item_of_valueAt?_cons {value found : Json} {index : Int} {path : Path}
    (isFound : valueAt? value (index :: path) = some found) :
    ∃ (position : Nat) (item : Json), index = position ∧
      (premiseValues value)[position]? = some item ∧ valueAt? item path = some found := by
  cases index with
  | negSucc position => cases isFound
  | ofNat position =>
      rw [Int.ofNat_eq_natCast, valueAt?_cons, Option.bind_eq_some_iff] at isFound
      rcases isFound with ⟨item, atPosition, foundBelow⟩
      exact ⟨position, item, rfl, atPosition, foundBelow⟩

/-- What holds of a value and of everything below its premises holds of the whole document. -/
theorem everywhere_of_items {property : Json -> Prop} {root : Json} (atRoot : property root)
    (each : forall item, item ∈ premiseValues root -> forall path value,
      valueAt? item path = some value -> property value) (path : Path) (value : Json)
    (found : valueAt? root path = some value) : property value := by
  cases path with
  | nil =>
      cases found
      exact atRoot
  | cons index path =>
      rcases exists_item_of_valueAt?_cons found with ⟨position, item, _, atPosition, foundBelow⟩
      exact each item (List.mem_of_getElem? atPosition) path value foundBelow

theorem sizeOf_lt_of_mem_premiseValues {value item : Json} (member : item ∈ premiseValues value) :
    sizeOf item < sizeOf value := by
  unfold premiseValues at member
  split at member
  next items isList =>
    cases value with
    | object fields =>
        rcases List.lookup_eq_some_iff.mp isList with ⟨front, back, rfl, _⟩
        have inItems := List.sizeOf_lt_of_mem member
        have inFields : sizeOf ("children", Json.array items) <
            sizeOf (front ++ ("children", Json.array items) :: back) :=
          List.sizeOf_lt_of_mem (by simp)
        simp only [Prod.mk.sizeOf_spec, Json.array.sizeOf_spec, Json.object.sizeOf_spec]
          at inFields ⊢
        omega
    | null | bool | whole | double | notANumber | string | array => cases isList
  next => cases member

/-- Induction over documents.  A value has as many induction hypotheses as it has premises. -/
@[elab_as_elim]
theorem documentInduction {motive : Json -> Prop}
    (step : forall value, (forall item, item ∈ premiseValues value -> motive item) -> motive value)
    (value : Json) : motive value :=
  step value fun item _member => documentInduction step item
termination_by sizeOf value
decreasing_by exact sizeOf_lt_of_mem_premiseValues _member

/-! ## Well-formed nodes -/

/-- A field holds a text that can be read. -/
def HoldsText {Value : Type} (read : String -> Except NumeralError (Option Value)) (field : String)
    (value : Json) : Prop :=
  ∃ text result, value.field? field = some (.string text) ∧ read text = .ok (some result)

/-- The rule of a node is not given, or it is the name of one. -/
def HoldsRule (value : Json) : Prop :=
  value.field? "rule" = none ∨ value.field? "rule" = some .null ∨
    ∃ named rule, value.field? "rule" = some named ∧ ruleOf? named = some rule

/-- The premises of a node are not given, or they are a list. -/
def HoldsPremises (value : Json) : Prop :=
  value.field? "children" = none ∨ value.field? "children" = some .null ∨
    ∃ items, value.field? "children" = some (.array items)

/-- The flag of a node is not given, or it is a truth value. -/
def HoldsFlag (value : Json) : Prop :=
  value.field? "obligations_proved" = none ∨
    ∃ proved, value.field? "obligations_proved" = some (.bool proved)

/-- A value that is a node as far as its own fields go.  The three texts have to be there, the
other fields need not. -/
structure WellFormed (value : Json) : Prop where
  isObject : ∃ fields, value = .object fields
  pre : HoldsText (Expr.ofText? .infixed) "pre" value
  post : HoldsText (Expr.ofText? .infixed) "post" value
  stmt : HoldsText Stmt.ofText? "stmt" value
  rule : HoldsRule value
  premises : HoldsPremises value
  flag : HoldsFlag value

/-- What stands in the place of the rule of a node cannot be shown. -/
def RuleHidden (value : Json) : Prop :=
  ∃ named, value.field? "rule" = some named ∧ (Data.ofJson named).isDisplayable = false

/-- The rule of a node is hidden, and what is looked at before it is as it should be. -/
@[mk_iff]
structure HidesRule (value : Json) : Prop where
  pre : HoldsText (Expr.ofText? .infixed) "pre" value
  post : HoldsText (Expr.ofText? .infixed) "post" value
  stmt : HoldsText Stmt.ofText? "stmt" value
  rule : RuleHidden value

/-- All values of a document are well-formed. -/
def AllWellFormed (root : Json) : Prop :=
  forall path value, valueAt? root path = some value -> WellFormed value

/-- A value of a document is ill-formed, and none before it is. -/
structure FirstIllFormed (root : Json) (path : Path) (value : Json) : Prop where
  found : valueAt? root path = some value
  illFormed : ¬ WellFormed value
  before : forall earlier other, Path.Before earlier path -> valueAt? root earlier = some other ->
    WellFormed other

/-- No number in a text is without a value. -/
def Convertible (text : String) : Prop :=
  forall stream token, Token.ofText text = .ok stream -> token ∈ stream.tokens ->
    Parsing.Readable token

instance (text : String) : Decidable (Convertible text) :=
  match lexed : Token.ofText text with
  | .error _ => isTrue (by
      intro stream token isStream
      cases lexed.symm.trans isStream)
  | .ok stream => decidable_of_iff (forall token, token ∈ stream.tokens -> Parsing.Readable token)
      ⟨fun readable _ token isStream member =>
          readable token (Except.ok.inj (lexed.symm.trans isStream) ▸ member),
        fun convertible token member => convertible stream token lexed member⟩

/-- No number in the texts of a value is without a value. -/
def HoldsConvertible (value : Json) : Prop :=
  forall field text, field ∈ ["pre", "post", "stmt"] -> value.field? field = some (.string text) ->
    Convertible text

/-- Of every value of a document, the texts are convertible. -/
def AllConvertible (root : Json) : Prop :=
  forall path value, valueAt? root path = some value -> HoldsConvertible value

theorem AllConvertible.root {root : Json} (convertible : AllConvertible root) :
    HoldsConvertible root :=
  convertible [] root rfl

theorem AllConvertible.premise {root item : Json} (convertible : AllConvertible root)
    (member : item ∈ premiseValues root) : AllConvertible item := by
  rcases List.mem_iff_getElem?.mp member with ⟨position, atPosition⟩
  intro path value found
  apply convertible ((position : Int) :: path)
  rw [valueAt?_cons, atPosition, Option.bind_some, found]

theorem Convertible.readAll?_ne_error {Value : Type} {parser : Parsing.Parser Value}
    (blames : Parsing.Blames parser) {text : String} (convertible : Convertible text)
    (error : NumeralError) : Parsing.readAll? parser text ≠ .error error := by
  intro fails
  rcases Parsing.blamed_of_readAll? blames fails with ⟨stream, lexed, token, member, unreadable⟩
  exact unreadable.not_readable (convertible stream token lexed member)

/-! ## The fields of one node -/

/-- The error about a value that is ill-formed: it names the path of the value, unless the rule
of the value is hidden. -/
inductive Accuses (hidden : Prop) (path : Path) : DecodeError -> Prop
  | named (fault : NodeFault) : ¬ hidden -> Accuses hidden path (.illFormed path fault)
  | unnamed : hidden -> Accuses hidden path .undisplayable

/-- An attempt succeeds if a condition holds, and then no rule is hidden.  It accuses the node at
a path if the condition does not hold. -/
def Decides {Value : Type} (path : Path) (condition hidden : Prop)
    (attempt : Except DecodeError Value) : Prop :=
  (condition ∧ ¬ hidden ∧ ∃ value, attempt = .ok value) ∨
    (¬ condition ∧ ∃ error, Accuses hidden path error ∧ attempt = .error error)

theorem Accuses.congr {hidden other : Prop} {path : Path} {error : DecodeError}
    (accuses : Accuses hidden path error) (same : hidden ↔ other) : Accuses other path error := by
  cases accuses with
  | named fault shown => exact .named fault (mt same.mpr shown)
  | unnamed isHidden => exact .unnamed (same.mp isHidden)

theorem Decides.ok {Value : Type} {path : Path} {condition hidden : Prop} (value : Value)
    (holds : condition) (shown : ¬ hidden) : Decides path condition hidden (.ok value) :=
  .inl ⟨holds, shown, value, rfl⟩

theorem Decides.fault {Value : Type} {path : Path} {condition hidden : Prop} (fault : NodeFault)
    (fails : ¬ condition) (shown : ¬ hidden) :
    Decides path condition hidden (.error (.illFormed path fault) : Except DecodeError Value) :=
  .inr ⟨fails, _, .named fault shown, rfl⟩

/-- Of two attempts, the second is made if the first succeeds. -/
theorem Decides.bind {First Second : Type} {path : Path} {first second : Prop}
    {firstHidden secondHidden : Prop} {attempt : Except DecodeError First}
    {next : First -> Except DecodeError Second} (decides : Decides path first firstHidden attempt)
    (decidesNext : forall value, Decides path second secondHidden (next value)) :
    Decides path (first ∧ second) (firstHidden ∨ first ∧ secondHidden) (attempt >>= next) := by
  rcases decides with ⟨holds, shown, value, rfl⟩ | ⟨fails, error, accuses, rfl⟩
  -- After a success nothing hidden comes from the first attempt, after a failure nothing hidden
  -- comes from the second.
  · have sameHidden : secondHidden ↔ firstHidden ∨ first ∧ secondHidden := by
      simp [holds, shown]
    rcases decidesNext value with ⟨holdsNext, shownNext, isOk⟩ | ⟨failsNext, error, accuses, isError⟩
    · exact .inl ⟨⟨holds, holdsNext⟩, mt sameHidden.mpr shownNext, isOk⟩
    · exact .inr ⟨fun both => failsNext both.2, error, accuses.congr sameHidden, isError⟩
  · have sameHidden : firstHidden ↔ firstHidden ∨ first ∧ secondHidden := by
      simp [fails]
    exact .inr ⟨fun both => fails both.1, error, accuses.congr sameHidden, rfl⟩

theorem Decides.map {First Second : Type} {path : Path} {condition hidden : Prop}
    {attempt : Except DecodeError First} (decides : Decides path condition hidden attempt)
    (build : First -> Second) :
    Decides path condition hidden (attempt >>= fun value => .ok (build value)) := by
  rcases decides with ⟨holds, shown, value, rfl⟩ | ⟨fails, error, accuses, rfl⟩
  · exact .ok _ holds shown
  · exact .inr ⟨fails, error, accuses, rfl⟩

theorem decides_textField {Value : Type} {read : String -> Except NumeralError (Option Value)}
    {fields : List (String × Json)} {field : String}
    (readable : forall text error, fields.lookup field = some (.string text) ->
      read text ≠ .error error) (path : Path) :
    Decides path (HoldsText read field (.object fields)) False
      (textField read path fields field) := by
  unfold textField
  split
  next text isText =>
    cases outcome : read text with
    | error error => exact absurd outcome (readable text error isText)
    | ok result? =>
        cases result? with
        | some result => exact .ok result ⟨text, result, isText, outcome⟩ not_false
        | none =>
            refine .fault _ ?_ not_false
            rintro ⟨other, result, isOther, isRead⟩
            cases isText.symm.trans isOther
            cases outcome.symm.trans isRead
  next notText =>
    refine .fault _ ?_ not_false
    rintro ⟨text, _, isText, _⟩
    exact notText text isText

/-- A value that cannot be displayed names no rule. -/
theorem ruleOf?_of_undisplayable {value : Json}
    (undisplayable : (Data.ofJson value).isDisplayable = false) : ruleOf? value = none := by
  unfold ruleOf?
  split
  · rfl
  · exact if_neg (Bool.eq_false_iff.mp undisplayable)

theorem ruleHidden_iff {fields : List (String × Json)} {named : Json}
    (isNamed : fields.lookup "rule" = some named) :
    RuleHidden (.object fields) ↔ (Data.ofJson named).isDisplayable = false := by
  constructor
  · rintro ⟨other, isOther, undisplayable⟩
    cases isNamed.symm.trans isOther
    exact undisplayable
  · intro undisplayable
    exact ⟨named, isNamed, undisplayable⟩

theorem decides_stepOf (path : Path) (fields : List (String × Json)) :
    Decides path (HoldsRule (.object fields)) (RuleHidden (.object fields))
      (stepOf path fields) := by
  unfold stepOf
  split
  next absent =>
    refine .ok _ (.inl absent) ?_
    rintro ⟨named, isNamed, _⟩
    cases absent.symm.trans isNamed
  next isNull =>
    exact .ok _ (.inr (.inl isNull)) fun hidden => nomatch (ruleHidden_iff isNull).mp hidden
  next named notNull isNamed =>
    cases isRule : ruleOf? named with
    | some rule =>
        -- What names a rule has been displayed, so it is not hidden.
        refine .ok _ (.inr (.inr ⟨named, rule, isNamed, isRule⟩)) fun hidden => ?_
        cases (ruleOf?_of_undisplayable ((ruleHidden_iff isNamed).mp hidden)).symm.trans isRule
    | none =>
        have noRule : ¬ HoldsRule (.object fields) := by
          rintro (absent | isNull | ⟨other, rule, isOther, isRule'⟩)
          · cases isNamed.symm.trans absent
          · cases isNamed.symm.trans isNull
            exact notNull rfl
          · cases isNamed.symm.trans isOther
            cases isRule.symm.trans isRule'
        cases displayable : (Data.ofJson named).isDisplayable with
        | true =>
            refine .fault _ noRule fun hidden => ?_
            cases displayable.symm.trans ((ruleHidden_iff isNamed).mp hidden)
        | false =>
            exact .inr ⟨noRule, _, .unnamed ((ruleHidden_iff isNamed).mpr displayable), rfl⟩

theorem decides_checkPremises (path : Path) (fields : List (String × Json)) :
    Decides path (HoldsPremises (.object fields)) False (checkPremises path fields) := by
  unfold checkPremises
  split
  next absent => exact .ok _ (.inl absent) not_false
  next isNull => exact .ok _ (.inr (.inl isNull)) not_false
  next items isList => exact .ok _ (.inr (.inr ⟨items, isList⟩)) not_false
  next other notNull notList isOther =>
    refine .fault _ ?_ not_false
    rintro (absent | isNull | ⟨items, isList⟩)
    · cases isOther.symm.trans absent
    · cases isOther.symm.trans isNull
      exact notNull rfl
    · cases isOther.symm.trans isList
      exact notList items rfl

theorem decides_flagOf (path : Path) (fields : List (String × Json)) :
    Decides path (HoldsFlag (.object fields)) False (flagOf path fields) := by
  unfold flagOf
  split
  next absent => exact .ok _ (.inl absent) not_false
  next proved isFlag => exact .ok _ (.inr ⟨proved, isFlag⟩) not_false
  next other notFlag isOther =>
    refine .fault _ ?_ not_false
    rintro (absent | ⟨proved, isFlag⟩)
    · cases isOther.symm.trans absent
    · cases isOther.symm.trans isFlag
      exact notFlag proved rfl

theorem wellFormed_object_iff {fields : List (String × Json)} :
    WellFormed (.object fields) ↔
      HoldsText (Expr.ofText? .infixed) "pre" (.object fields) ∧
        HoldsText (Expr.ofText? .infixed) "post" (.object fields) ∧
          HoldsText Stmt.ofText? "stmt" (.object fields) ∧ HoldsRule (.object fields) ∧
            HoldsPremises (.object fields) ∧ HoldsFlag (.object fields) := by
  constructor
  · rintro ⟨_, pre, post, stmt, rule, premises, flag⟩
    exact ⟨pre, post, stmt, rule, premises, flag⟩
  · rintro ⟨pre, post, stmt, rule, premises, flag⟩
    exact ⟨⟨fields, rfl⟩, pre, post, stmt, rule, premises, flag⟩

/-- Everything of a node but its premises is read if the node is well-formed.  If it is not, the
node is accused, whichever of its fields is at fault. -/
theorem decides_headOf {fields : List (String × Json)}
    (convertible : HoldsConvertible (.object fields)) (path : Path) :
    Decides path (WellFormed (.object fields)) (HidesRule (.object fields))
      (headOf path fields) := by
  have assertions : forall field, field ∈ ["pre", "post", "stmt"] -> forall text error,
      fields.lookup field = some (.string text) -> Expr.ofText? .infixed text ≠ .error error :=
    fun field isField text error isText =>
      (convertible field text isField isText).readAll?_ne_error Expr.infixParser_blames error
  have statement : forall text error, fields.lookup "stmt" = some (.string text) ->
      Stmt.ofText? text ≠ .error error :=
    fun text error isText =>
      (convertible "stmt" text (by simp) isText).readAll?_ne_error Stmt.parser_blames error
  have decides :=
    (decides_textField (assertions "pre" (by simp)) path).bind fun pre =>
      (decides_textField (assertions "post" (by simp)) path).bind fun post =>
        (decides_textField statement path).bind fun stmt =>
          (decides_stepOf path fields).bind fun step =>
            (decides_checkPremises path fields).bind fun _ =>
              (decides_flagOf path fields).map fun proved =>
                ((⟨pre, stmt, post⟩, step, proved) : Triple × Step × Bool)
  simp only [false_or, and_false, or_false, ← wellFormed_object_iff, ← hidesRule_iff] at decides
  exact decides

/-! ## Nodes and their premises -/

theorem decodePremises_eq (path : Path) (fields : List (String × Json)) :
    decodePremises path fields = decodeItems path 0 (premiseValues (.object fields)) := by
  induction fields with
  | nil =>
      rw [decodePremises, premiseValues, Json.field?, List.lookup_nil, decodeItems]
  | cons field rest inductionHypothesis =>
      rcases field with ⟨name, value⟩
      rw [decodePremises.eq_def, premiseValues, Json.field?, List.lookup_cons]
      by_cases isChildren : name = "children"
      · subst isChildren
        simp only [if_true, beq_self_eq_true]
        cases value with
        | array items => rfl
        | null | bool | whole | double | notANumber | string | object =>
            simp only [decodeItems]
      · have notSame : ("children" == name) = false := by
          simpa [beq_eq_false_iff_ne] using Ne.symm isChildren
        simp only [isChildren, if_false, notSame]
        exact inductionHypothesis

/-- A derivation and a document have the same paths. -/
def SameShape (root : Derivation) (value : Json) : Prop :=
  forall path, (root.at? path).isSome = (valueAt? value path).isSome

/-- A document at a place is read as a derivation of the same shape. -/
def Loads (place : Path) (value : Json) : Prop :=
  AllWellFormed value ∧ ∃ root, decodeAt place value = .ok root ∧ SameShape root value

/-- A document at a place is not read, because of the first value in it that is ill-formed. -/
def Blames (place : Path) (value : Json) : Prop :=
  ∃ path bad error, FirstIllFormed value path bad ∧
    Accuses (HidesRule bad) (place ++ path) error ∧ decodeAt place value = .error error

/-- Consecutive premises are all read, or the first of them that is not is to blame. -/
theorem decodeItems_cases {items : List Json}
    (each : forall item, item ∈ items -> forall place, Loads place item ∨ Blames place item)
    (place : Path) (index : Nat) :
    (∃ premises, decodeItems place index items = .ok premises ∧
      List.Forall₂ (fun item premise => AllWellFormed item ∧ SameShape premise item)
        items premises) ∨
    ∃ (position : Nat) (item : Json) (path : Path) (bad : Json) (error : DecodeError),
      items[position]? = some item ∧ FirstIllFormed item path bad ∧
        (forall earlier other, earlier < position -> items[earlier]? = some other ->
          AllWellFormed other) ∧
        Accuses (HidesRule bad) (place ++ ((index + position : Nat) : Int) :: path) error ∧
        decodeItems place index items = .error error := by
  induction items generalizing index with
  | nil =>
      left
      exact ⟨[], by rw [decodeItems], .nil⟩
  | cons item rest inductionHypothesis =>
      rw [decodeItems]
      rcases each item List.mem_cons_self (place ++ [(index : Int)]) with
        ⟨allWell, premise, decoded, shape⟩ | ⟨path, bad, error, first, accuses, decoded⟩
      · rw [decoded, ok_bind]
        rcases inductionHypothesis (fun other member => each other (.tail _ member))
            (index + 1) with
          ⟨premises, decodedRest, shapes⟩ |
          ⟨position, other, path, bad, error, atPosition, first, wellBefore, accuses, decodedRest⟩
        · left
          rw [decodedRest, ok_bind]
          exact ⟨premise :: premises, rfl, .cons ⟨allWell, shape⟩ shapes⟩
        · right
          rw [decodedRest, error_bind]
          rw [Nat.add_assoc, Nat.add_comm 1 position] at accuses
          refine ⟨position + 1, other, path, bad, error, atPosition, first, ?_, accuses, rfl⟩
          intro earlier another isEarlier atEarlier
          cases earlier with
          | zero =>
              cases atEarlier
              exact allWell
          | succ earlier =>
              exact wellBefore earlier another (Nat.lt_of_succ_lt_succ isEarlier) atEarlier
      · right
        rw [decoded, error_bind]
        rw [List.append_assoc, List.singleton_append] at accuses
        refine ⟨0, item, path, bad, error, rfl, first, ?_, accuses, rfl⟩
        intro earlier _ isEarlier
        exact absurd isEarlier (Nat.not_lt_zero earlier)

/-- Below a well-formed node, the first ill-formed value is that of the first premise with one. -/
theorem firstIllFormed_below {value item bad : Json} {position : Nat} {path : Path}
    (wellFormed : WellFormed value) (atPosition : (premiseValues value)[position]? = some item)
    (wellBefore : forall earlier other, earlier < position ->
      (premiseValues value)[earlier]? = some other -> AllWellFormed other)
    (first : FirstIllFormed item path bad) :
    FirstIllFormed value ((position : Int) :: path) bad := by
  refine ⟨?_, first.illFormed, ?_⟩
  · rw [valueAt?_cons, atPosition, Option.bind_some, first.found]
  · intro earlier other before isFound
    cases before with
    | nil =>
        cases isFound
        exact wellFormed
    | rel less =>
        rcases exists_item_of_valueAt?_cons isFound with
          ⟨place, another, rfl, atPlace, foundBelow⟩
        exact wellBefore place another (Int.ofNat_lt.mp less) atPlace _ other foundBelow
    | cons beforeBelow =>
        rw [valueAt?_cons, atPosition, Option.bind_some] at isFound
        exact first.before _ other beforeBelow isFound

theorem firstIllFormed_root {value : Json} (illFormed : ¬ WellFormed value) :
    FirstIllFormed value [] value :=
  ⟨rfl, illFormed, fun _ _ before => absurd before List.not_lex_nil⟩

theorem sameShape_node {conclusion : Triple} {step : Step} {proved : Bool}
    {premises : List Derivation} {value : Json}
    (shapes : List.Forall₂ (fun item premise => AllWellFormed item ∧ SameShape premise item)
      (premiseValues value) premises) :
    SameShape (.node conclusion step proved premises) value := by
  intro path
  cases path with
  | nil => rfl
  | cons index path =>
      cases index with
      | negSucc position => rfl
      | ofNat position =>
          rw [Int.ofNat_eq_natCast, Derivation.at?_node_cons, valueAt?_cons]
          cases atItem : (premiseValues value)[position]? with
          | none =>
              have beyond := List.getElem?_eq_none_iff.mp atItem
              rw [shapes.length_eq] at beyond
              rw [List.getElem?_eq_none_iff.mpr beyond]
              rfl
          | some item =>
              rcases List.getElem?_eq_some_iff.mp atItem with ⟨inBounds, isItem⟩
              have inPremises : position < premises.length := shapes.length_eq ▸ inBounds
              have alike := (List.forall₂_iff_get.mp shapes).2 position inBounds inPremises
              rw [List.getElem?_eq_getElem inPremises, Option.bind_some, Option.bind_some]
              rw [List.get_eq_getElem, List.get_eq_getElem, isItem] at alike
              exact alike.2 path

/-- Wherever a document stands, it is read as a derivation of its shape, or the first of its
values that is ill-formed is to blame. -/
theorem loads_or_blames {value : Json} (convertible : AllConvertible value) (place : Path) :
    Loads place value ∨ Blames place value := by
  induction value using documentInduction generalizing place with
  | step value inductionHypothesis =>
      cases value with
      | object fields =>
          rcases decides_headOf convertible.root place with
            ⟨wellFormed, _, head, isHead⟩ | ⟨illFormed, error, accuses, isError⟩
          · rcases decodeItems_cases (fun item member => inductionHypothesis item member
              (convertible.premise member)) place 0 with
              ⟨premises, decoded, shapes⟩ |
              ⟨position, item, path, bad, error, atPosition, first, wellBefore, accuses, decoded⟩
            · left
              refine ⟨everywhere_of_items wellFormed ?_, ?_⟩
              · intro item member
                rcases List.mem_iff_get.mp member with ⟨position, rfl⟩
                exact ((List.forall₂_iff_get.mp shapes).2 position position.isLt
                  (shapes.length_eq ▸ position.isLt)).1
              · refine ⟨.node head.1 head.2.1 head.2.2 premises, ?_, sameShape_node shapes⟩
                rw [decodeAt, isHead, ok_bind, decodePremises_eq, decoded]
                rfl
            · right
              rw [Nat.zero_add] at accuses
              refine ⟨_, bad, error,
                firstIllFormed_below wellFormed atPosition wellBefore first, accuses, ?_⟩
              rw [decodeAt, isHead, ok_bind, decodePremises_eq, decoded]
              rfl
          · right
            refine ⟨[], _, error, firstIllFormed_root illFormed, ?_, ?_⟩
            · rwa [List.append_nil]
            · rw [decodeAt, isError, error_bind]
      | null | bool | whole | double | notANumber | string | array =>
          right
          refine ⟨[], _, _, firstIllFormed_root ?_, .named .notObject ?_, ?_⟩
          · intro wellFormed
            rcases wellFormed.isObject with ⟨fields, isObject⟩
            cases isObject
          · rintro ⟨⟨_, _, absent, _⟩, _, _, _⟩
            cases absent
          · simp only [decodeAt, List.append_nil]

theorem FirstIllFormed.not_allWellFormed {root bad : Json} {path : Path}
    (first : FirstIllFormed root path bad) : ¬ AllWellFormed root :=
  fun allWell => first.illFormed (allWell path bad first.found)

/-- A document without unreadable numbers has a derivation exactly if the values at all its paths
are well-formed, and then the derivation has the same paths.  Otherwise the error is one issue
about the file, and it names the path of the first value that is ill-formed, unless the rule of
this value cannot be shown: then the error is that, and no issue. -/
theorem loading_precise (value : Json) (convertible : AllConvertible value) :
    ((∃ root, decode value = .ok root) ↔ AllWellFormed value) ∧
      (forall root, decode value = .ok root -> forall path,
        (root.at? path).isSome = (valueAt? value path).isSome) ∧
      (¬ AllWellFormed value -> ∃ path bad, FirstIllFormed value path bad ∧
        (HidesRule bad -> decode value = .error .undisplayable) ∧
        (¬ HidesRule bad -> ∃ fault, decode value = .error (.illFormed path fault) ∧
          forall file, ∃ message, (DecodeError.illFormed path fault).report file =
            .issue ⟨.fileError, "node " ++ path.text ++ ":" ++ message, none, none,
              [("file", .string file)]⟩)) := by
  rcases loads_or_blames convertible [] with
    ⟨allWell, root, decoded, shape⟩ | ⟨path, bad, error, first, accuses, decoded⟩
  · refine ⟨⟨fun _ => allWell, fun _ => ⟨root, decoded⟩⟩, ?_, fun notAll => absurd allWell notAll⟩
    intro other isOther
    cases decoded.symm.trans isOther
    exact shape
  · refine ⟨?_, ?_, fun _ => ⟨path, bad, first, fun hidden => ?_, fun shown => ?_⟩⟩
    · apply iff_of_false
      · rintro ⟨root, isRoot⟩
        cases decoded.symm.trans isRoot
      · exact first.not_allWellFormed
    · intro root isRoot
      cases decoded.symm.trans isRoot
    · cases accuses with
      | named fault shown => exact absurd hidden shown
      | unnamed _ => exact decoded
    · cases accuses with
      | unnamed hidden => exact absurd hidden shown
      | named fault _ =>
          refine ⟨fault, decoded, fun file => ⟨" " ++ fault.message, ?_⟩⟩
          simp only [DecodeError.report, illFormedMessage, Issue.ofFile, String.append_assoc]
          rfl

/-- A node about `skip` with a given flag. -/
def sheet (flag : Json) : Json :=
  .object [("pre", .string "x > 0"), ("post", .string "x > 0"), ("stmt", .string "skip"),
    ("obligations_proved", flag)]

/-- A document whose second premise has a word for its flag, and whose third is no node at
all. -/
def slipped : Json :=
  .object [("pre", .string "x > 0"), ("post", .string "x > 0"), ("stmt", .string "skip; skip"),
    ("rule", .string " Sequence "),
    ("children", .array [sheet (.bool false), sheet (.string "false"), .null])]

theorem holdsConvertible_of_texts {fields : List (String × Json)} {pre post stmt : String}
    (isPre : fields.lookup "pre" = some (.string pre))
    (isPost : fields.lookup "post" = some (.string post))
    (isStmt : fields.lookup "stmt" = some (.string stmt))
    (convertible : Convertible pre ∧ Convertible post ∧ Convertible stmt) :
    HoldsConvertible (.object fields) := by
  intro field text isField isText
  simp only [List.mem_cons, List.not_mem_nil, or_false] at isField
  rcases isField with rfl | rfl | rfl
  · cases isPre.symm.trans isText
    exact convertible.1
  · cases isPost.symm.trans isText
    exact convertible.2.1
  · cases isStmt.symm.trans isText
    exact convertible.2.2

theorem allConvertible_sheet (flag : Json) : AllConvertible (sheet flag) :=
  everywhere_of_items (holdsConvertible_of_texts rfl rfl rfl (by decide +kernel))
    fun _ member => absurd member List.not_mem_nil

theorem slipped_loading_precise :
    AllConvertible slipped ∧ ∃ bad fault, FirstIllFormed slipped [1] bad ∧
      decode slipped = .error (.illFormed [1] fault) ∧ forall file, ∃ message,
        (DecodeError.illFormed [1] fault).report file =
          .issue ⟨.fileError, "node 1:" ++ message, none, none, [("file", .string file)]⟩ := by
  have convertible : AllConvertible slipped := by
    refine everywhere_of_items (holdsConvertible_of_texts rfl rfl rfl (by decide +kernel)) ?_
    intro item member
    rcases member with _ | ⟨_, _ | ⟨_, _ | ⟨_, ⟨⟩⟩⟩⟩
    · exact allConvertible_sheet _
    · exact allConvertible_sheet _
    · refine everywhere_of_items ?_ fun _ member => absurd member List.not_mem_nil
      intro field text _ isText
      cases isText
  have blamed : (match decode slipped with
      | .error (.illFormed path _) => some path
      | _ => none) = some [1] := by
    decide +kernel
  have isText : Path.text [1] = "1" := by decide +kernel
  rcases loading_precise slipped convertible with ⟨loadsIff, _, blames⟩
  have notAll : ¬ AllWellFormed slipped := by
    intro allWell
    rcases loadsIff.mpr allWell with ⟨root, decoded⟩
    rw [decoded] at blamed
    cases blamed
  rcases blames notAll with ⟨path, bad, first, hides, shows⟩
  have shown : ¬ HidesRule bad := by
    intro hidden
    rw [hides hidden] at blamed
    cases blamed
  rcases shows shown with ⟨fault, decoded, reported⟩
  rw [decoded] at blamed
  cases Option.some.inj blamed
  rw [isText] at reported
  exact ⟨convertible, bad, fault, first, decoded, reported⟩

/-- A node with a number of 4301 digits in the place of its rule. -/
def overlong : Json :=
  .object [("pre", .string "p"), ("post", .string "p"), ("stmt", .string "skip"),
    ("rule", .whole (Nat.pow 10 4300))]

/-- The number in the place of the rule makes the node ill-formed, and the error does not say
so. -/
theorem overlong_loading_unnamed :
    AllConvertible overlong ∧ ¬ AllWellFormed overlong ∧
      decode overlong = .error .undisplayable := by
  have convertible : AllConvertible overlong :=
    everywhere_of_items (holdsConvertible_of_texts rfl rfl rfl (by decide +kernel))
      fun _ member => absurd member List.not_mem_nil
  have undisplayable : (match decode overlong with
      | .error .undisplayable => true
      | _ => false) = true := by
    decide +kernel
  have decoded : decode overlong = .error .undisplayable := by
    revert undisplayable
    split
    next isError => exact fun _ => isError
    next => exact fun impossible => absurd impossible Bool.false_ne_true
  refine ⟨convertible, fun allWell => ?_, decoded⟩
  rcases (allWell [] overlong rfl).rule with absent | isNull | ⟨named, rule, isNamed, isRule⟩
  · cases absent
  · cases isNull
  · cases isNamed
    have hidden : (Data.ofJson (.whole (Nat.pow 10 4300))).isDisplayable = false := by
      decide +kernel
    cases (ruleOf?_of_undisplayable hidden).symm.trans isRule

end ProofFile
end HoareProof
