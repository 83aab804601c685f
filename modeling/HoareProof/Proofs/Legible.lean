import HoareProof.Proofs.InfixGrammar
import HoareProof.Proofs.PrefixGrammar
import HoareProof.Proofs.Scanning

namespace HoareProof

/-!
Assertions that can be written and read again.  Nothing in them is missing, their
variables have names that are read as names, and their constants are numbers that can
be written.  Which numbers can be written depends on the form, so it is a parameter.
Everything that is read from a text is such an assertion, infinite constants apart.
-/

namespace Number

/-- Every number but an infinite double. -/
def isFinite : Number -> Bool
  | .whole _ => true
  | .double (.finite _ _ _) => true
  | .double (.infinite _) => false
  | .notANumber _ _ => false

/-- A number with a numeral. -/
def Writable (value : Number) : Prop :=
  value.isFinite = true ∧ value.isShort = true

instance (value : Number) : Decidable value.Writable :=
  inferInstanceAs (Decidable (_ ∧ _))

theorem neg_neg (value : Number) : value.neg.neg = value := by
  cases value with
  | whole n => simp [neg]
  | double x => cases x <;> simp [neg, Binary64.neg]
  | notANumber negative label => simp [neg]

theorem isShort_neg (value : Number) : value.neg.isShort = value.isShort := by
  cases value with
  | whole n => simp [neg, isShort]
  | double | notANumber => rfl

theorem isFinite_neg (value : Number) : value.neg.isFinite = value.isFinite := by
  cases value with
  | whole | notANumber => rfl
  | double x => cases x <;> rfl

theorem Writable.neg {value : Number} (writable : value.Writable) : value.neg.Writable :=
  ⟨value.isFinite_neg.trans writable.1, value.isShort_neg.trans writable.2⟩

theorem isNegative_neg {value : Number} (negative : value.isNegative = true) :
    value.neg.isNegative = false := by
  cases value with
  | whole n =>
      simp only [isNegative, decide_eq_true_eq] at negative
      simp only [neg, isNegative, decide_eq_false_iff_not]
      omega
  | double x =>
      cases x <;>
        simpa [neg, isNegative, Binary64.isNegative, Binary64.neg] using negative
  | notANumber sign label =>
      simpa [neg, isNegative] using negative

/-- A negative number is written as a sign and the number without it. -/
theorem toList_text_of_isNegative {value : Number} (writable : value.Writable)
    (negative : value.isNegative = true) :
    value.text.toList = '-' :: value.neg.text.toList := by
  cases value with
  | notANumber sign label => cases writable.1
  | whole n =>
      simp only [isNegative, decide_eq_true_eq] at negative
      have unsigned : ¬ -n < 0 := by omega
      simp only [text, neg, wholeText, negative, unsigned, if_true, if_false,
        String.toList_ofList, Int.natAbs_neg]
  | double x =>
      cases x <;>
        simp_all [text, neg, isNegative, Binary64.text, Binary64.neg, Binary64.isNegative]

open Parsing in
/-- A number without a sign is written as one token that denotes it. -/
theorem spells_text {value : Number} (writable : value.Writable)
    (unsigned : value.isNegative = false) {rest : List Char} (bounded : Token.Bounded rest) :
    Token.Spells value.text.toList
      (fun tokens => ∃ token, tokens = [token] ∧ Denotes token value) rest := by
  cases value with
  | notANumber sign label => cases writable.1
  | whole n =>
      have nonnegative : 0 ≤ n := by simpa [isNegative] using unsigned
      have short : (Nat.toDigits 10 n.natAbs).length ≤ Numeral.lengthLimit := by
        exact of_decide_eq_true writable.2
      have digits : (Number.whole n).text.toList = Nat.toDigits 10 n.natAbs := by
        simp [text, wholeText, Int.not_lt.mpr nonnegative]
      rw [digits]
      apply (Token.spells_whole n.natAbs bounded).mono
      rintro _ ⟨token, rfl, kind, isText⟩
      have reads : wholeValue token = .ok n.natAbs := by
        rw [wholeValue_eq_ok_iff, isText, Numeral.readWhole_toDigits short]
      have denotes := Denotes.whole kind reads
      rw [Int.natAbs_of_nonneg nonnegative] at denotes
      exact ⟨token, rfl, denotes⟩
  | double x =>
      cases x with
      | infinite negative => exact absurd writable.1 (by simp [isFinite])
      | finite negative units exact =>
          have positive : negative = false := unsigned
          subst positive
          obtain ⟨parts, isText, value⟩ := Binary64.exists_parts_magnitudeText exact
          have chars : (Number.double (.finite false units exact)).text.toList = parts.text := by
            simp [text, Binary64.text, Binary64.isNegative, isText]
          rw [chars]
          apply (Token.spells_decimal parts bounded).mono
          rintro _ ⟨token, rfl, kind, isToken⟩
          have reads : decimalValue token = .ok (.finite false units exact) := by
            rw [decimalValue_eq_ok_iff, isToken, Numeral.readDecimal, String.toList_ofList,
              Binary64.decimal?_text]
            exact congrArg Except.ok value
          exact ⟨token, rfl, .decimal kind reads⟩

end Number

namespace Expr

/-- Nothing is missing, variables have names, and constants are admitted. -/
structure Legible (admits : Number -> Prop) (e : Expr) : Prop where
  complete : e.isComplete = true
  names : forall name, name ∈ e.occurrences -> Token.isName name = true
  constants : forall value, value ∈ e.constants -> admits value

instance {admits : Number -> Prop} [DecidablePred admits] (e : Expr) :
    Decidable (e.Legible admits) :=
  decidable_of_iff
    (e.isComplete = true ∧ (forall name, name ∈ e.occurrences -> Token.isName name = true) ∧
      forall value, value ∈ e.constants -> admits value)
    ⟨fun ⟨complete, names, constants⟩ => ⟨complete, names, constants⟩,
      fun ⟨complete, names, constants⟩ => ⟨complete, names, constants⟩⟩

/-- The assertions that the human form can write. -/
abbrev Printable (e : Expr) : Prop :=
  e.Legible Number.Writable

section

variable {admits : Number -> Prop}

theorem legible_var_iff {name : String} :
    (Expr.var name).Legible admits ↔ Token.isName name = true := by
  constructor
  · intro legible
    exact legible.names name (by simp [occurrences])
  · intro named
    exact ⟨rfl, by simpa [occurrences] using named, by simp [Expr.constants]⟩

theorem legible_const_iff {value : Number} : (Expr.const value).Legible admits ↔ admits value := by
  constructor
  · intro legible
    exact legible.constants value (by simp [Expr.constants])
  · intro admitted
    exact ⟨rfl, by simp [occurrences], by simpa [Expr.constants] using admitted⟩

theorem legible_truth (value : Bool) : (Expr.truth value).Legible admits :=
  ⟨rfl, by simp [occurrences], by simp [Expr.constants]⟩

theorem legible_binary_iff {op : Operator} {left right : Expr} :
    (Expr.binary op left right).Legible admits ↔
      op.isBinary = true ∧ left.Legible admits ∧ right.Legible admits := by
  constructor
  · rintro ⟨complete, names, constants⟩
    simp only [isComplete, Bool.and_eq_true] at complete
    simp only [occurrences, List.mem_append] at names
    simp only [Expr.constants, List.mem_append] at constants
    refine ⟨complete.1.1, ⟨complete.1.2, ?_, ?_⟩, ⟨complete.2, ?_, ?_⟩⟩
    · exact fun name member => names name (Or.inl member)
    · exact fun value member => constants value (Or.inl member)
    · exact fun name member => names name (Or.inr member)
    · exact fun value member => constants value (Or.inr member)
  · rintro ⟨known, left, right⟩
    refine ⟨?_, ?_, ?_⟩
    · simp [isComplete, known, left.complete, right.complete]
    · intro name member
      rcases List.mem_append.mp member with inLeft | inRight
      · exact left.names name inLeft
      · exact right.names name inRight
    · intro value member
      rcases List.mem_append.mp member with inLeft | inRight
      · exact left.constants value inLeft
      · exact right.constants value inRight

theorem legible_unary_iff {op : Operator} {operand : Expr} :
    (Expr.unary op operand).Legible admits ↔ op = .not ∧ operand.Legible admits := by
  constructor
  · rintro ⟨complete, names, constants⟩
    simp only [isComplete, Bool.and_eq_true] at complete
    have isNot : op = .not := by
      cases op <;> first | rfl | cases complete.1
    exact ⟨isNot, complete.2, names, constants⟩
  · rintro ⟨rfl, legible⟩
    exact ⟨legible.complete, legible.names, legible.constants⟩

end

end Expr

/-! ## What is read is legible -/

namespace Token

/-- A token with the kind of names has a name for its text. -/
def Genuine (token : Token) : Prop :=
  token.kind = .name -> isName token.text = true

theorem lookup_keywords_of_wordKind {word : List Char} (kind : wordKind word = .name) :
    keywords.lookup (String.ofList word) = none := by
  unfold wordKind at kind
  cases found : keywords.lookup (String.ofList word) with
  | none => rfl
  | some other =>
      rw [found, Option.getD_some] at kind
      obtain ⟨front, back, listed, _⟩ := List.lookup_eq_some_iff.mp found
      have member : (String.ofList word, other) ∈ keywords := by simp [listed]
      have noName : forall entry, entry ∈ keywords -> entry.2 ≠ .name := by decide
      exact absurd kind (noName _ member)

theorem isName_of_isLexeme {chars : List Char} (isLexeme : IsLexeme .name chars) :
    isName (String.ofList chars) = true := by
  generalize isKind : TokenKind.name = kind at isLexeme
  cases isLexeme with
  | word starts inside =>
      have noKeyword := lookup_keywords_of_wordKind isKind.symm
      rw [isName, String.toList_ofList, noKeyword]
      simpa [starts] using inside
  | whole => cases isKind
  | decimal => cases isKind
  | symbol listed =>
      subst isKind
      simp [symbols] at listed

theorem genuine_of_ofText {text : String} {stream : Stream} (lexed : ofText text = .ok stream) :
    forall token, token ∈ stream.tokens -> Genuine token := by
  intro token member isKind
  have isLexeme := (reads_of_scan_ok lexed).isLexeme token member
  rw [isKind] at isLexeme
  simpa using isName_of_isLexeme isLexeme

end Token

open Parsing in
theorem Parsing.Denotes.isShort {token : Token} {value : Number} (denotes : Denotes token value) :
    value.isShort = true := by
  cases denotes with
  | whole _ reads =>
      have short := Numeral.length_toDigits_of_readWhole (wholeValue_eq_ok_iff.mp reads)
      exact decide_eq_true short
  | decimal => rfl

namespace Expr

/-- The constants of a text are as short as numerals are. -/
abbrev Short (e : Expr) : Prop :=
  e.Legible (fun value => value.isShort = true)

theorem short_const_neg {value : Number} (short : (Expr.const value).Short) :
    (Expr.const value.neg).Short :=
  legible_const_iff.mpr (value.isShort_neg.trans (legible_const_iff.mp short))

theorem InfixForm.Sign.isBinary {level : InfixForm.Level} {kind : TokenKind} {op : Operator}
    (sign : InfixForm.Sign level kind op) : op.isBinary = true := by
  cases sign <;> rfl

theorem short_join {op : Operator} (binary : op.isBinary = true) {token : Token}
    {first second : List Token} {left right : Expr}
    (leftShort : (forall token, token ∈ first -> Token.Genuine token) -> left.Short)
    (rightShort : (forall token, token ∈ second -> Token.Genuine token) -> right.Short)
    (genuine : forall other, other ∈ first ++ token :: second -> Token.Genuine other) :
    (Expr.binary op left right).Short := by
  refine legible_binary_iff.mpr ⟨binary, leftShort ?_, rightShort ?_⟩
  · intro other member
    exact genuine other (List.mem_append_left _ member)
  · intro other member
    exact genuine other (List.mem_append_right _ (List.mem_cons_of_mem _ member))

theorem InfixForm.Derives.short {level : InfixForm.Level} {tokens : List Token} {e : Expr}
    (derives : InfixForm.Derives level tokens e)
    (genuine : forall token, token ∈ tokens -> Token.Genuine token) : e.Short := by
  induction derives with
  | number denotes => exact legible_const_iff.mpr denotes.isShort
  | negativeNumber _ denotes => exact short_const_neg (legible_const_iff.mpr denotes.isShort)
  | truth | falsehood => exact legible_truth _
  | name kind => exact legible_var_iff.mpr (genuine _ List.mem_cons_self kind)
  | group _ _ _ inductionHypothesis =>
      exact inductionHypothesis fun token member => genuine token (by simp [member])
  | ofAtom _ inductionHypothesis | ofProduct _ inductionHypothesis | ofSum _ inductionHypothesis
  | ofComparison _ inductionHypothesis | ofNegation _ inductionHypothesis
  | ofConjunction _ inductionHypothesis => exact inductionHypothesis genuine
  | negate _ _ inductionHypothesis =>
      refine legible_unary_iff.mpr ⟨rfl, inductionHypothesis fun token member => ?_⟩
      exact genuine token (List.mem_cons_of_mem _ member)
  | multiply sign _ _ leftShort rightShort | add sign _ _ leftShort rightShort
  | compare sign _ _ leftShort rightShort | conjoin sign _ _ leftShort rightShort
  | disjoin sign _ _ leftShort rightShort =>
      exact short_join sign.isBinary leftShort rightShort genuine

theorem PrefixForm.isBinary_of_headOperator? {kind : TokenKind} {op : Operator}
    (isHead : PrefixForm.headOperator? kind = some op) (notNegation : op ≠ .not) :
    op.isBinary = true := by
  cases kind <;> cases isHead <;> first | rfl | exact absurd rfl notNegation

theorem PrefixForm.short_foldl {op : Operator} (binary : op.isBinary = true) {args : List Expr}
    (argsShort : forall e, e ∈ args -> e.Short) {first : Expr} (firstShort : first.Short) :
    (args.foldl (Expr.binary op) first).Short := by
  induction args generalizing first with
  | nil => exact firstShort
  | cons e args inductionHypothesis =>
      apply inductionHypothesis fun other member => argsShort other (List.mem_cons_of_mem _ member)
      exact legible_binary_iff.mpr ⟨binary, firstShort, argsShort e List.mem_cons_self⟩

/-- An application of legible arguments is legible. -/
theorem PrefixForm.short_application? {kind : TokenKind} {op : Operator} {args : List Expr}
    {e : Expr} (isHead : PrefixForm.headOperator? kind = some op)
    (legal : PrefixForm.application? op args = some e)
    (argsShort : forall e, e ∈ args -> e.Short) : e.Short := by
  unfold application? at legal
  split at legal
  next =>
    split at legal
    · cases legal
      exact legible_unary_iff.mpr ⟨rfl, argsShort _ List.mem_cons_self⟩
    · cases legal
  next notNegation =>
    have binary := isBinary_of_headOperator? isHead notNegation
    split at legal
    · split at legal
      · split at legal
        · cases legal
          exact short_const_neg (argsShort _ List.mem_cons_self)
        · cases legal
      · cases legal
    next left right =>
      cases legal
      exact legible_binary_iff.mpr
        ⟨binary, argsShort left List.mem_cons_self, argsShort right (by simp)⟩
    next first second third more =>
      split at legal
      · cases legal
        apply short_foldl binary
        · exact fun e member => argsShort e (List.mem_cons_of_mem _ member)
        · exact argsShort first List.mem_cons_self
      · cases legal
    · cases legal

theorem PrefixForm.Leaf.short {token : Token} {e : Expr} (isLeaf : PrefixForm.Leaf token e)
    (genuine : token.Genuine) : e.Short := by
  cases isLeaf with
  | number denotes => exact legible_const_iff.mpr denotes.isShort
  | truth | falsehood => exact legible_truth _
  | name kind => exact legible_var_iff.mpr (genuine kind)

theorem PrefixForm.Derives.short {tokens : List Token} {args : List Expr}
    (derives : PrefixForm.Derives tokens args)
    (genuine : forall token, token ∈ tokens -> Token.Genuine token) :
    forall e, e ∈ args -> e.Short := by
  induction derives with
  | nil => nofun
  | leaf isLeaf _ inductionHypothesis =>
      intro e member
      rcases List.mem_cons.mp member with rfl | later
      · exact isLeaf.short (genuine _ List.mem_cons_self)
      · exact inductionHypothesis
          (fun token member => genuine token (List.mem_cons_of_mem _ member)) e later
  | application _ isHead _ _ legal _ innerHypothesis behindHypothesis =>
      intro e member
      rcases List.mem_cons.mp member with rfl | later
      · exact short_application? isHead legal
          (innerHypothesis fun token member => genuine token (by simp [member]))
      · exact behindHypothesis (fun token member => genuine token (by simp [member])) e later

/-- Whatever text an assertion is read from, it is legible, and its constants are as
short as numerals are. -/
theorem short_of_ofText? {form : Form} {text : String} {e : Expr}
    (read : ofText? form text = .ok (some e)) : e.Short := by
  obtain ⟨stream, lexed, parsed⟩ := Parsing.readAll?_eq_some_iff.mp read
  have genuine := Token.genuine_of_ofText lexed
  cases form with
  | infixed =>
      obtain ⟨used, whole, derives⟩ := infixParser_sound stream.tokens e [] parsed
      rw [whole, List.append_nil] at genuine
      exact derives.short genuine
  | prefixed =>
      obtain ⟨used, whole, derives⟩ := prefixParser_sound stream.tokens e [] parsed
      rw [whole, List.append_nil] at genuine
      exact derives.short genuine e List.mem_cons_self

end Expr
end HoareProof
