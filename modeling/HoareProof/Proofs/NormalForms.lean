import HoareProof.Derivation.Check
import HoareProof.Proofs.Legible

namespace HoareProof

/-!
The normal form of a written assertion, described on the assertion.  The human form has
parentheses around every application, and normalizing takes away those around applications
that hold no other: an application of atoms is laid out bare, and all others keep theirs.
Blanks disappear, and conjunction and negation are spelled as words.

The words are letters like those of names.  As long as no name contains one of them, they can
be read again as signs, so that nothing of the layout is lost but the parentheses.
-/

namespace Number

/-- A whole number. -/
def isWhole : Number -> Bool
  | .whole _ => true
  | _ => false

end Number

namespace Expr

/-- The assertions whose constants are whole numbers. -/
abbrev Integral (e : Expr) : Prop :=
  e.Legible (fun value => value.isWhole = true)

/-! ## Layouts -/

/-- An assertion that applies no operator. -/
def isAtom : Expr -> Bool
  | .binary _ _ _ => false
  | .unary _ _ => false
  | _ => true

@[simp] theorem isAtom_binary (op : Operator) (left right : Expr) :
    (Expr.binary op left right).isAtom = false :=
  rfl

@[simp] theorem isAtom_unary (op : Operator) (operand : Expr) :
    (Expr.unary op operand).isAtom = false :=
  rfl

/-- An atom, or an application of atoms. -/
def isBare : Expr -> Bool
  | .binary _ left right => left.isAtom && right.isAtom
  | .unary _ operand => operand.isAtom
  | _ => true

/-- Characters as they are, or in parentheses. -/
def enclose (bare : Bool) (chars : List Char) : List Char :=
  if bare then chars else '(' :: (chars ++ [')'])

/-- The characters of an assertion without blanks, with parentheses around the applications
that are not bare. -/
def layout (spelling : Operator -> List Char) : Expr -> List Char
  | .binary op left right =>
      enclose (left.isAtom && right.isAtom)
        (left.layout spelling ++ (spelling op ++ right.layout spelling))
  | .unary op operand => enclose operand.isAtom (spelling op ++ operand.layout spelling)
  | e => e.human.toList

theorem layout_atom {e : Expr} (atom : e.isAtom = true) (spelling : Operator -> List Char) :
    e.layout spelling = e.human.toList := by
  cases e with
  | binary | unary => cases atom
  | hole | var | const | truth => rfl

/-! ## The characters of atoms -/

/-- A character of a name or of a whole number. -/
def isAtomChar (c : Char) : Bool :=
  Token.continuesName c || c = '-'

theorem toNat_lt_of_isAtomChar {c : Char} (inside : isAtomChar c = true) : c.toNat < 128 := by
  simp only [isAtomChar, Token.continuesName, Token.startsName, Text.isAsciiDigit,
    Bool.or_eq_true, Bool.and_eq_true, decide_eq_true_eq, Char.le_def,
    UInt32.le_iff_toNat_le] at inside
  rcases inside with (((lower | upper) | rfl) | digit) | rfl
  · exact Nat.lt_of_le_of_lt lower.2 (by decide)
  · exact Nat.lt_of_le_of_lt upper.2 (by decide)
  · decide
  · exact Nat.lt_of_le_of_lt digit.2 (by decide)
  · decide

/-- What holds of the characters of atoms in ASCII holds of all characters of atoms. -/
theorem of_isAtomChar (property : Char -> Prop)
    (holds : forall n, n < 128 -> isAtomChar (Char.ofNat n) = true -> property (Char.ofNat n))
    {c : Char} (inside : isAtomChar c = true) : property c := by
  have ascii := holds c.toNat (toNat_lt_of_isAtomChar inside)
  rw [Char.ofNat_toNat] at ascii
  exact ascii inside

theorem exists_run_of_isName {name : String} (named : Token.isName name = true) :
    name.toList ≠ [] ∧ forall c, c ∈ name.toList -> Token.continuesName c = true := by
  unfold Token.isName at named
  split at named
  · cases named
  next first more chars =>
    simp only [Bool.and_eq_true] at named
    rcases named with ⟨⟨starts, continues⟩, _⟩
    rw [chars]
    refine ⟨List.cons_ne_nil _ _, ?_⟩
    intro c member
    rcases List.mem_cons.mp member with rfl | later
    · simp [Token.continuesName, starts]
    · exact List.all_eq_true.mp continues c later

/-- An atom is a run of characters of names, with or without a sign in front. -/
theorem exists_run {e : Expr} (integral : e.Integral) (atom : e.isAtom = true) :
    ∃ sign run, e.human.toList = sign ++ run ∧ (sign = [] ∨ sign = ['-']) ∧ run ≠ [] ∧
      forall c, c ∈ run -> Token.continuesName c = true := by
  cases e with
  | binary | unary => cases atom
  | hole => exact absurd integral.complete (by decide)
  | var name =>
      exact ⟨[], name.toList, rfl, .inl rfl, exists_run_of_isName (legible_var_iff.mp integral)⟩
  | truth value =>
      refine ⟨[], _, rfl, .inl rfl, ?_⟩
      cases value with
      | true => exact ⟨by decide, List.all_eq_true.mp (by decide)⟩
      | false => exact ⟨by decide, List.all_eq_true.mp (by decide)⟩
  | const value =>
      cases value with
      | double | notANumber =>
          exact absurd (legible_const_iff.mp integral) (by simp [Number.isWhole])
      | whole n =>
          have digits : forall c, c ∈ Nat.toDigits 10 n.natAbs -> Token.continuesName c = true := by
            intro c member
            simp [Token.continuesName, Numeral.isAscii_toDigits n.natAbs c member]
          have nonempty : Nat.toDigits 10 n.natAbs ≠ [] := Nat.toDigits_ne_nil
          by_cases negative : n < 0
          · refine ⟨['-'], _, ?_, .inr rfl, nonempty, digits⟩
            simp [human, Number.text, Number.wholeText, negative]
          · refine ⟨[], _, ?_, .inl rfl, nonempty, digits⟩
            simp [human, Number.text, Number.wholeText, negative]

theorem isAtomChar_of_mem_human {e : Expr} (integral : e.Integral) (atom : e.isAtom = true) :
    forall c, c ∈ e.human.toList -> isAtomChar c = true := by
  rcases exists_run integral atom with ⟨sign, run, chars, isSign, _, continues⟩
  intro c member
  rw [chars] at member
  rcases List.mem_append.mp member with ofSign | ofRun
  · rcases isSign with rfl | rfl
    · cases ofSign
    · cases List.mem_singleton.mp ofSign
      rfl
  · simp [isAtomChar, continues c ofRun]

/-! ## The words of operators -/

/-- What is left of a character of the human form: a blank is dropped, and the signs of
conjunction and negation become words. -/
def spellChar (c : Char) : List Char :=
  if Text.isBlank c then [] else if c = '∧' then ['a', 'n', 'd'] else spellNegation c

/-- The spelling of an operator in the normal form. -/
def wordOf (op : Operator) : List Char :=
  op.human.toList.flatMap spellChar

theorem spellConjunction_cons {c : Char} (notSign : c ≠ '∧') (notHalf : c ≠ '&')
    (rest : List Char) : spellConjunction (c :: rest) = c :: spellConjunction rest := by
  rw [spellConjunction]
  · exact notSign
  · exact fun _ half _ => notHalf half

/-- Apart from half signs of conjunction, the words are put in character by character. -/
theorem spelled_eq_flatMap {chars : List Char} (noHalf : '&' ∉ chars) :
    spellConjunction ((Text.withoutBlanks chars).flatMap spellNegation) =
      chars.flatMap spellChar := by
  induction chars with
  | nil => rfl
  | cons c rest inductionHypothesis =>
      have remaining := inductionHypothesis fun member => noHalf (List.mem_cons_of_mem _ member)
      have notHalf : c ≠ '&' := fun same => noHalf (same ▸ List.mem_cons_self)
      rw [List.flatMap_cons, ← remaining]
      by_cases blank : Text.isBlank c = true
      · simp [Text.withoutBlanks, spellChar, blank]
      by_cases sign : c = '∧'
      · subst sign
        rfl
      have kept : Text.withoutBlanks (c :: rest) = c :: Text.withoutBlanks rest := by
        simp [Text.withoutBlanks, blank]
      rw [kept, List.flatMap_cons, spellChar, if_neg blank, if_neg sign]
      unfold spellNegation
      split
      · rfl
      · exact spellConjunction_cons sign notHalf _

theorem spellChar_of_isAtomChar {c : Char} (inside : isAtomChar c = true) :
    spellChar c = [c] :=
  of_isAtomChar (fun c => spellChar c = [c]) (by decide +kernel) inside

theorem isParen_of_isAtomChar {c : Char} (inside : isAtomChar c = true) : isParen c = false :=
  of_isAtomChar (fun c => isParen c = false) (by decide +kernel) inside

theorem flatMap_spellChar {chars : List Char}
    (inside : forall c, c ∈ chars -> isAtomChar c = true) : chars.flatMap spellChar = chars := by
  induction chars with
  | nil => rfl
  | cons c rest inductionHypothesis =>
      rw [List.flatMap_cons, spellChar_of_isAtomChar (inside c List.mem_cons_self),
        inductionHypothesis fun other member => inside other (List.mem_cons_of_mem _ member)]
      rfl

/-- The human form with its words, and with all its parentheses. -/
def spelled (e : Expr) : List Char :=
  e.human.toList.flatMap spellChar

theorem spelled_atom {e : Expr} (integral : e.Integral) (atom : e.isAtom = true) :
    e.spelled = e.human.toList :=
  flatMap_spellChar (isAtomChar_of_mem_human integral atom)

theorem spelled_binary (op : Operator) (left right : Expr) :
    (Expr.binary op left right).spelled =
      '(' :: (left.spelled ++ (wordOf op ++ (right.spelled ++ [')']))) := by
  have space : spellChar ' ' = [] := rfl
  have opening : spellChar '(' = ['('] := rfl
  have closing : spellChar ')' = [')'] := rfl
  simp [spelled, human, wordOf, space, opening, closing]

theorem spelled_unary (op : Operator) (operand : Expr) :
    (Expr.unary op operand).spelled = '(' :: (wordOf op ++ (operand.spelled ++ [')'])) := by
  have opening : spellChar '(' = ['('] := rfl
  have closing : spellChar ')' = [')'] := rfl
  simp [spelled, human, wordOf, opening, closing]

theorem noHalf_human {e : Expr} (integral : e.Integral) : '&' ∉ e.human.toList := by
  induction e with
  | hole | var | const | truth =>
      intro member
      exact absurd (isAtomChar_of_mem_human integral rfl '&' member) (by decide)
  | binary op left right leftHypothesis rightHypothesis =>
      rcases legible_binary_iff.mp integral with ⟨binary, leftIntegral, rightIntegral⟩
      have noHalf : '&' ∉ op.human.toList := by
        cases op with
        | not | other => cases binary
        | _ => decide
      simp [human, noHalf, leftHypothesis leftIntegral, rightHypothesis rightIntegral]
  | unary op operand inductionHypothesis =>
      rcases legible_unary_iff.mp integral with ⟨rfl, operandIntegral⟩
      have noHalf : '&' ∉ Operator.not.human.toList := by decide
      simp [human, noHalf, inductionHypothesis operandIntegral]

/-! ## Parentheses around bare applications are dropped -/

attribute [local simp] dropGroups

theorem dropGroups_none_append {chars : List Char}
    (free : forall c, c ∈ chars -> isParen c = false) (rest : List Char) :
    dropGroups none (chars ++ rest) = chars ++ dropGroups none rest := by
  induction chars with
  | nil => rfl
  | cons c chars inductionHypothesis =>
      have noParen := free c List.mem_cons_self
      simp only [isParen, Bool.or_eq_false_iff, decide_eq_false_iff_not] at noParen
      rw [List.cons_append, dropGroups, if_neg noParen.1,
        inductionHypothesis fun other member => free other (List.mem_cons_of_mem _ member)]
      rfl

theorem dropGroups_some_append {chars : List Char}
    (free : forall c, c ∈ chars -> isParen c = false) (group rest : List Char) :
    dropGroups (some group) (chars ++ rest) = dropGroups (some (chars.reverse ++ group)) rest := by
  induction chars generalizing group with
  | nil => rfl
  | cons c chars inductionHypothesis =>
      have noParen := free c List.mem_cons_self
      simp only [isParen, Bool.or_eq_false_iff, decide_eq_false_iff_not] at noParen
      rw [List.cons_append, dropGroups, if_neg noParen.1, if_neg noParen.2,
        inductionHypothesis fun other member => free other (List.mem_cons_of_mem _ member)]
      simp

/-- A group without parentheses loses its own. -/
theorem dropGroups_group {chars : List Char} (nonempty : chars ≠ [])
    (free : forall c, c ∈ chars -> isParen c = false) (rest : List Char) :
    dropGroups none ('(' :: (chars ++ ')' :: rest)) = chars ++ dropGroups none rest := by
  have notEmpty : chars.reverse.isEmpty = false := by simpa using nonempty
  rw [dropGroups, if_pos rfl, dropGroups_some_append free, List.append_nil, dropGroups,
    if_neg (by decide), if_pos rfl, notEmpty]
  simp

/-- A group in which another one is opened keeps its parenthesis. -/
theorem dropGroups_nested {chars : List Char}
    (free : forall c, c ∈ chars -> isParen c = false) (rest : List Char) :
    dropGroups none ('(' :: (chars ++ '(' :: rest)) =
      '(' :: (chars ++ dropGroups none ('(' :: rest)) := by
  rw [dropGroups, if_pos rfl, dropGroups_some_append free, List.append_nil, dropGroups,
    if_pos rfl, dropGroups, if_pos rfl]
  simp

theorem isParen_of_mem_wordOf {op : Operator} (known : op.isBinary = true ∨ op = .not) :
    forall c, c ∈ wordOf op -> isParen c = false := by
  have none : (wordOf op).any isParen = false := by
    rcases known with binary | rfl
    · cases op with
      | not | other => cases binary
      | _ => decide
    · decide
  intro c member
  exact Bool.eq_false_iff.mpr (List.any_eq_false.mp none c member)

theorem wordOf_ne_nil {op : Operator} (known : op.isBinary = true ∨ op = .not) :
    wordOf op ≠ [] := by
  rcases known with binary | rfl
  · cases op with
    | not | other => cases binary
    | _ => decide
  · decide

theorem dropGroups_around {chars : List Char}
    (free : forall c, c ∈ chars -> isParen c = false) {e : Expr} (applied : e.isAtom = false)
    (rest : List Char) :
    dropGroups none ('(' :: (chars ++ (e.spelled ++ rest))) =
      '(' :: (chars ++ dropGroups none (e.spelled ++ rest)) := by
  cases e with
  | hole | var | const | truth => cases applied
  | binary op left right =>
      rw [spelled_binary]
      exact dropGroups_nested free _
  | unary op operand =>
      rw [spelled_unary]
      exact dropGroups_nested free _

theorem dropGroups_closing (rest : List Char) :
    dropGroups none (')' :: rest) = ')' :: dropGroups none rest := by
  simp

theorem isParen_of_mem_spelled {e : Expr} (integral : e.Integral) (atom : e.isAtom = true) :
    forall c, c ∈ e.spelled -> isParen c = false := by
  rw [spelled_atom integral atom]
  exact fun c member => isParen_of_isAtomChar (isAtomChar_of_mem_human integral atom c member)

theorem layout_wordOf_atom {e : Expr} (integral : e.Integral) (atom : e.isAtom = true) :
    e.layout wordOf = e.spelled := by
  rw [layout_atom atom, spelled_atom integral atom]

theorem dropGroups_spelled_binary {op : Operator} {left right : Expr}
    (integral : (Expr.binary op left right).Integral)
    (ofLeft : forall rest,
      dropGroups none (left.spelled ++ rest) = left.layout wordOf ++ dropGroups none rest)
    (ofRight : forall rest,
      dropGroups none (right.spelled ++ rest) = right.layout wordOf ++ dropGroups none rest)
    (rest : List Char) :
    dropGroups none ((Expr.binary op left right).spelled ++ rest) =
      (Expr.binary op left right).layout wordOf ++ dropGroups none rest := by
  rcases legible_binary_iff.mp integral with ⟨binary, leftIntegral, rightIntegral⟩
  have wordFree := isParen_of_mem_wordOf (.inl binary)
  have chars : (Expr.binary op left right).spelled ++ rest =
      '(' :: (left.spelled ++ (wordOf op ++ (right.spelled ++ ')' :: rest))) := by
    simp [spelled_binary]
  rw [chars, layout]
  cases leftAtom : left.isAtom with
  | false =>
      -- The left operand is opened at once, and from there on nothing is pending.
      have opened := dropGroups_around (List.forall_mem_nil _) leftAtom
        (wordOf op ++ (right.spelled ++ ')' :: rest))
      rw [List.nil_append] at opened
      rw [opened, ofLeft, dropGroups_none_append wordFree, ofRight, dropGroups_closing]
      simp [enclose]
  | true =>
      have frontFree := List.forall_mem_append.mpr
        ⟨isParen_of_mem_spelled leftIntegral leftAtom, wordFree⟩
      rw [← List.append_assoc]
      cases rightAtom : right.isAtom with
      | false =>
          rw [dropGroups_around frontFree rightAtom, ofRight, dropGroups_closing,
            layout_wordOf_atom leftIntegral leftAtom]
          simp [enclose]
      | true =>
          have allFree := List.forall_mem_append.mpr
            ⟨frontFree, isParen_of_mem_spelled rightIntegral rightAtom⟩
          have nonempty : (left.spelled ++ wordOf op) ++ right.spelled ≠ [] := by
            simp [wordOf_ne_nil (.inl binary)]
          rw [← List.append_assoc, dropGroups_group nonempty allFree,
            layout_wordOf_atom leftIntegral leftAtom, layout_wordOf_atom rightIntegral rightAtom]
          simp [enclose]

theorem dropGroups_spelled_unary {op : Operator} {operand : Expr}
    (integral : (Expr.unary op operand).Integral)
    (ofOperand : forall rest,
      dropGroups none (operand.spelled ++ rest) = operand.layout wordOf ++ dropGroups none rest)
    (rest : List Char) :
    dropGroups none ((Expr.unary op operand).spelled ++ rest) =
      (Expr.unary op operand).layout wordOf ++ dropGroups none rest := by
  rcases legible_unary_iff.mp integral with ⟨rfl, operandIntegral⟩
  have wordFree : forall c, c ∈ wordOf .not -> isParen c = false :=
    isParen_of_mem_wordOf (.inr rfl)
  have chars : (Expr.unary .not operand).spelled ++ rest =
      '(' :: (wordOf .not ++ (operand.spelled ++ ')' :: rest)) := by
    simp [spelled_unary]
  rw [chars, layout]
  cases atom : operand.isAtom with
  | false =>
      rw [dropGroups_around wordFree atom, ofOperand, dropGroups_closing]
      simp [enclose]
  | true =>
      have allFree := List.forall_mem_append.mpr
        ⟨wordFree, isParen_of_mem_spelled operandIntegral atom⟩
      have nonempty : wordOf .not ++ operand.spelled ≠ [] := by
        simp [wordOf_ne_nil (.inr rfl)]
      rw [← List.append_assoc, dropGroups_group nonempty allFree,
        layout_wordOf_atom operandIntegral atom]
      simp [enclose]

/-- Dropping the parentheses around groups leaves the layout. -/
theorem dropGroups_spelled {e : Expr} (integral : e.Integral) (rest : List Char) :
    dropGroups none (e.spelled ++ rest) = e.layout wordOf ++ dropGroups none rest := by
  induction e generalizing rest with
  | hole | var | const | truth =>
      rw [layout_wordOf_atom integral rfl]
      exact dropGroups_none_append (isParen_of_mem_spelled integral rfl) rest
  | binary op left right leftHypothesis rightHypothesis =>
      rcases legible_binary_iff.mp integral with ⟨_, leftIntegral, rightIntegral⟩
      exact dropGroups_spelled_binary integral (leftHypothesis leftIntegral)
        (rightHypothesis rightIntegral) rest
  | unary op operand inductionHypothesis =>
      rcases legible_unary_iff.mp integral with ⟨_, operandIntegral⟩
      exact dropGroups_spelled_unary integral (inductionHypothesis operandIntegral) rest

/-- The normal form of the human form is the layout with words. -/
theorem normalizedText_human {e : Expr} (integral : e.Integral) :
    normalizedText e.human = String.ofList (e.layout wordOf) := by
  have dropped := dropGroups_spelled integral []
  rw [List.append_nil, dropGroups, List.append_nil] at dropped
  rw [normalizedText, spelled_eq_flatMap (noHalf_human integral)]
  exact congrArg String.ofList dropped

/-! ## The words are read as signs again -/

/-- Reads words as the signs that they stand for. -/
def readWords : List Char -> List Char
  | [] => []
  | 'a' :: 'n' :: 'd' :: rest => '∧' :: readWords rest
  | 'n' :: 'o' :: 't' :: rest => '¬' :: readWords rest
  | c :: rest => c :: readWords rest

/-- Characters among which none of the words stands. -/
def Wordless (chars : List Char) : Prop :=
  ¬ ['a', 'n', 'd'] <:+: chars ∧ ¬ ['n', 'o', 't'] <:+: chars

instance (chars : List Char) : Decidable (Wordless chars) :=
  inferInstanceAs (Decidable (_ ∧ _))

/-- A character of a word behind its first one. -/
def completesWord (c : Char) : Bool :=
  c = 'n' || c = 'd' || c = 'o' || c = 't'

theorem Wordless.tail {c : Char} {chars : List Char} (wordless : Wordless (c :: chars)) :
    Wordless chars :=
  ⟨fun found => wordless.1 (found.trans (List.suffix_cons c chars).isInfix),
    fun found => wordless.2 (found.trans (List.suffix_cons c chars).isInfix)⟩

theorem readWords_cons {c : Char} {rest : List Char}
    (notAnd : ¬ ['a', 'n', 'd'] <+: c :: rest) (notNot : ¬ ['n', 'o', 't'] <+: c :: rest) :
    readWords (c :: rest) = c :: readWords rest := by
  rw [readWords]
  · rintro behind rfl rfl
    exact notAnd ⟨behind, rfl⟩
  · rintro behind rfl rfl
    exact notNot ⟨behind, rfl⟩

/-- A word that starts in front of a text ends there too, unless the text completes it. -/
theorem prefix_of_prefix_append {first second third c : Char} {chars rest : List Char}
    (halts : Text.Halts completesWord rest) (secondCompletes : completesWord second = true)
    (thirdCompletes : completesWord third = true)
    (found : [first, second, third] <+: (c :: chars) ++ rest) :
    [first, second, third] <+: c :: chars := by
  have notHead : forall other, completesWord other = true -> rest.head? ≠ some other := by
    intro other completes isHead
    rw [halts other isHead] at completes
    cases completes
  rcases found with ⟨behind, split⟩
  match chars with
  | [] =>
      have isRest : second :: third :: behind = rest := (List.cons.inj split).2
      subst isRest
      exact absurd rfl (notHead second secondCompletes)
  | [d] =>
      have isRest : third :: behind = rest := (List.cons.inj (List.cons.inj split).2).2
      subst isRest
      exact absurd rfl (notHead third thirdCompletes)
  | d :: e :: chars =>
      simp only [List.cons_append, List.nil_append, List.cons.injEq] at split
      rcases split with ⟨rfl, rfl, rfl, _⟩
      exact ⟨chars, rfl⟩

theorem readWords_append {chars rest : List Char} (wordless : Wordless chars)
    (halts : Text.Halts completesWord rest) :
    readWords (chars ++ rest) = chars ++ readWords rest := by
  induction chars with
  | nil => rfl
  | cons c chars inductionHypothesis =>
      rw [List.cons_append, readWords_cons, inductionHypothesis wordless.tail, List.cons_append]
      · intro found
        exact wordless.1 (prefix_of_prefix_append halts rfl rfl found).isInfix
      · intro found
        exact wordless.2 (prefix_of_prefix_append halts rfl rfl found).isInfix

/-- The sign of an operator in the human form. -/
def signOf (op : Operator) : List Char :=
  op.human.toList

/-- The word of an operator is read as its sign. -/
theorem readWords_wordOf {op : Operator} (known : op.isBinary = true ∨ op = .not)
    (rest : List Char) : readWords (wordOf op ++ rest) = signOf op ++ readWords rest := by
  rcases known with binary | rfl
  · cases op with
    | not | other => cases binary
    | _ => rfl
  · rfl

theorem halts_wordOf {op : Operator} (binary : op.isBinary = true) (rest : List Char) :
    Text.Halts completesWord (wordOf op ++ rest) := by
  intro c first
  cases op with
  | not | other => cases binary
  | _ =>
      cases first
      rfl

theorem wordless_of_isAscii {digits : List Char} (ascii : Numeral.IsAscii digits) :
    Wordless digits := by
  constructor
  · intro found
    exact absurd (ascii 'a' (found.subset (by simp))) (by decide)
  · intro found
    exact absurd (ascii 'n' (found.subset (by simp))) (by decide)

theorem wordless_minus {chars : List Char} (wordless : Wordless chars) :
    Wordless ('-' :: chars) := by
  constructor
  · intro found
    rcases List.infix_cons_iff.mp found with ⟨_, split⟩ | inside
    · cases split
    · exact wordless.1 inside
  · intro found
    rcases List.infix_cons_iff.mp found with ⟨_, split⟩ | inside
    · cases split
    · exact wordless.2 inside

/-- No variable of the assertion has a name that contains a word. -/
def WordlessNames (e : Expr) : Prop :=
  forall name, name ∈ e.occurrences -> Wordless name.toList

instance (e : Expr) : Decidable e.WordlessNames :=
  inferInstanceAs (Decidable (forall name, name ∈ e.occurrences -> _))

theorem wordless_human {e : Expr} (integral : e.Integral) (wordless : e.WordlessNames)
    (atom : e.isAtom = true) : Wordless e.human.toList := by
  cases e with
  | binary | unary => cases atom
  | hole => exact absurd integral.complete (by decide)
  | var name => exact wordless name List.mem_cons_self
  | truth value => cases value <;> decide
  | const value =>
      cases value with
      | double | notANumber =>
          exact absurd (legible_const_iff.mp integral) (by simp [Number.isWhole])
      | whole n =>
          have digits := wordless_of_isAscii (Numeral.isAscii_toDigits n.natAbs)
          simp only [human, Number.text, Number.wholeText, String.toList_ofList]
          split
          · exact wordless_minus digits
          · exact digits

theorem halts_closing (rest : List Char) : Text.Halts completesWord (')' :: rest) := by
  intro c first
  cases first
  rfl

theorem readWords_enclose {chars signs : List Char}
    (reads : forall rest, Text.Halts completesWord rest ->
      readWords (chars ++ rest) = signs ++ readWords rest)
    (bare : Bool) {rest : List Char} (halts : Text.Halts completesWord rest) :
    readWords (enclose bare chars ++ rest) = enclose bare signs ++ readWords rest := by
  cases bare with
  | true => exact reads rest halts
  | false =>
      have opened : readWords ('(' :: (chars ++ ')' :: rest)) =
          '(' :: readWords (chars ++ ')' :: rest) := rfl
      have closed : readWords (')' :: rest) = ')' :: readWords rest := rfl
      have inside := reads (')' :: rest) (halts_closing rest)
      simpa [enclose, opened, closed] using inside

/-- The layout with words is read as the layout with signs. -/
theorem readWords_layout {e : Expr} (integral : e.Integral) (wordless : e.WordlessNames)
    {rest : List Char} (halts : Text.Halts completesWord rest) :
    readWords (e.layout wordOf ++ rest) = e.layout signOf ++ readWords rest := by
  induction e generalizing rest with
  | hole | var | const | truth =>
      rw [layout_atom rfl, layout_atom rfl]
      exact readWords_append (wordless_human integral wordless rfl) halts
  | binary op left right leftHypothesis rightHypothesis =>
      rcases legible_binary_iff.mp integral with ⟨binary, leftIntegral, rightIntegral⟩
      have leftWordless : left.WordlessNames :=
        fun name member => wordless name (List.mem_append_left _ member)
      have rightWordless : right.WordlessNames :=
        fun name member => wordless name (List.mem_append_right _ member)
      apply readWords_enclose _ _ halts
      intro rest halts
      rw [List.append_assoc, List.append_assoc, List.append_assoc, List.append_assoc,
        leftHypothesis leftIntegral leftWordless (halts_wordOf binary _),
        readWords_wordOf (.inl binary), rightHypothesis rightIntegral rightWordless halts]
  | unary op operand inductionHypothesis =>
      rcases legible_unary_iff.mp integral with ⟨rfl, operandIntegral⟩
      apply readWords_enclose _ _ halts
      intro rest halts
      rw [List.append_assoc, List.append_assoc, readWords_wordOf (.inr rfl),
        inductionHypothesis operandIntegral wordless halts]

/-- As long as no name contains a word, assertions with the same normal form have the same
layout with signs. -/
theorem layout_eq_of_normalizedText_eq {a b : Expr} (aIntegral : a.Integral)
    (bIntegral : b.Integral) (aWordless : a.WordlessNames) (bWordless : b.WordlessNames)
    (same : normalizedText a.human = normalizedText b.human) :
    a.layout signOf = b.layout signOf := by
  rw [normalizedText_human aIntegral, normalizedText_human bIntegral] at same
  have sameWords := String.ofList_injective same
  have readA := readWords_layout aIntegral aWordless (Text.halts_nil completesWord)
  have readB := readWords_layout bIntegral bWordless (Text.halts_nil completesWord)
  rw [sameWords, readB] at readA
  simpa using readA.symm

end Expr
end HoareProof
