import HoareProof.Proofs.SolverForm
import HoareProof.Text.Split

namespace HoareProof

/-!
A reader of solver scripts.  It knows the commands and the formulas of a block, quantified or not,
and nothing of the side conditions that a script is written for, so that a variable left unbound
or a formula put in the wrong place is read as what it says.  The formulas of side conditions are
read back from the text that is sent.
-/

/-! ## Reading a script -/

namespace Script

open Parsing

/-- A formula as a script asserts it, with a quantifier in front or without one. -/
inductive Formula where
  | plain (body : Expr)
  | forAll (binders : List (String × String)) (body : Expr)
deriving DecidableEq

/-- The bound variables with their sorts. -/
def Formula.binders : Formula -> List (String × String)
  | .plain _ => []
  | .forAll binders _ => binders

/-- The formula behind the quantifier. -/
def Formula.body : Formula -> Expr
  | .plain body => body
  | .forAll _ body => body

/-- A comment and the formula that is asserted below it. -/
structure Block where
  label : String
  formula : Formula
deriving DecidableEq

/-- Whether a token is a certain word. -/
def isWord (word : String) (token : Token) : Bool :=
  token.kind == .name && token.text == word

/-- The bound variables at the head of some tokens, each in parentheses with its sort. -/
def readBinders : List Token -> List (String × String) × List Token
  | opening :: name :: sort :: closing :: rest =>
      if opening.kind = .openParen ∧ name.kind = .name ∧ sort.kind = .name ∧
          closing.kind = .closeParen then
        ((name.text, sort.text) :: (readBinders rest).1, (readBinders rest).2)
      else ([], opening :: name :: sort :: closing :: rest)
  | tokens => ([], tokens)

/-- Reads a formula without a quantifier. -/
def plainParser : Parser Formula := fun tokens => do
  let (body, rest) ← Expr.prefixParser tokens
  return (.plain body, rest)

/-- Reads what stands behind the quantifier and the parenthesis that opens its variables. -/
def quantifiedParser : Parser Formula := fun tokens => do
  let rest ← expect .closeParen (readBinders tokens).2
  let (body, rest) ← Expr.prefixParser rest
  let rest ← expect .closeParen rest
  return (.forAll (readBinders tokens).1 body, rest)

/-- Reads a formula. -/
def formulaParser : Parser Formula
  | opening :: head :: binding :: rest =>
      if opening.kind = .openParen ∧ isWord "forall" head = true ∧ binding.kind = .openParen then
        quantifiedParser rest
      else plainParser (opening :: head :: binding :: rest)
  | tokens => plainParser tokens

/-- Reads the command that asserts a formula. -/
def assertParser : Parser Formula
  | opening :: head :: rest =>
      if opening.kind = .openParen ∧ isWord "assert" head = true then do
        let (formula, rest) ← formulaParser rest
        let rest ← expect .closeParen rest
        return (formula, rest)
      else failAt .noTerm (opening :: head :: rest)
  | tokens => failAt .noTerm tokens

/-- Reads a block: a comment that fills its first line, and then one assertion and nothing
else. -/
def Block.ofText? (text : String) : Option Block :=
  match text.toList with
  | ';' :: ' ' :: chars =>
      let command := String.ofList ((chars.dropWhile (· != '\n')).drop 1)
      match readAll? assertParser command with
      | .ok (some formula) => some ⟨String.ofList (chars.takeWhile (· != '\n')), formula⟩
      | _ => none
  | _ => none

/-! ## The formulas of side conditions are read back -/

/-- A parser reads a value from tokens in front of a closing parenthesis. -/
def Reads {Value : Type} (parser : Parser Value) (value : Value) (tokens : List Token) : Prop :=
  forall closing rest, closing.kind = .closeParen ->
    parser (tokens ++ closing :: rest) = .ok (value, closing :: rest)

/-- The tokens of variables that are bound to whole numbers. -/
inductive Binds : List String -> List Token -> Prop where
  | nil : Binds [] []
  | cons {name : String} {names : List String} {opening named sort closing : Token}
      {rest : List Token} (opens : opening.kind = .openParen) (isName : named.kind = .name)
      (isText : named.text = name) (isSort : sort.kind = .name) (isInt : sort.text = "Int")
      (closes : closing.kind = .closeParen) (behind : Binds names rest) :
      Binds (name :: names) (opening :: named :: sort :: closing :: rest)

theorem readBinders_of_closing {closing : Token} (closes : closing.kind = .closeParen)
    (rest : List Token) : readBinders (closing :: rest) = ([], closing :: rest) := by
  have notOpening : closing.kind ≠ .openParen := by
    rw [closes]
    decide
  unfold readBinders
  split
  next same =>
    cases same
    rw [if_neg fun reads => notOpening reads.1]
  next => rfl

theorem readBinders_of_binds {names : List String} {tokens : List Token}
    (binds : Binds names tokens) {closing : Token} (closes : closing.kind = .closeParen)
    (rest : List Token) :
    readBinders (tokens ++ closing :: rest) =
      (names.map fun name => (name, "Int"), closing :: rest) := by
  induction binds with
  | nil => exact readBinders_of_closing closes rest
  | cons opens isName isText isSort isInt closesBinder _ inductionHypothesis =>
      rw [List.cons_append, List.cons_append, List.cons_append, List.cons_append, readBinders,
        if_pos ⟨opens, isName, isSort, closesBinder⟩, inductionHypothesis, isText, isInt]
      rfl

open Expr.PrefixForm in
/-- A term is no quantified formula: an application has an operator at its head. -/
theorem reads_plain {tokens : List Token} {e : Expr} (derives : Derives tokens [e]) :
    Reads formulaParser (.plain e) tokens := by
  intro closing rest closes
  have isPlain : plainParser (tokens ++ closing :: rest) = .ok (.plain e, closing :: rest) := by
    rw [plainParser, Expr.prefixParser_append derives]
    rfl
  have headFails : forall opening head binding behind,
      tokens ++ closing :: rest = opening :: head :: binding :: behind ->
        ¬ (opening.kind = .openParen ∧ isWord "forall" head = true) := by
    rintro opening head binding behind shape ⟨opens, isForall⟩
    cases derives with
    | leaf isLeaf behindLeaf =>
        cases behindLeaf
        cases shape
        cases isLeaf with
        | number denotes => cases denotes <;> simp_all
        | truth kind | falsehood kind | name kind => simp_all
    | application _ isHead _ _ _ behindApplication =>
        cases behindApplication
        rcases List.cons.inj shape with ⟨_, sameRest⟩
        rcases List.cons.inj sameRest with ⟨rfl, _⟩
        rw [isWord, Bool.and_eq_true, beq_iff_eq] at isForall
        rw [isForall.1] at isHead
        cases isHead
  unfold formulaParser
  split
  next opening head binding behind shape =>
    rw [if_neg fun quantified => headFails _ _ _ _ shape ⟨quantified.1, quantified.2.1⟩, ← shape]
    exact isPlain
  next => exact isPlain

/-- What a script asserts about variables: the formula alone if there are none, else the
formula for all their whole values. -/
def closure (names : List String) (body : Expr) : Formula :=
  if names.isEmpty then .plain body else .forAll (names.map fun name => (name, "Int")) body

theorem reads_forAll {opening head binding closingBinders closing : Token}
    {names : List String} {binders tokens : List Token} {e : Expr}
    (opens : opening.kind = .openParen) (isForall : isWord "forall" head = true)
    (opensBinders : binding.kind = .openParen) (binds : Binds names binders)
    (closesBinders : closingBinders.kind = .closeParen)
    (derives : Expr.PrefixForm.Derives tokens [e]) (closes : closing.kind = .closeParen) :
    Reads formulaParser (.forAll (names.map fun name => (name, "Int")) e)
      (opening :: head :: binding ::
        (binders ++ closingBinders :: (tokens ++ [closing]))) := by
  intro last rest _
  have readNames := readBinders_of_binds binds closesBinders (tokens ++ closing :: last :: rest)
  have readBody := Expr.prefixParser_append derives (closing :: last :: rest)
  simp only [List.cons_append, List.append_assoc, List.nil_append]
  rw [formulaParser, if_pos ⟨opens, isForall, opensBinders⟩, quantifiedParser, readNames]
  simp only [expect, closesBinders, if_true, ok_bind, readBody, closes]
  rfl

open Token

theorem isWord_of_single {word : String} {token : Token} (kind : token.kind = .name)
    (isText : token.text = String.ofList word.toList) : isWord word token = true := by
  rw [String.ofList_toList] at isText
  simp [isWord, kind, isText]

/-- The text of a bound variable. -/
def binderText (name : String) : String := "(" ++ name ++ " Int)"

theorem spells_binder {name : String} (named : isName name = true) (rest : List Char) :
    Spells (binderText name).toList (Binds [name]) rest := by
  have chars : (binderText name).toList =
      '(' :: ((name.toList ++ ' ' :: "Int".toList) ++ [')']) := by
    simp [binderText]
  have sort : Spells "Int".toList (Single .name "Int".toList) (')' :: rest) :=
    spells_name rfl (bounded_cons rfl rest)
  rw [chars]
  apply (((spells_name named (bounded_cons rfl _)).spaced sort).grouped).mono
  rintro _ ⟨opening, _, closing, rfl, opens, closes, _, _, rfl, ⟨named, rfl, kind, isText⟩,
    sort, rfl, sortKind, isInt⟩
  rw [String.ofList_toList] at isText isInt
  exact .cons opens kind isText sortKind isInt closes .nil

theorem Binds.append {first second : List String} {front back : List Token}
    (bindsFirst : Binds first front) (bindsSecond : Binds second back) :
    Binds (first ++ second) (front ++ back) := by
  induction bindsFirst with
  | nil => exact bindsSecond
  | cons opens isName isText isSort isInt closes _ inductionHypothesis =>
      exact .cons opens isName isText isSort isInt closes inductionHypothesis

theorem spells_binders {names : List String} (nonempty : names ≠ [])
    (named : forall name, name ∈ names -> isName name = true) (rest : List Char) :
    Spells (Text.joinWith " " (names.map binderText)).toList (Binds names) rest := by
  induction names with
  | nil => exact absurd rfl nonempty
  | cons name more inductionHypothesis =>
      have first := named name List.mem_cons_self
      cases more with
      | nil => exact spells_binder first rest
      | cons second more =>
          have chars : (Text.joinWith " " ((name :: second :: more).map binderText)).toList =
              (binderText name).toList ++
                ' ' :: (Text.joinWith " " ((second :: more).map binderText)).toList := by
            simp [Text.joinWith, String.intercalate_cons_cons]
          have others := inductionHypothesis (List.cons_ne_nil _ _)
            fun other member => named other (List.mem_cons_of_mem _ member)
          rw [chars]
          apply ((spells_binder first _).spaced others).mono
          rintro _ ⟨_, _, rfl, bindsFirst, bindsOthers⟩
          exact bindsFirst.append bindsOthers

/-- The text of a formula about variables, from the text of its body. -/
def closureText (names : List String) (body : String) : String :=
  if names.isEmpty then body
  else "(forall (" ++ Text.joinWith " " (names.map binderText) ++ ") " ++ body ++ ")"

theorem spells_closure {names : List String} {e : Expr} {body : String} {rest : List Char}
    (named : forall name, name ∈ names -> isName name = true)
    (spells : forall rest, Bounded rest ->
      Spells body.toList (Expr.PrefixForm.Derives · [e]) rest)
    (bounded : Bounded rest) :
    Spells (closureText names body).toList (Reads formulaParser (closure names e)) rest := by
  by_cases ground : names = []
  · subst ground
    exact (spells rest bounded).mono fun _ => reads_plain
  · have notEmpty : names.isEmpty = false := by simpa using ground
    have chars : (closureText names body).toList =
        '(' :: (("forall".toList ++ ' ' ::
          ('(' :: ((Text.joinWith " " (names.map binderText)).toList ++ [')']) ++
            ' ' :: body.toList)) ++ [')']) := by
      simp [closureText, notEmpty]
    have isClosure : closure names e =
        .forAll (names.map fun name => (name, "Int")) e := by
      simp [closure, notEmpty]
    have word : forall behind, Spells "forall".toList (Single .name "forall".toList)
        (' ' :: behind) := fun behind => spells_name rfl (bounded_cons rfl behind)
    have binders := (spells_binders ground named (')' :: ' ' :: (body.toList ++ ')' :: rest))).grouped
    rw [chars, isClosure]
    apply (((word _).spaced (binders.spaced (spells _ (bounded_cons rfl _)))).grouped).mono
    rintro _ ⟨opening, _, closing, rfl, opens, closes, _, _, rfl,
      ⟨head, rfl, headKind, headText⟩, _, _, rfl,
      ⟨binding, binders, closingBinders, rfl, opensBinders, closesBinders, binds⟩, derives⟩
    have reads := reads_forAll opens (isWord_of_single headKind headText) opensBinders binds
      closesBinders derives closes
    simpa using reads

theorem spells_assert {text : String} {formula : Formula}
    (spells : Spells text.toList (Reads formulaParser formula) [')']) :
    Spells ("(assert " ++ text ++ ")").toList
      (fun tokens => assertParser tokens = .ok (formula, [])) [] := by
  have chars : ("(assert " ++ text ++ ")").toList =
      '(' :: (("assert".toList ++ ' ' :: text.toList) ++ [')']) := by
    simp
  have word : forall behind, Spells "assert".toList (Single .name "assert".toList)
      (' ' :: behind) := fun behind => spells_name rfl (bounded_cons rfl behind)
  rw [chars]
  apply (((word _).spaced spells).grouped).mono
  rintro _ ⟨opening, _, closing, rfl, opens, closes, _, _, rfl, ⟨head, rfl, headKind, headText⟩,
    reads⟩
  have isAssert := isWord_of_single headKind headText
  rw [List.append_assoc, List.singleton_append, assertParser, if_pos ⟨opens, isAssert⟩,
    reads closing [] closes]
  simp only [expect, closes, if_true, ok_bind]
  rfl

theorem ofText?_block {label text : String} {formula : Formula}
    (oneLine : forall c, c ∈ label.toList -> (c != '\n') = true)
    (spells : Spells text.toList (Reads formulaParser formula) [')']) :
    Block.ofText? ("; " ++ label ++ "\n" ++ ("(assert " ++ text ++ ")")) =
      some ⟨label, formula⟩ := by
  have chars : ("; " ++ label ++ "\n" ++ ("(assert " ++ text ++ ")")).toList =
      ';' :: ' ' :: (label.toList ++ '\n' :: ("(assert " ++ text ++ ")").toList) := by
    simp
  have halts : Text.Halts (· != '\n') ('\n' :: ("(assert " ++ text ++ ")").toList) := by
    intro c first
    cases first
    rfl
  have command : readAll? assertParser ("(assert " ++ text ++ ")") = .ok (some formula) :=
    readAll?_eq_some_iff.mpr (spells_assert spells).ofText
  simp only [Block.ofText?, chars, Text.takeWhile_append_of_halts oneLine halts,
    Text.dropWhile_append_of_halts oneLine halts, List.drop_one, List.tail_cons,
    String.ofList_toList, command]

end Script

end HoareProof
