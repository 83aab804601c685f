import HoareProof.Expr.Reader
import HoareProof.Proofs.Parsers

namespace HoareProof
namespace Expr
namespace PrefixForm

open Parsing

/-!
The grammar of the prefix form.  It speaks of several terms in a row, because the
arguments of an application are such a row; a term is a row of one.  The parser reads
exactly what the grammar derives, and parentheses mark the end of every term, so it
does not matter what stands behind one.
-/

/-- The terms of one token. -/
inductive Leaf : Token -> Expr -> Prop where
  | number {token : Token} {value : Number} (denotes : Denotes token value) :
      Leaf token (.const value)
  | truth {token : Token} (kind : token.kind = .trueWord) : Leaf token (.truth true)
  | falsehood {token : Token} (kind : token.kind = .falseWord) : Leaf token (.truth false)
  | name {token : Token} (kind : token.kind = .name) : Leaf token (.var token.text)

/-- The tokens that derive terms in a row. -/
inductive Derives : List Token -> List Expr -> Prop where
  | nil : Derives [] []
  | leaf {token : Token} {tokens : List Token} {e : Expr} {more : List Expr}
      (isLeaf : Leaf token e) (behind : Derives tokens more) :
      Derives (token :: tokens) (e :: more)
  | application {opening head closing : Token} {op : Operator} {inner tokens : List Token}
      {e : Expr} {args more : List Expr} (opens : opening.kind = .openParen)
      (isHead : headOperator? head.kind = some op) (innerDerives : Derives inner args)
      (closes : closing.kind = .closeParen) (legal : application? op args = some e)
      (behind : Derives tokens more) :
      Derives (opening :: head :: (inner ++ closing :: tokens)) (e :: more)

theorem Derives.append {first second : List Token} {left right : List Expr}
    (firstDerives : Derives first left) (secondDerives : Derives second right) :
    Derives (first ++ second) (left ++ right) := by
  induction firstDerives with
  | nil => exact secondDerives
  | leaf isLeaf _ inductionHypothesis => exact .leaf isLeaf inductionHypothesis
  | application opens isHead innerDerives closes legal _ _ inductionHypothesis =>
      have joined := Derives.application opens isHead innerDerives closes legal inductionHypothesis
      simpa using joined

theorem Derives.ne_nil {tokens : List Token} {e : Expr} {more : List Expr}
    (derives : Derives tokens (e :: more)) : tokens ≠ [] := by
  cases derives <;> exact List.cons_ne_nil _ _

/-! ## What the parser reads is derived -/

/-- A parser that reads only terms that the grammar derives, and leaves the rest of the
tokens as they are. -/
def Sound (parser : Parser Expr) : Prop :=
  forall tokens e rest, parser tokens = .ok (e, rest) ->
    ∃ used, tokens = used ++ rest ∧ Derives used [e]

/-- The tokens behind a row of arguments: none, or a closing parenthesis first. -/
def Closes (rest : List Token) : Prop :=
  forall token, rest.head? = some token -> token.kind = .closeParen

theorem arguments_sound {parser : Parser Expr} (sound : Sound parser) (bound : Nat) :
    forall (tokens : List Token) (args : List Expr) (rest : List Token), tokens.length ≤ bound ->
      arguments parser bound tokens = .ok (args, rest) ->
        ∃ used, tokens = used ++ rest ∧ Derives used args ∧ Closes rest := by
  induction bound with
  | zero =>
      intro tokens args rest enough read
      cases List.eq_nil_of_length_eq_zero (Nat.le_zero.mp enough)
      cases read
      exact ⟨[], rfl, .nil, nofun⟩
  | succ bound inductionHypothesis =>
      intro tokens args rest enough read
      cases tokens with
      | nil =>
          cases read
          exact ⟨[], rfl, .nil, nofun⟩
      | cons token tokens =>
          simp only [arguments] at read
          split at read
          next closes =>
            cases read
            refine ⟨[], rfl, .nil, ?_⟩
            intro first isFirst
            cases isFirst
            exact closes
          next =>
            split at read
            · cases read
            next e afterFirst readFirst =>
              split at read
              · cases read
              next more afterMore readMore =>
                cases read
                obtain ⟨first, whole, firstDerives⟩ := sound _ _ _ readFirst
                have someToken := List.length_pos_iff.mpr firstDerives.ne_nil
                have lengths := congrArg List.length whole
                rw [List.length_append] at lengths
                obtain ⟨second, rfl, moreDerives, closes⟩ :=
                  inductionHypothesis _ _ _ (by omega) readMore
                refine ⟨first ++ second, ?_, firstDerives.append moreDerives, closes⟩
                rw [whole, List.append_assoc]

theorem applicationParser_sound {parser : Parser Expr} (sound : Sound parser) {opening : Token}
    (opens : opening.kind = .openParen) {tokens rest : List Token} {e : Expr}
    (read : applicationParser parser tokens = .ok (e, rest)) :
    ∃ used, opening :: tokens = used ++ rest ∧ Derives used [e] := by
  cases tokens with
  | nil => cases read
  | cons head tokens =>
      simp only [applicationParser] at read
      split at read
      · cases read
      next op isHead =>
        split at read
        · cases read
        · cases read
        next args closing afterClosing readArguments =>
          obtain ⟨inner, rfl, innerDerives, closes⟩ :=
            arguments_sound sound _ _ _ _ (Nat.le_refl _) readArguments
          split at read
          next value legal =>
            cases read
            refine ⟨opening :: head :: (inner ++ [closing]), by simp, ?_⟩
            exact .application opens isHead innerDerives (closes closing rfl) legal .nil
          · cases read

theorem term_sound (bound : Nat) : Sound (term bound) := by
  induction bound with
  | zero =>
      intro tokens e rest read
      cases read
  | succ bound inductionHypothesis =>
      intro tokens e rest read
      cases tokens with
      | nil => cases read
      | cons token tokens =>
          simp only [term] at read
          split at read
          next kind =>
            obtain ⟨value, reads, result⟩ := bind_eq_ok_iff.mp read
            cases result
            exact ⟨[token], rfl, .leaf (.number (.whole kind reads)) .nil⟩
          next kind =>
            obtain ⟨value, reads, result⟩ := bind_eq_ok_iff.mp read
            cases result
            exact ⟨[token], rfl, .leaf (.number (.decimal kind reads)) .nil⟩
          next kind =>
            cases read
            exact ⟨[token], rfl, .leaf (.truth kind) .nil⟩
          next kind =>
            cases read
            exact ⟨[token], rfl, .leaf (.falsehood kind) .nil⟩
          next kind =>
            cases read
            exact ⟨[token], rfl, .leaf (.name kind) .nil⟩
          next opens => exact applicationParser_sound inductionHypothesis opens read
          · cases read

/-! ## What is derived is read -/

/-- The parser reads a row of arguments up to the parenthesis behind it. -/
def ReadsArguments (tokens : List Token) (args : List Expr) : Prop :=
  forall nesting bound rest, tokens.length ≤ nesting -> tokens.length ≤ bound -> Closes rest ->
    arguments (term nesting) bound (tokens ++ rest) = .ok (args, rest)

theorem Leaf.kind_ne_closeParen {token : Token} {e : Expr} (isLeaf : Leaf token e) :
    token.kind ≠ .closeParen := by
  cases isLeaf with
  | number denotes =>
      cases denotes with
      | whole kind | decimal kind =>
          rw [kind]
          decide
  | truth kind | falsehood kind | name kind =>
      rw [kind]
      decide

theorem Leaf.term {token : Token} {e : Expr} (isLeaf : Leaf token e) (nesting : Nat)
    (rest : List Token) : PrefixForm.term (nesting + 1) (token :: rest) = .ok (e, rest) := by
  cases isLeaf with
  | number denotes =>
      cases denotes with
      | whole kind reads | decimal kind reads =>
          simp [PrefixForm.term, kind, reads, pure, Except.pure]
  | truth kind | falsehood kind | name kind => simp [PrefixForm.term, kind]

theorem ReadsArguments.term {opening head closing : Token} {op : Operator} {inner : List Token}
    {args : List Expr} {e : Expr} (reads : ReadsArguments inner args)
    (opens : opening.kind = .openParen) (isHead : headOperator? head.kind = some op)
    (closes : closing.kind = .closeParen) (legal : application? op args = some e) (nesting : Nat)
    (enough : inner.length ≤ nesting) (rest : List Token) :
    PrefixForm.term (nesting + 1) (opening :: head :: (inner ++ closing :: rest)) =
      .ok (e, rest) := by
  have closesAll : Closes (closing :: rest) := by
    intro first isFirst
    cases isFirst
    exact closes
  have readArguments := reads nesting (inner ++ closing :: rest).length (closing :: rest) enough
    (by simp) closesAll
  simp only [PrefixForm.term, opens, applicationParser, isHead, readArguments, legal]

/-- A row of arguments goes on behind its first term. -/
theorem ReadsArguments.cons {token : Token} {tokens : List Token} {e : Expr}
    {more : List Expr} (first : List Token) (notClosing : token.kind ≠ .closeParen)
    (readsFirst : forall nesting rest, first.length ≤ nesting ->
      PrefixForm.term (nesting + 1) (token :: (first ++ rest)) = .ok (e, rest))
    (reads : ReadsArguments tokens more) :
    ReadsArguments (token :: (first ++ tokens)) (e :: more) := by
  intro nesting bound rest nested enough closes
  simp only [List.length_cons, List.length_append] at nested enough
  cases nesting with
  | zero => omega
  | succ nesting =>
      cases bound with
      | zero => omega
      | succ bound =>
          have readFirst := readsFirst nesting (tokens ++ rest) (by omega)
          have readMore := reads (nesting + 1) bound rest (by omega) (by omega) closes
          simp only [List.cons_append, List.append_assoc, arguments, if_neg notClosing, readFirst,
            readMore]

theorem Derives.readsArguments {tokens : List Token} {args : List Expr}
    (derives : Derives tokens args) : ReadsArguments tokens args := by
  induction derives with
  | nil =>
      intro nesting bound rest _ _ closes
      cases bound with
      | zero => rfl
      | succ bound =>
          cases rest with
          | nil => rfl
          | cons token rest => simp [arguments, closes token rfl]
  | leaf isLeaf _ inductionHypothesis =>
      exact inductionHypothesis.cons [] isLeaf.kind_ne_closeParen
        fun nesting rest _ => isLeaf.term nesting rest
  | @application opening head closing op inner tokens e args more opens isHead _ closes legal _
      innerReads inductionHypothesis =>
      have notClosing : opening.kind ≠ .closeParen := by
        rw [opens]
        decide
      have readsFirst : forall nesting rest, (head :: (inner ++ [closing])).length ≤ nesting ->
          PrefixForm.term (nesting + 1) (opening :: (head :: (inner ++ [closing]) ++ rest)) =
            .ok (e, rest) := by
        intro nesting rest enough
        simp only [List.length_cons, List.length_append, List.length_nil] at enough
        have readTerm := innerReads.term opens isHead closes legal nesting (by omega) rest
        simpa using readTerm
      simpa using inductionHypothesis.cons _ notClosing readsFirst

end PrefixForm

open PrefixForm

/-- What the parser reads, the grammar derives from the tokens read. -/
theorem prefixParser_sound : PrefixForm.Sound prefixParser := by
  intro tokens e rest read
  exact term_sound tokens.length tokens e rest read

/-- What the grammar derives as one term, the parser reads, whatever stands behind it. -/
theorem prefixParser_append {tokens : List Token} {e : Expr}
    (derives : PrefixForm.Derives tokens [e]) (rest : List Token) :
    prefixParser (tokens ++ rest) = .ok (e, rest) := by
  cases derives with
  | leaf isLeaf behind =>
      cases behind
      exact isLeaf.term rest.length rest
  | application opens isHead innerDerives closes legal behind =>
      cases behind
      rw [List.cons_append, List.cons_append, List.append_assoc, List.singleton_append]
      apply innerDerives.readsArguments.term opens isHead closes legal
      simp
      omega

theorem prefixParser_complete {tokens : List Token} {e : Expr}
    (derives : PrefixForm.Derives tokens [e]) : prefixParser tokens = .ok (e, []) := by
  have read := prefixParser_append derives []
  rwa [List.append_nil] at read

end Expr
end HoareProof
