import HoareProof.Text.Blank
import HoareProof.Expr.Printer

namespace HoareProof
namespace Expr

/-!
A coarse normal form of written assertions, used only when boundaries are to be
compared leniently.  Blanks disappear, the symbols for negation and conjunction
become words, and one layer of parentheses around a group without parentheses
is dropped.  Assertions with the same normal form need not mean the same.
-/

def spellNegation (c : Char) : List Char :=
  if c = '¬' || c = '!' then ['n', 'o', 't'] else [c]

def spellConjunction : List Char -> List Char
  | [] => []
  | '∧' :: rest => 'a' :: 'n' :: 'd' :: spellConjunction rest
  | '&' :: '&' :: rest => 'a' :: 'n' :: 'd' :: spellConjunction rest
  | c :: rest => c :: spellConjunction rest

def isParen (c : Char) : Bool :=
  c = '(' || c = ')'

/-- Drops the parentheses around each group that holds at least one character
and no parenthesis.  `inside` holds the characters since the last opening
parenthesis, in reverse, while such a group may still be closing. -/
def dropGroups (inside : Option (List Char)) : List Char -> List Char
  | [] =>
    match inside with
    | some group => '(' :: group.reverse
    | none => []
  | c :: rest =>
    match inside with
    | none =>
      if c = '(' then dropGroups (some []) rest
      else c :: dropGroups none rest
    | some group =>
      if c = '(' then '(' :: group.reverse ++ dropGroups (some []) rest
      else if c = ')' then
        if group.isEmpty then '(' :: ')' :: dropGroups none rest
        else group.reverse ++ dropGroups none rest
      else dropGroups (some (c :: group)) rest

/-- The normal form of a written assertion. -/
def normalizedText (text : String) : String :=
  let spelled := (Text.withoutBlanks text.toList).flatMap spellNegation
  String.ofList (dropGroups none (spellConjunction spelled))

end Expr
end HoareProof
