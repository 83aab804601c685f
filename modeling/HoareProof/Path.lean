import HoareProof.Number.Basic
import HoareProof.Number.Numeral
import HoareProof.Text.Split

namespace HoareProof

/-!
Paths of nodes: the indices of the premises to follow from the conclusion of a
derivation.  Any whole number may stand in a path, but a negative one leads
nowhere.
-/

/-- The way from the root to a node. -/
abbrev Path := List Int

namespace Path

/-- A path as people write it: indices with dots between them, and a single dot
for the root. -/
def text (path : Path) : String :=
  if path.isEmpty then "." else Text.joinWith "." (path.map Number.wholeText)

/-- A path as a bracketed list; one index alone keeps its comma. -/
def listText (path : Path) : String :=
  match path with
  | [index] => "(" ++ Number.wholeText index ++ ",)"
  | indices => "(" ++ Text.joinWith ", " (indices.map Number.wholeText) ++ ")"

/-- Reads a path.  Without anything written it is the root. -/
def ofText? (text : String) : Option Path :=
  let trimmed := Text.trim text
  if trimmed = "" || trimmed = "." then some []
  else (Text.splitAt '.' trimmed.toList).mapM fun part => Numeral.integer? (String.ofList part)

end Path
end HoareProof
