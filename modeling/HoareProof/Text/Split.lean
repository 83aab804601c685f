namespace HoareProof
namespace Text

/-!
Cutting a text at a mark and joining parts with one.
-/

/-- The parts of a text between the occurrences of a mark.  There is one part
more than there are marks. -/
def splitAt (mark : Char) : List Char -> List (List Char)
  | [] => [[]]
  | c :: rest =>
    if c = mark then [] :: splitAt mark rest
    else
      match splitAt mark rest with
      | part :: parts => (c :: part) :: parts
      | [] => [[c]]

def joinWith (mark : String) (parts : List String) : String :=
  mark.intercalate parts

end Text
end HoareProof
