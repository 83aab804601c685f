import HoareProof.Number.Binary64

namespace HoareProof

/-!
JSON values.  Whole numbers and doubles are different values, because a reader
of the document can tell them apart; the document format extends JSON by the
two infinities and by a value that is not a number.  An object keeps its fields
in the order in which they were first written.
-/

inductive Json where
  | null
  | bool (value : Bool)
  | whole (value : Int)
  | double (value : Binary64)
  | notANumber
  | string (value : String)
  | array (items : List Json)
  | object (fields : List (String × Json))

namespace Json

/-- Gives a field a value; a field that is there already keeps its place. -/
def setField (name : String) (value : Json) :
    List (String × Json) -> List (String × Json)
  | [] => [(name, value)]
  | field :: rest =>
    if field.1 = name then (name, value) :: rest else field :: setField name value rest

def field? (name : String) : Json -> Option Json
  | .object fields => fields.lookup name
  | _ => none

end Json
end HoareProof
