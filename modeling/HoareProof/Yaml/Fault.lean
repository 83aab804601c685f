import HoareProof.Data.Moment
import HoareProof.Number.Numeral

namespace HoareProof
namespace Yaml

/-!
Why a document has no value.  Almost always it is malformed.  The other faults
belong to scalars whose kind is clear but whose text does not fit it: a date
that is no day of the calendar, a number that is too long, and what a tag
promises but the text does not keep.
-/

inductive Fault where
  | malformed
  | numeral (error : NumeralError)
  | digits (base : Nat) (text : String)
  | emptyNumber
  | placeTooLarge
  | truth (word : String)
  | date (fault : DateFault)
  | noDate
  | dateFromMap
  | character (code : Nat)
deriving DecidableEq, Repr

def Fault.message : Fault -> String
  | .malformed => "malformed document"
  | .numeral error => error.message
  | .digits base text =>
    "invalid literal for int() with base " ++ toString base ++ ": " ++
      String.ofList ((Text.quoted text).toList.take 200)
  | .emptyNumber => "string index out of range"
  | .placeTooLarge => "int too large to convert to float"
  | .truth word => Text.quoted word
  | .date fault => fault.message
  | .noDate => "'NoneType' object has no attribute 'groupdict'"
  | .dateFromMap => "expected string or bytes-like object, got 'list'"
  | .character code =>
    if code < Nat.pow 2 31 then "chr() arg not in range(0x110000)"
    else "Python int too large to convert to C int"

end Yaml
end HoareProof
