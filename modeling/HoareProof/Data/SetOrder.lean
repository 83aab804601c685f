import HoareProof.Data.Basic

namespace HoareProof
namespace Data

/-!
The order in which a set shows its members.  Numbers stand in a table of slots:
each has a slot by its residue, and goes on to another one if that is taken.  A
set shows them slot by slot, so small whole numbers come in ascending order.
Members of other kinds have no slots of their own; a set that has one shows its
members in the order in which they came.
-/

/-- The prime by which numbers have residues. -/
def slotModulus : Nat := Nat.pow 2 61 - 1

/-- A residue with the sign of its number; minus one gives way to minus two. -/
def signedResidue (negative : Bool) (residue : Nat) : Int :=
  let signed : Int := if negative then -(residue : Int) else residue
  if signed = -1 then -2 else signed

/-- The residue of a number.  The residue of two to the power 61 is one, so a
unit of a double, two to the power -1074, has the residue of two to the power
24.  What is not a number goes by its label. -/
def residue : Number -> Int
  | .whole n => signedResidue (n < 0) (n.natAbs % slotModulus)
  | .double (.finite negative units _) =>
    signedResidue negative (units * Nat.pow 2 24 % slotModulus)
  | .double (.infinite negative) => signedResidue negative 314159
  | .notANumber _ label => label

/-- The number of slots for some members: eight for up to four, and else the
first power of two above twice their number. -/
def slotCount (members : Nat) : Nat :=
  if members ≤ 4 then 8 else Nat.pow 2 ((2 * members).log2 + 1)

/-- The slots that are tried together with a slot. -/
def neighbours (slots slot : Nat) : List Nat :=
  if slot + 9 < slots then (List.range 10).map (slot + ·) else [slot]

/-- The first free slot from a slot on.  The residue tells where to go on when
neither the slot nor its neighbours are free. -/
def freeSlot (slots : Nat) (taken : List Nat) : Nat -> Nat -> Nat -> Nat
  | 0, slot, _ => slot
  | bound + 1, slot, residue =>
    match (neighbours slots slot).find? fun next => !taken.contains next with
    | some free => free
    | none =>
      let rest := residue / 32
      freeSlot slots taken bound ((5 * slot + 1 + rest) % slots) rest

/-- Members with their slots, after the slots of others. -/
def withSlots (slots : Nat) (taken : List Nat) : List (Number × Data) -> List (Nat × Data)
  | [] => []
  | (number, member) :: rest =>
    let residue := (residue number % (2 ^ 64 : Int)).toNat
    let slot := freeSlot slots taken (slots + 16) (residue % slots) residue
    (slot, member) :: withSlots slots (slot :: taken) rest

/-- The members of a set in the order in which it shows them. -/
def setOrder (members : List Data) : List Data :=
  match members.mapM fun member => member.number?.map fun number => (number, member) with
  | some numbers =>
    ((withSlots (slotCount members.length) [] numbers).mergeSort
      fun a b => a.1 ≤ b.1).map (·.2)
  | none => members

end Data
end HoareProof
