import HoareProof.Number.Binary64

namespace HoareProof
namespace Binary64

/-!
Arithmetic of doubles.  An operation takes the exact result for its operands and
rounds it once, a half to the even neighbour, so a calculation in several steps
is rounded after each of them.  Operations that have no number as their result
give none: the product of zero and infinity, and the sum of two infinities of
different signs.
-/

def ofWhole (n : Int) : Binary64 :=
  ofRatio (decide (n < 0)) (n.natAbs * unitsPerOne) 1

def times? : Binary64 -> Binary64 -> Option Binary64
  | .finite n₁ u₁ _, .finite n₂ u₂ _ => some (ofRatio (n₁ != n₂) (u₁ * u₂) unitsPerOne)
  | .infinite n₁, y => if y.isZero then none else some (.infinite (n₁ != y.isNegative))
  | x, .infinite n₂ => if x.isZero then none else some (.infinite (x.isNegative != n₂))

def signedUnits (negative : Bool) (units : Nat) : Int :=
  if negative then -(units : Int) else units

/-- The sum of two doubles.  A sum of nothing is negative only if both operands
are. -/
def plus? : Binary64 -> Binary64 -> Option Binary64
  | .finite n₁ u₁ _, .finite n₂ u₂ _ =>
    let sum := signedUnits n₁ u₁ + signedUnits n₂ u₂
    some (ofRatio (if sum = 0 then n₁ && n₂ else decide (sum < 0)) sum.natAbs 1)
  | .infinite n₁, .infinite n₂ => if n₁ = n₂ then some (.infinite n₁) else none
  | .infinite n₁, _ => some (.infinite n₁)
  | _, .infinite n₂ => some (.infinite n₂)

end Binary64
end HoareProof
