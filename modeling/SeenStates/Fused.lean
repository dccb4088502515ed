import SeenStates.Decimal.Binary

/-!
# Sums rounded once

The sum of a product and a third double, rounded when all of it is known. Product and sum are exact
dyadic numbers; the one rounding goes to the nearest double, and from half way between two to the
even one.
-/
namespace SeenStates

/-- A finite double as a dyadic number. -/
def Double.toDyadic? : Double → Option Dyadic
  | .finite negative m q _ => some (.ofIntWithPrec (if negative then -(m : Int) else m) (-q))
  | _ => none

/-- The bits of the significand of a double. -/
abbrev significandBits : Nat := fractionBits + 1

/-- The double nearest to a dyadic number that is neither too large nor too small for a double of
full precision. -/
def nearestDouble : Dyadic → Float
  | .zero => 0
  | .ofOdd n k _ =>
    let spare := Nat.log2 n.natAbs + 1 - significandBits
    let m := (Ratio.mk n.natAbs (Nat.pow 2 spare)).round
    let x := Float.scaleB (Float.ofNat m) ((spare : Int) - k)
    if n < 0 then Float.neg x else x

/-- `a * b + c`, rounded once. -/
def fusedSum (a b c : Float) : Float :=
  match (Double.ofFloat a).toDyadic?, (Double.ofFloat b).toDyadic?,
    (Double.ofFloat c).toDyadic? with
  | some x, some y, some z => nearestDouble (x * y + z)
  | _, _, _ => a * b + c

end SeenStates
