/-!
# Binary floating point as exact numbers

A finite double is `± m * 2 ^ q` for natural `m` and integer `q`. A `Ratio` is such a magnitude as
an exact quotient of natural numbers, which is what the decimal printers work on.
-/
namespace SeenStates

/-- The bits of a double that hold the fraction of its significand. -/
abbrev fractionBits : Nat := 52

/-- The bits of a double that hold its exponent. -/
abbrev exponentBits : Nat := 11

/-- What a double is. -/
inductive Double where
  /-- Not a number. -/
  | nan
  /-- An infinity, with its sign. -/
  | infinite (negative : Bool)
  /-- A finite number: the sign, the significand, the exponent of two, and whether the distance
  to the next smaller magnitude is half the distance to the next larger one. -/
  | finite (negative : Bool) (significand : Nat) (exponent : Int) (narrowBelow : Bool)

/-- Take a double apart. -/
def Double.ofFloat (x : Float) : Double :=
  let bits := x.toBits.toNat
  let negative := decide (Nat.pow 2 (exponentBits + fractionBits) ≤ bits)
  let field : Nat := bits / Nat.pow 2 fractionBits % Nat.pow 2 exponentBits
  let fraction : Nat := bits % Nat.pow 2 fractionBits
  if field = Nat.pow 2 exponentBits - 1 then
    if fraction = 0 then .infinite negative else .nan
  else if field = 0 then .finite negative fraction (-1074) false
  else .finite negative (Nat.pow 2 fractionBits + fraction) (Int.ofNat field - 1075)
    (decide (fraction = 0 ∧ 1 < field))

/-- The quotient of two natural numbers, the second not zero. -/
structure Ratio where
  /-- The numerator. -/
  num : Nat
  /-- The denominator. -/
  den : Nat

/-- The quotient `m * 2 ^ q`. -/
def Ratio.scaled (m : Nat) (q : Int) : Ratio := ⟨m * Nat.pow 2 q.toNat, Nat.pow 2 (-q).toNat⟩

/-- The quotient over `10 ^ k`. -/
def Ratio.downTen (r : Ratio) (k : Int) : Ratio :=
  ⟨r.num * Nat.pow 10 (-k).toNat, r.den * Nat.pow 10 k.toNat⟩

/-- The nearest natural number to a quotient, a half going to the even neighbour. -/
def Ratio.round (r : Ratio) : Nat :=
  let c := r.num / r.den
  let twice := 2 * (r.num % r.den)
  if twice < r.den then c
  else if r.den < twice then c + 1
  else if c % 2 = 0 then c else c + 1

/-- How many zeros follow the decimal point of a quotient below one. The search stops at `fuel`. -/
def leadingZeros (num den : Nat) : Nat → Nat
  | 0 => 0
  | fuel + 1 => if den ≤ num * 10 then 0 else 1 + leadingZeros (num * 10) den fuel

/-- The position of the first decimal digit of a quotient: `p` when the quotient is at least
`10 ^ (p - 1)` and below `10 ^ p`. -/
def Ratio.place (r : Ratio) : Int :=
  if r.den ≤ r.num then ((Nat.toDigits 10 (r.num / r.den)).length : Int)
  else -(leadingZeros r.num r.den 400 : Int)

end SeenStates
