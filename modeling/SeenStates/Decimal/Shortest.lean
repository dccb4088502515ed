import SeenStates.Decimal.Binary

/-!
# Shortest decimals

The fewest decimal digits that read back as a given double. The reals that round to
`m * 2 ^ q` form an interval around it, whose ends belong to it exactly when `m` is even. For one
digit, two digits and so on, the two neighbours of the number on the grid of that many digits are
tried; the first grid with a neighbour in the interval wins, and of two neighbours the nearer. Which
of two as near is taken is for the format to say.
-/
namespace SeenStates

/-- A decimal: digits, most significant first and without trailing zeros, and the position of the
decimal point after the front of them. -/
structure Decimal where
  /-- The digits. -/
  digits : List Char
  /-- The number is `0.digits * 10 ^ point`. -/
  point : Int

/-- Which of two decimals is taken when both are as near. -/
inductive Tie where
  /-- The one whose last digit is even. -/
  | toEven
  /-- The one of the greater magnitude. -/
  | upward
deriving DecidableEq

/-- Whether the lower of two neighbours is taken when both are as near, from its value on the
grid. -/
def Tie.takesLower : Tie → Nat → Bool
  | toEven, c => decide (c % 2 = 0)
  | upward, _ => false

/-- The reals that round to a double, over four times its unit: from `low` to `high`, around
`mid`. -/
structure Rounding where
  /-- The number itself. -/
  mid : Ratio
  /-- The lower end. -/
  low : Ratio
  /-- The upper end. -/
  high : Ratio
  /-- Whether the ends belong. -/
  closed : Bool

/-- The interval of a significand and an exponent. -/
def Rounding.of (m : Nat) (q : Int) (narrowBelow : Bool) : Rounding :=
  ⟨.scaled (4 * m) (q - 2), .scaled (4 * m - if narrowBelow then 1 else 2) (q - 2),
    .scaled (4 * m + 2) (q - 2), decide (m % 2 = 0)⟩

/-- Whether the grid point `c * 10 ^ s` lies in the interval. -/
def Rounding.holds (i : Rounding) (s : Int) (c : Nat) : Bool :=
  let low := i.low.downTen s
  let high := i.high.downTen s
  if i.closed then decide (low.num ≤ c * low.den ∧ c * high.den ≤ high.num)
  else decide (low.num < c * low.den ∧ c * high.den < high.num)

/-- The neighbour on the grid of `10 ^ s` that lies in the interval, and of two the nearer. -/
def Rounding.neighbour? (i : Rounding) (tie : Tie) (s : Int) : Option Nat :=
  let mid := i.mid.downTen s
  let c := mid.num / mid.den
  let below := i.holds s c
  let above := i.holds s (c + 1)
  if below && above then
    let twice := 2 * (mid.num % mid.den)
    if twice < mid.den then some c
    else if mid.den < twice then some (c + 1)
    else some (if tie.takesLower c then c else c + 1)
  else if below then some c
  else if above then some (c + 1)
  else none

/-- A grid point as a decimal. -/
def Decimal.ofGrid (c : Nat) (s : Int) : Decimal :=
  let ds := Nat.toDigits 10 c
  ⟨(ds.reverse.dropWhile (· == '0')).reverse, (ds.length : Int) + s⟩

/-- The shortest decimal that reads back as `m * 2 ^ q`, of at most seventeen digits. -/
def Decimal.shortest (tie : Tie) (m : Nat) (q : Int) (narrowBelow : Bool) : Decimal :=
  let i := Rounding.of m q narrowBelow
  let place := i.mid.place
  let found := (List.range 17).findSome? fun k =>
    let s := place - ((k + 1 : Nat) : Int)
    (i.neighbour? tie s).map (Decimal.ofGrid · s)
  if m = 0 then ⟨['0'], 1⟩ else found.getD ⟨['0'], 1⟩

/-- A run of zeros, empty when the count is not positive. -/
def zeros (n : Int) : List Char := List.replicate n.toNat '0'

/-- A decimal written out in full: the digits before the decimal point, at least one, and those
after it. -/
def Decimal.written (d : Decimal) : List Char × List Char :=
  if d.point ≤ 0 then (['0'], zeros (-d.point) ++ d.digits)
  else
    let n := d.point.toNat
    (d.digits.take n ++ zeros (d.point - (d.digits.length : Int)), d.digits.drop n)

/-- The sign in front of a number. -/
def minus (negative : Bool) : List Char := if negative then ['-'] else []

/-- A double written out in full, without a decimal point when it is integral. Of two decimals as
near it takes the one of the greater magnitude. -/
def plainText (x : Float) : String :=
  match Double.ofFloat x with
  | .nan => "NaN"
  | .infinite negative => String.ofList (minus negative ++ "inf".toList)
  | .finite negative m q narrow =>
    let (whole, fraction) := (Decimal.shortest .upward m q narrow).written
    let point := if m = 0 || fraction = [] then [] else '.' :: fraction
    String.ofList (minus negative ++ whole ++ point)

end SeenStates
