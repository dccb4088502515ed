import SeenStates.Decimal.Shortest

/-!
# Numbers in JSON

A number literal is kept as it is spelled, because what it means depends on what is read from it:
a natural number has neither sign, fraction nor exponent, while a double is read from any literal
that does not overflow. Literals are checked by `ofChars?` and spelled by `chars`.
-/
namespace SeenStates.Json

/-- The sign of an exponent as it is spelled. -/
inductive ExponentSign where
  /-- No sign. -/
  | none
  /-- A plus. -/
  | plus
  /-- A minus. -/
  | minus
deriving DecidableEq

/-- A number literal. -/
structure Number where
  /-- Whether a minus stands in front. -/
  negative : Bool
  /-- The digits before the decimal point. -/
  whole : List Char
  /-- The digits after the decimal point, if there is one. -/
  fraction : Option (List Char)
  /-- The exponent, if there is one. -/
  exponent : Option (ExponentSign × List Char)
deriving DecidableEq

namespace Number

/-- The value of a digit. -/
def digitValue (c : Char) : Nat := c.toNat - '0'.toNat

/-- The literal of a natural number. -/
def ofNat (n : Nat) : Number := ⟨false, Nat.toDigits 10 n, .none, .none⟩

/-- The spelling of an exponent's sign. -/
def signChars : ExponentSign → List Char
  | .none => []
  | .plus => ['+']
  | .minus => ['-']

/-- The spelling of a literal. -/
def chars (n : Number) : List Char :=
  (if n.negative then ['-'] else []) ++ n.whole ++
    (match n.fraction with
      | .none => []
      | some ds => '.' :: ds) ++
    (match n.exponent with
      | .none => []
      | some (sign, ds) => 'e' :: (signChars sign ++ ds))

/-- A run of digits at the front, and what follows it. -/
def takeDigits (cs : List Char) : List Char × List Char :=
  (cs.takeWhile Char.isDigit, cs.dropWhile Char.isDigit)

/-- The exponent that fills the rest of a literal, if any. -/
def exponent? : List Char → Option (Option (ExponentSign × List Char))
  | [] => some .none
  | c :: rest =>
    if c = 'e' || c = 'E' then
      let (sign, ds) := match rest with
        | '+' :: ds => (ExponentSign.plus, ds)
        | '-' :: ds => (ExponentSign.minus, ds)
        | ds => (ExponentSign.none, ds)
      if ds = [] || !ds.all Char.isDigit then .none else some (some (sign, ds))
    else .none

/-- The literal that characters spell: digits without a leading zero, a fraction of at least one
digit and an exponent of at least one digit. -/
def ofChars? (cs : List Char) : Option Number :=
  let (negative, cs) := match cs with
    | '-' :: rest => (true, rest)
    | cs => (false, cs)
  let (whole, rest) := takeDigits cs
  if whole = [] || (whole.head? = some '0' && whole ≠ ['0']) then .none
  else
    match rest with
    | '.' :: rest =>
      let (fraction, rest) := takeDigits rest
      if fraction = [] then .none
      else (exponent? rest).map fun e => ⟨negative, whole, some fraction, e⟩
    | rest => (exponent? rest).map fun e => ⟨negative, whole, .none, e⟩

/-- The natural number of a run of digits. -/
def natOfDigits (ds : List Char) : Nat := ds.foldl (fun n c => 10 * n + digitValue c) 0

/-- The natural number below `limit` that a literal spells. -/
def natBelow? (limit : Nat) (n : Number) : Option Nat :=
  if n.negative || n.fraction.isSome || n.exponent.isSome then .none
  else
    let v := natOfDigits n.whole
    if v < limit then some v else .none

/-- The largest significand that is read in full. -/
def significandLimit : Nat := Nat.pow 2 64

/-- Digits added to a significand as long as it stays below the limit: the significand, and the
count of digits added. -/
def addDigits (significand : Nat) : List Char → Nat × Nat
  | [] => (significand, 0)
  | c :: rest =>
    let next := 10 * significand + digitValue c
    if next < significandLimit then
      let (found, count) := addDigits next rest
      (found, count + 1)
    else (significand, 0)

/-- The double `10 ^ k`. -/
def tenPower (k : Nat) : Float := Float.ofScientific 1 false k

/-- A double times a power of ten, in steps of at most `10 ^ 308`; nothing if it overflows. -/
def scale? (x : Float) (exponent : Int) : Nat → Option Float
  | 0 => .none
  | fuel + 1 =>
    if exponent.natAbs ≤ 308 then
      if 0 ≤ exponent then
        let y := x * tenPower exponent.natAbs
        if y.isInf then .none else some y
      else some (x / tenPower exponent.natAbs)
    else if x == 0 then some x
    else if 0 ≤ exponent then .none
    else scale? (x / tenPower 308) (exponent + 308) fuel

/-- The largest exponent that is read in full. -/
def exponentLimit : Nat := Nat.pow 2 31

/-- The double that a literal spells. The digits that fit a 64-bit significand count in full and
the rest only by their place; the power of ten is then multiplied or divided in. -/
def toFloat? (n : Number) : Option Float :=
  let (head, used) := addDigits 0 n.whole
  let dropped := n.whole.length - used
  let (significand, places) := match n.fraction with
    | .none => (head, 0)
    | some ds => addDigits head ds
  let signed (x : Float) : Float := if n.negative then -x else x
  let start : Int := (dropped : Int) - (places : Int)
  match n.exponent with
  | .none => (scale? (Float.ofNat significand) start 4).map signed
  | some (sign, ds) =>
    let e := natOfDigits ds
    if e < exponentLimit then
      let exponent := if sign = .minus then start - (e : Int) else start + (e : Int)
      (scale? (Float.ofNat significand) exponent 4).map signed
    else if significand ≠ 0 && sign ≠ .minus then .none
    else some (signed 0)

/-- Positional spelling is used for exponents from here on. -/
def leastPositional : Int := -5

/-- Positional spelling ends before this exponent. -/
def firstExponential : Int := 16

/-- The literal of a finite double: its shortest decimal, positional with at least one digit on
each side of the point, or with an exponent when the number is very small or very large. Of two
decimals as near it takes the even one. -/
def ofFinite (negative : Bool) (m : Nat) (q : Int) (narrowBelow : Bool) : Number :=
  let d := Decimal.shortest .toEven m q narrowBelow
  let exponent := d.point - 1
  if leastPositional ≤ exponent ∧ exponent < firstExponential then
    let (whole, fraction) := d.written
    ⟨negative, whole, some (if fraction = [] then ['0'] else fraction), .none⟩
  else
    let rest := d.digits.drop 1
    ⟨negative, d.digits.take 1, if rest = [] then .none else some rest,
      some (if exponent < 0 then .minus else .plus, Nat.toDigits 10 exponent.natAbs)⟩

end Number

end SeenStates.Json
