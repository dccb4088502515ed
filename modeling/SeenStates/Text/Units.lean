/-!
# UTF-16 units

A character up to `U+FFFF` is one 16-bit unit; a character above is two, a high surrogate and a
low one. The units of a text are the units of its characters in order.
-/
namespace SeenStates.Units

/-- The units of a character. -/
def ofChar (c : Char) : List Nat :=
  if c.toNat < 0x10000 then [c.toNat]
  else [0xD800 + (c.toNat - 0x10000) / 0x400, 0xDC00 + (c.toNat - 0x10000) % 0x400]

/-- The units of a text. -/
def ofString (s : String) : List Nat := s.toList.flatMap ofChar

/-- A unit that opens a pair. -/
def isHigh (u : Nat) : Bool := decide (0xD800 ≤ u ∧ u ≤ 0xDBFF)

/-- A unit that closes a pair. -/
def isLow (u : Nat) : Bool := decide (0xDC00 ≤ u ∧ u ≤ 0xDFFF)

/-- A character is not a surrogate. -/
theorem not_surrogate (c : Char) : isHigh c.toNat = false ∧ isLow c.toNat = false := by
  have valid : c.toNat < 0xD800 ∨ 0xDFFF < c.toNat ∧ c.toNat < 0x110000 := c.valid
  simp only [isHigh, isLow, decide_eq_false_iff_not]
  omega

/-- The character of a pair of units. -/
def pair (high low : Nat) : Char :=
  Char.ofNat (0x10000 + (high - 0xD800) * 0x400 + (low - 0xDC00))

/-- The characters that code points spell when each surrogate among them belongs to a pair. -/
def join? : List Nat → Option (List Char)
  | [] => some []
  | [u] => if isHigh u || isLow u then none else some [Char.ofNat u]
  | u :: v :: rest =>
    if isHigh u then
      if isLow v then (join? rest).map (pair u v :: ·) else none
    else if isLow u then none
    else (join? (v :: rest)).map (Char.ofNat u :: ·)

end SeenStates.Units
