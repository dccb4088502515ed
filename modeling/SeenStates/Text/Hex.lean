import SeenStates.Bytes

/-!
# Hexadecimal text

Numbers in lower-case hexadecimal, at a fixed count of digits or at as many as it takes, and the
values of digits.
-/
namespace SeenStates.Hex

/-- The character of a hexadecimal digit. -/
def digit (d : Nat) : Char := if d < 10 then Char.ofNat (48 + d) else Char.ofNat (87 + d)

/-- The value of a hexadecimal digit, in either case. -/
def digit? (c : Char) : Option Nat :=
  if '0' ≤ c ∧ c ≤ '9' then some (c.toNat - 48)
  else if 'a' ≤ c ∧ c ≤ 'f' then some (c.toNat - 87)
  else if 'A' ≤ c ∧ c ≤ 'F' then some (c.toNat - 55)
  else none

/-- A number in `n` hexadecimal digits. -/
def padded (n v : Nat) : String := String.ofList ((digits 16 n v).reverse.map digit)

/-- A number in as few hexadecimal digits as it takes. -/
def short (v : Nat) : String := String.ofList (Nat.toDigits 16 v)

/-- A 64-bit word in sixteen digits. -/
def word (v : Nat) : String := padded 16 v

end SeenStates.Hex
