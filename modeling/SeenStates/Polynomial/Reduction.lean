/-!
# Reduction modulo a polynomial

A 64-bit word is a polynomial over GF(2) of degree below 64, its most significant bit the
coefficient of `x ^ 0`. `timesX` multiplies by `x` and reduces, `serialByte` takes in a byte by
eight such steps, and `tableByte` takes it in by one look-up in a table of the 256 remainders
that a byte can leave.
-/
namespace SeenStates.Polynomial

/-- The polynomial `1`. -/
def one : UInt64 := 0x8000000000000000

/-- The product with `x`, reduced by the modulus `p`. -/
def timesX (p t : UInt64) : UInt64 := (t >>> 1) ^^^ (if t &&& 1 = 1 then p else 0)

/-- The product with `x ^ n`, reduced by the modulus `p`. -/
def timesPower (p : UInt64) : Nat → UInt64 → UInt64
  | 0, t => t
  | n + 1, t => timesPower p n (timesX p t)

/-- The first `n` products of `t` with a power of `x`, from `x ^ 0` up. -/
def powersFrom (p : UInt64) : Nat → UInt64 → List UInt64
  | 0, _ => []
  | n + 1, t => t :: powersFrom p n (timesX p t)

/-- What a byte in the low eight bits of a word leaves behind when the word is multiplied by
`x ^ 8`: the sum of `x ^ (71 - k)` over the bits `k` that are set in the byte. -/
def remainder (powers : Array UInt64) (byte : Nat) : UInt64 :=
  (List.range 8).foldl
    (fun sum k => if byte.testBit k then sum ^^^ powers.getD (71 - k) 0 else sum) 0

/-- The remainders of all bytes, in the order of the bytes. -/
def byteTable (p : UInt64) : Vector UInt64 256 :=
  let powers := (powersFrom p 72 one).toArray
  Vector.ofFn fun byte => remainder powers byte.val

/-- Take a byte into a lane: one step along the table. -/
def tableByte (table : Vector UInt64 256) (lane : UInt64) (byte : UInt8) : UInt64 :=
  let entry := ((byte.toUInt64 ^^^ lane) &&& 0xFF).toNat % 256
  (lane >>> 8) ^^^ table.get ⟨entry, Nat.mod_lt _ (by decide)⟩

/-- Take a byte into a lane bit by bit: add it to the low byte, then multiply by `x ^ 8`. -/
def serialByte (p lane : UInt64) (byte : UInt8) : UInt64 :=
  timesPower p 8 (lane ^^^ byte.toUInt64)

end SeenStates.Polynomial
