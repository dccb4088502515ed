import SeenStates.Limits
import SeenStates.Json.Reader
import SeenStates.Json.Writer
import SeenStates.Fingerprint

/-!
# Fingerprints as JSON

A narrow fingerprint is a number, a wide one a record of its two words.
-/
namespace SeenStates.Fingerprint

/-- The fields of a wide fingerprint. -/
def fieldNames : List String := ["higher", "lower"]

/-- A fingerprint as JSON. -/
def toJson {w : Width} (fp : Fingerprint w) : Json :=
  match w with
  | .bits64 => .nat fp.value
  | .bits128 =>
    .object [Json.member "higher" (.nat fp.address), Json.member "lower" (.nat fp.lowWord)]

/-- A wide fingerprint from its fields. -/
def ofFields? : List (Option Json) → Option (Fingerprint .bits128)
  | [some higher, some lower] => do
    let h ← higher.natBelow? countLimit
    let l ← lower.natBelow? countLimit
    return ofNat .bits128 (h * Nat.pow 2 wordBits + l)
  | _ => none

/-- A fingerprint from JSON. -/
def ofJson? (w : Width) (v : Json) : Option (Fingerprint w) :=
  match w with
  | .bits64 => (v.natBelow? countLimit).map (ofNat .bits64)
  | .bits128 => (v.record? fieldNames).bind ofFields?

/-- A fingerprint from a JSON text. -/
def parse? (w : Width) (s : String) : Option (Fingerprint w) := (Json.parse? s).bind (ofJson? w)

end SeenStates.Fingerprint
