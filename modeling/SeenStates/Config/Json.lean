import SeenStates.Config
import SeenStates.Family.Json
import SeenStates.Json.Reader
import SeenStates.Json.Writer

/-!
# Configurations as JSON

A configuration is written as an object with all its fields. It is read from a record whose
missing fields take default values.
-/
namespace SeenStates

/-- The directory of a configuration that names none. -/
def defaultMetadir : String := "/tmp"

/-- The name of a configuration that gives none. -/
def defaultName : String := "states"

/-- The name of a width in configurations. -/
def Width.name : Width → String
  | bits64 => "bits64"
  | bits128 => "bits128"

/-- A budget as JSON. -/
def Budget.toJson : Budget → Json
  | .ratio share => .object [Json.member "ratio" (.float share)]
  | .bytes n => .object [Json.member "bytes" (.nat n)]
  | .fingerprints n => .object [Json.member "fingerprints" (.nat n)]

namespace Config

/-- The fields of a configuration. -/
def fieldNames : List String :=
  ["memory", "width", "prefix_bits", "fp_index", "kind", "metadir", "name", "lock_count",
    "bloom_hashes", "collision_ratio"]

/-- A configuration as JSON. -/
def toJson (c : Config) : Json :=
  .object (fieldNames.map some |>.zip [
    c.memory.toJson,
    .text c.width.name,
    .nat c.prefixBits,
    c.family.toJson,
    .text c.kind.name,
    .text c.metadir,
    .text c.name,
    c.lockCount.elim .null .nat,
    .nat c.bloomHashes,
    .float c.collisionRatio])

/-- A case that carries nothing, which may be spelled with a `null` of its own. -/
def unitCase? (v : Json) : Option String :=
  match v.tagged? with
  | some (name, none) => some name
  | some (name, some .null) => some name
  | _ => none

/-- A budget from JSON. -/
def budget? (v : Json) : Option Budget :=
  match v.tagged? with
  | some ("ratio", some x) => x.float?.map .ratio
  | some ("bytes", some x) => (x.natBelow? countLimit).map .bytes
  | some ("fingerprints", some x) => (x.natBelow? countLimit).map .fingerprints
  | _ => none

/-- A width from JSON. -/
def width? (v : Json) : Option Width :=
  match unitCase? v with
  | some "bits64" => some .bits64
  | some "bits128" => some .bits128
  | _ => none

/-- A kind from JSON. -/
def kind? (v : Json) : Option Kind :=
  match unitCase? v with
  | some "disk_backed" => some .disk
  | some "bloom_filter" => some .bloom
  | _ => none

/-- A count of locks from JSON. -/
def lockCount? : Json → Option (Option Nat)
  | .null => some none
  | v => (v.natBelow? countLimit).map some

/-- The value of a field, or the default of a missing one. -/
def fieldOr {α : Type} (missing : α) (read : Json → Option α) : Option Json → Option α
  | none => some missing
  | some v => read v

/-- A configuration from JSON. -/
def ofJson? (v : Json) : Option Config := do
  let base := named defaultMetadir defaultName
  match ← v.record? fieldNames with
  | [memory, width, prefixBits, family, kind, metadir, name, lockCount, bloomHashes, ratio] => do
    let memory ← fieldOr base.memory budget? memory
    let width ← fieldOr base.width width? width
    let prefixBits ← fieldOr base.prefixBits (Json.natBelow? smallLimit) prefixBits
    let family ← fieldOr base.family Family.ofJson? family
    let kind ← fieldOr base.kind kind? kind
    let metadir ← fieldOr base.metadir Json.text? metadir
    let name ← fieldOr base.name Json.text? name
    let lockCount ← fieldOr base.lockCount lockCount? lockCount
    let bloomHashes ← fieldOr base.bloomHashes (Json.natBelow? smallLimit) bloomHashes
    let collisionRatio ← fieldOr base.collisionRatio Json.float? ratio
    return { memory, width, prefixBits, family, kind, metadir, name, lockCount, bloomHashes,
             collisionRatio }
  | _ => none

/-- A configuration from a JSON text. -/
def parse? (s : String) : Option Config := (Json.parse? s).bind ofJson?

end Config

end SeenStates
