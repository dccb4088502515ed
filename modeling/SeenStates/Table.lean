import SeenStates.Arena
import SeenStates.Geometry

/-!
# Tables

The slots of a set in memory: a geometry and an arena for each of its regions. A fingerprint is
looked for in its own bucket only. Slots of a bucket are filled from the front and emptied all at
once, so the search for a fingerprint ends at the first empty slot.
-/
namespace SeenStates

/-- What a search in a bucket finds. -/
inductive Probe where
  /-- The fingerprint. -/
  | found
  /-- Not the fingerprint, but a slot for it, counted from the start of the bucket. -/
  | vacant (position : Nat)
  /-- Neither the fingerprint nor a slot for it. -/
  | full
deriving DecidableEq

/-- The search for a fingerprint in the slots of a bucket, where `position` slots were passed and
`reusable` is the first archived one of them. -/
def probeFrom {w : Width} (fp : Fingerprint w) (position : Nat) (reusable : Option Nat) :
    List (Slot w) → Probe
  | [] => reusable.elim .full .vacant
  | .empty :: _ => .vacant (reusable.getD position)
  | .live stored :: rest =>
    if stored = fp then .found else probeFrom fp (position + 1) reusable rest
  | .archived stored :: rest =>
    if stored = fp then .found
    else probeFrom fp (position + 1) (some (reusable.getD position)) rest

/-- The search for a fingerprint in at most `left` slots of an arena from `first` on, where
`position` slots were passed and `reusable` is the first archived one of them. -/
def Arena.probe {w : Width} (a : Arena w) (fp : Fingerprint w) :
    (left first position : Nat) → Option Nat → Probe
  | 0, _, _, reusable => reusable.elim .full .vacant
  | left + 1, first, position, reusable =>
    match a.get? first with
    | .none => reusable.elim .full .vacant
    | some .empty => .vacant (reusable.getD position)
    | some (.live stored) =>
      if stored = fp then .found else a.probe fp left (first + 1) (position + 1) reusable
    | some (.archived stored) =>
      if stored = fp then .found
      else a.probe fp left (first + 1) (position + 1) (some (reusable.getD position))

/-- The search in an arena is the search in its slots. -/
theorem Arena.probe_eq {w : Width} (a : Arena w) (fp : Fingerprint w) (left first position : Nat)
    (reusable : Option Nat) :
    a.probe fp left first position reusable =
      probeFrom fp position reusable (a.slice first left) := by
  induction left generalizing first position reusable with
  | zero => rfl
  | succ left ih =>
    unfold Arena.probe
    cases here : a.get? first with
    | none => rw [slice_of_get?_eq_none here]; rfl
    | some slot => cases slot <;> simp [slice_succ, here, probeFrom, ih]

/-- The slots of a set in memory. -/
structure Table (w : Width) where
  /-- The shape of the table. -/
  geometry : Geometry
  /-- The arena of each region. -/
  regions : Array (Arena w)

namespace Table

variable {w : Width}

/-- An empty table, if there is memory for each of its regions. -/
def make (w : Width) (machine : Machine) (g : Geometry) : Except Error (Table w) :=
  (Arena.make w machine g.slotsPerRegion).map fun arena => ⟨g, Array.replicate g.regionCount arena⟩

/-- The arena of a region. -/
def region (t : Table w) (r : Nat) : Arena w := t.regions.getD r .none

/-- Where the bucket of a fingerprint is. -/
def locate (t : Table w) (fp : Fingerprint w) : BucketLocation := t.geometry.locate fp.address

/-- The slots of a bucket. -/
def bucket (t : Table w) (l : BucketLocation) : List (Slot w) :=
  (t.region l.region).slice l.offset t.geometry.bucketCapacity

/-- Look for a fingerprint. -/
def probe (t : Table w) (fp : Fingerprint w) : Probe :=
  let l := t.locate fp
  (t.region l.region).probe fp t.geometry.bucketCapacity l.offset 0 none

/-- A fingerprint is looked for in the slots of its bucket. -/
theorem probe_eq (t : Table w) (fp : Fingerprint w) :
    t.probe fp = probeFrom fp 0 none (t.bucket (t.locate fp)) :=
  Arena.probe_eq ..

/-- Put a fingerprint into a slot of its bucket. -/
def store (t : Table w) (fp : Fingerprint w) (position : Nat) : Table w :=
  let l := t.locate fp
  { t with regions := t.regions.modify l.region fun a => a.set (l.offset + position) (.live fp) }

/-- The table with its live slots archived. -/
def archiveLive (t : Table w) : Table w := { t with regions := t.regions.map Arena.archiveLive }

/-- The table with all slots empty. -/
def clear (t : Table w) : Table w := { t with regions := t.regions.map Arena.clear }

/-- The table without its memory. -/
def release (t : Table w) : Table w := { t with regions := t.regions.map fun _ => .none }

/-- The count of live slots. -/
def liveCount (t : Table w) : Nat :=
  t.regions.foldl (fun n arena => n + arena.liveCount) 0

end Table

end SeenStates
