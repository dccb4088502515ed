import SeenStates.DiskSet

/-!
# New tables

A configuration gets its table in steps: its budget is resolved to slots, these are given a
geometry, and each region is given an arena. Here is what is known of each step that succeeds, and
of the table of a set that was opened (`DiskSet.layout_of_open`).
-/
namespace SeenStates

variable {w : Width}

/-- A new arena has the slots asked for, all empty. Their words can be counted and fit a block of
memory. -/
theorem Arena.make_eq_ok {machine : Machine} {n : Nat} {a : Arena w}
    (made : make w machine n = .ok a) :
    a = blank w n ∧ n * w.words < countLimit ∧ n * w.words * 8 < blockLimit := by
  unfold make at made
  split at made
  · contradiction
  · next counted =>
    split at made
    · next granted =>
      exact ⟨(Except.ok.inj made).symm, Nat.not_le.1 counted, (of_decide_eq_true granted).1⟩
    · contradiction

/-- A new geometry is of the slots and the routing bits asked for. -/
theorem Geometry.make_eq_ok {capacity prefixBits regions : Nat} {g : Geometry}
    (made : make capacity prefixBits regions = .ok g) :
    g.capacity = capacity ∧ g.prefixBits = prefixBits := by
  unfold make at made
  split at made
  · split at made
    · rw [← Except.ok.inj made]
      exact ⟨rfl, rfl⟩
    · contradiction
  · contradiction

/-- A new table has a new arena for each region of its geometry. -/
theorem Table.make_eq_ok {machine : Machine} {g : Geometry} {t : Table w}
    (made : make w machine g = .ok t) :
    t = ⟨g, Array.replicate g.regionCount (.blank w g.slotsPerRegion)⟩ ∧
      Arena.make w machine g.slotsPerRegion = .ok (.blank w g.slotsPerRegion) := by
  unfold make at made
  cases arena : Arena.make w machine g.slotsPerRegion with
  | error e => simp [arena, Except.map] at made
  | ok a =>
    obtain ⟨rfl, _⟩ := Arena.make_eq_ok arena
    rw [arena] at made
    exact ⟨(Except.ok.inj made).symm, rfl⟩

namespace DiskSet

/-- How a table was laid out for a configuration. -/
structure Layout (machine : Machine) (c : Config) (t : Table w) : Prop where
  /-- The configuration is valid. -/
  valid : c.validate = .ok ()
  /-- It is of the width. -/
  width : c.width = w
  /-- The geometry is one of as many slots as the budget allows. -/
  geometry : ∃ slots, c.memorySlots machine.available = .ok slots ∧
    Geometry.make slots c.prefixBits (c.lockCount.getD machine.locks) = .ok t.geometry
  /-- There was memory for the regions. -/
  made : Table.make w machine t.geometry = .ok t

/-- A table that is laid out was laid out in these steps. -/
theorem layout_of_layOut {machine : Machine} {c : Config} {t : Table w}
    (laidOut : layOut w machine c = .ok t) : Layout machine c t := by
  unfold layOut at laidOut
  cases valid : c.validate with
  | error e => simp [valid, bind, Except.bind] at laidOut
  | ok _ =>
    simp only [valid, bind, Except.bind] at laidOut
    split at laidOut
    · contradiction
    · next width =>
      split at laidOut
      · contradiction
      · next slots memory =>
        split at laidOut
        · contradiction
        · next g geometry =>
          obtain ⟨rfl, _⟩ := Table.make_eq_ok laidOut
          exact ⟨valid, Classical.not_not.1 width, ⟨slots, memory, geometry⟩, laidOut⟩

/-- A set that was opened is of its configuration. It has the table that was laid out for that, and
its overflow is counted. -/
theorem layout_of_open {machine : Machine} {c : Config} {before after : Host} {s : DiskSet w}
    (opened : DiskSet.open w machine c before = (.ok s, after)) :
    s.config = c ∧ Layout machine c s.table ∧ s.overflowLive = s.overflow.size := by
  unfold DiskSet.open at opened
  split at opened
  · simp at opened
  · next t laidOut =>
    split at opened
    · simp at opened
    · split at opened
      · simp at opened
      · obtain rfl := Except.ok.inj (Prod.mk.inj opened).1
        exact ⟨rfl, layout_of_layOut laidOut, rfl⟩

end DiskSet

end SeenStates
