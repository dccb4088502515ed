import SeenStates.Fingerprint
import Std.Data.ExtTreeSet.Lemmas

/-!
# Overflow

The fingerprints whose bucket has no room. They are kept in ascending order, each once, and
`entries` lists them so.
-/
namespace SeenStates

/-- Fingerprints in ascending order. -/
structure Overflow (w : Width) where
  /-- The fingerprints. -/
  fingerprints : Std.ExtTreeSet (Fingerprint w)

namespace Overflow

variable {w : Width}

/-- No fingerprints. -/
def empty : Overflow w := ⟨.empty⟩

instance : Inhabited (Overflow w) := ⟨empty⟩

/-- The fingerprints in ascending order. -/
def entries (o : Overflow w) : List (Fingerprint w) := o.fingerprints.toList

/-- The count of fingerprints. -/
def size (o : Overflow w) : Nat := o.fingerprints.size

/-- Whether a fingerprint is in it. -/
def contains (o : Overflow w) (fp : Fingerprint w) : Bool := o.fingerprints.contains fp

/-- The overflow with a fingerprint put in. -/
def insert (o : Overflow w) (fp : Fingerprint w) : Overflow w := ⟨o.fingerprints.insert fp⟩

/-- The fingerprints ascend, so none is listed twice. -/
theorem entries_ascending (o : Overflow w) : o.entries.Pairwise (· < ·) :=
  o.fingerprints.ordered_toList.imp Fingerprint.compare_eq_lt.1

/-- Each fingerprint is listed once. -/
@[simp] theorem length_entries (o : Overflow w) : o.entries.length = o.size :=
  o.fingerprints.length_toList

/-- What overflow contains is what it lists. -/
@[simp] theorem contains_iff_mem_entries {o : Overflow w} {fp : Fingerprint w} :
    o.contains fp ↔ fp ∈ o.entries := by
  simp [contains, entries]

/-- The empty overflow lists nothing. -/
@[simp] theorem entries_empty : (empty : Overflow w).entries = [] := rfl

/-- After a fingerprint is put in, the overflow lists it and what it listed before. -/
@[simp] theorem mem_entries_insert {o : Overflow w} {fp a : Fingerprint w} :
    a ∈ (o.insert fp).entries ↔ a = fp ∨ a ∈ o.entries := by
  simp [insert, entries, eq_comm (a := a)]

end Overflow

end SeenStates
