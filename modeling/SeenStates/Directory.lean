import Std.Data.ExtTreeMap.Lemmas

/-!
# Directories

A directory holds entries by name, and what is in the directories among them. An entry is reached
by its location, the names on the way down to it. The two ways to change a directory are to set an
entry (`set`) and to put a directory in the place of what is below a location (`graft`); each says
what stands at every location afterwards (`get?_set_self`, `get?_set_of_ne`, `within_graft_self`).
-/
namespace SeenStates

/-- Where a file or directory is: the names on the way down to it. -/
abbrev Location := List String

/-- Whether a location is another one or below it. -/
def Location.isWithin (l other : Location) : Bool := other.isPrefixOf l

/-- What stands at a location. -/
inductive Entry where
  /-- A file and its contents. -/
  | file (contents : ByteArray)
  /-- A directory. -/
  | directory

/-- Files are one entry when their contents are the same. -/
instance : DecidableEq Entry
  | .file a, .file b => @decidable_of_iff _ (a = b) (by simp) (ByteArray.instDecidableEq a b)
  | .directory, .directory => isTrue rfl
  | .file _, .directory => isFalse (by simp)
  | .directory, .file _ => isFalse (by simp)

/-- What is in a directory. -/
inductive Directory where
  /-- The entries by name, and what is below them. -/
  | node (entries : Std.ExtTreeMap String Entry) (below : List (String × Directory))

namespace Directory

/-- Nothing. -/
def empty : Directory := node ∅ []

instance : Inhabited Directory := ⟨empty⟩

/-- The entries by name. -/
def entries : Directory → Std.ExtTreeMap String Entry
  | node entries _ => entries

/-- What is in the directory of a name. -/
def child : Directory → String → Directory
  | node _ below, name => (below.find? fun other => other.1 = name).elim empty Prod.snd

/-- Named directories with one of them replaced, or added if it is not among them. -/
def replaced (name : String) (d : Directory) :
    List (String × Directory) → List (String × Directory)
  | [] => [(name, d)]
  | other :: rest =>
    if other.1 = name then (name, d) :: rest else other :: replaced name d rest

/-- Whether there is nothing in a directory and nothing below. -/
def isBare : Directory → Bool
  | node entries below => entries.isEmpty && below.isEmpty

/-- Such a directory is the empty one. -/
theorem eq_empty_of_isBare {d : Directory} (bare : d.isBare) : d = empty := by
  obtain ⟨entries, below⟩ := d
  simp only [isBare, Bool.and_eq_true, List.isEmpty_iff, Std.ExtTreeMap.isEmpty_iff] at bare
  simp [bare, empty]

/-- The directory with another one behind a name. An empty one is not kept. -/
def withChild : Directory → String → Directory → Directory
  | node entries below, name, d =>
    node entries (if d.isBare then below.filter (·.1 ≠ name) else replaced name d below)

/-- A replaced directory is found. -/
theorem find?_replaced_self (name : String) (d : Directory) (below : List (String × Directory)) :
    (replaced name d below).find? (fun other => other.1 = name) = some (name, d) := by
  induction below with
  | nil => simp [replaced]
  | cons first rest ih => by_cases same : first.1 = name <;> simp [replaced, same, ih]

/-- Replacing a directory leaves every other one alone. -/
theorem find?_replaced_of_ne {name other : String} (differ : other ≠ name) (d : Directory)
    (below : List (String × Directory)) :
    (replaced name d below).find? (fun e => e.1 = other) =
      below.find? fun e => e.1 = other := by
  induction below with
  | nil => simp [replaced, Ne.symm differ]
  | cons first rest ih =>
    by_cases same : first.1 = name
    · simp [replaced, same, Ne.symm differ]
    · by_cases found : first.1 = other <;> simp_all [replaced]

/-- Putting a directory behind a name changes no entry. -/
@[simp] theorem entries_withChild (d : Directory) (name : String) (c : Directory) :
    (d.withChild name c).entries = d.entries := by
  cases d
  rfl

/-- What was put behind a name is there. -/
@[simp] theorem child_withChild_self (d : Directory) (name : String) (c : Directory) :
    (d.withChild name c).child name = c := by
  cases d
  by_cases bare : c.isBare
  · have gone : ∀ below : List (String × Directory),
        (below.filter (·.1 ≠ name)).find? (fun other => other.1 = name) = none := by
      simp [List.find?_eq_none]
    simp only [withChild, child, bare, if_true, gone]
    exact (eq_empty_of_isBare bare).symm
  · simp [withChild, child, bare, find?_replaced_self]

/-- Putting a directory behind a name leaves every other name alone. -/
theorem child_withChild_of_ne {name other : String} (differ : other ≠ name) (d c : Directory) :
    (d.withChild name c).child other = d.child other := by
  obtain ⟨entries, below⟩ := d
  by_cases bare : c.isBare
  · have kept : (below.filter (·.1 ≠ name)).find? (fun e => e.1 = other) =
        below.find? fun e => e.1 = other := by
      induction below with
      | nil => rfl
      | cons first rest ih =>
        by_cases here : first.1 = name
        · have apart : first.1 ≠ other := fun same => differ (same.symm.trans here)
          simp_all
        · by_cases found : first.1 = other <;> simp_all
    simp only [withChild, child, bare, if_true, kept]
  · simp [withChild, child, bare, find?_replaced_of_ne differ]

/-- What is at or below a location. -/
def within (d : Directory) : Location → Directory
  | [] => d
  | name :: rest => (d.child name).within rest

/-- What stands at a location. The directory itself is where no name leads down from it. -/
def get? (d : Directory) : Location → Option Entry
  | [] => some .directory
  | [name] => d.entries[name]?
  | name :: rest => (d.child name).get? rest

/-- The entries with an entry of a name, or with none. -/
def withEntry (d : Directory) (name : String) (e : Option Entry) : Directory :=
  match d, e with
  | node entries below, none => node (entries.erase name) below
  | node entries below, some e => node (entries.insert name e) below

/-- The directory with an entry at a location, or with none. -/
def set (d : Directory) (e : Option Entry) : Location → Directory
  | [] => d
  | [name] => d.withEntry name e
  | name :: rest => d.withChild name ((d.child name).set e rest)

/-- The directory with another one in the place of what is below a location. -/
def graft (d c : Directory) : Location → Directory
  | [] => c
  | name :: rest => d.withChild name ((d.child name).graft c rest)

/-- Whether there is nothing in a directory. -/
def isVacant (d : Directory) : Bool := d.entries.isEmpty

/-- The way down to a location goes by every location on it. -/
theorem within_append (d : Directory) (l m : Location) :
    d.within (l ++ m) = (d.within l).within m := by
  induction l generalizing d with
  | nil => rfl
  | cons name rest ih => exact ih _

/-- What stands under a name below a location. -/
theorem get?_append_singleton (d : Directory) (l : Location) (name : String) :
    d.get? (l ++ [name]) = (d.within l).entries[name]? := by
  induction l generalizing d with
  | nil => rfl
  | cons first rest ih =>
    cases rest with
    | nil => rfl
    | cons second rest => exact ih _

/-- Setting an entry leaves what is behind each name alone. -/
@[simp] theorem child_withEntry (d : Directory) (name other : String) (e : Option Entry) :
    (d.withEntry name e).child other = d.child other := by
  cases d
  cases e <;> rfl

/-- An entry that was set is there. -/
theorem entries_withEntry_self (d : Directory) (name : String) (e : Option Entry) :
    (d.withEntry name e).entries[name]? = e := by
  cases d
  cases e <;> simp [withEntry, entries]

/-- Setting an entry leaves every other entry alone. -/
theorem entries_withEntry_of_ne {name other : String} (differ : other ≠ name) (d : Directory)
    (e : Option Entry) : (d.withEntry name e).entries[other]? = d.entries[other]? := by
  cases d
  cases e <;>
    simp [withEntry, entries, Std.ExtTreeMap.getElem?_insert, Std.ExtTreeMap.getElem?_erase,
      Ne.symm differ]

/-- An entry that was set at a location is there. -/
theorem get?_set_self {l : Location} (named : l ≠ []) (d : Directory) (e : Option Entry) :
    (d.set e l).get? l = e := by
  induction l generalizing d with
  | nil => contradiction
  | cons name rest ih =>
    cases rest with
    | nil => exact entries_withEntry_self d name e
    | cons second rest => simpa [set, get?] using ih (by simp) _

/-- Setting an entry leaves every other location alone. -/
theorem get?_set_of_ne {l m : Location} (differ : m ≠ l) (d : Directory) (e : Option Entry) :
    (d.set e l).get? m = d.get? m := by
  induction l generalizing d m with
  | nil => rfl
  | cons name rest ih =>
    match rest, m with
    | [], [] => rfl
    | [], [other] => exact entries_withEntry_of_ne (by simpa using differ) d e
    | [], _ :: _ :: _ => simp [set, get?]
    | _ :: _, [] => rfl
    | _ :: _, [other] => simp [set, get?]
    | second :: rest, other :: third :: more =>
      by_cases same : other = name
      · subst same
        simpa [set, get?] using ih (by simpa using differ) _
      · simp [set, get?, child_withChild_of_ne same]

/-- What was put in the place of what is below a location is there. -/
theorem within_graft_self (d c : Directory) (l : Location) : (d.graft c l).within l = c := by
  induction l generalizing d with
  | nil => rfl
  | cons name rest ih => simpa [graft, within] using ih _

/-- Putting a directory in the place of what is below a location leaves every location alone that
is not below it. -/
theorem get?_graft_of_not_below {l m : Location} (apart : m = l ∨ ¬ l <+: m) (d c : Directory) :
    (d.graft c l).get? m = d.get? m := by
  induction l generalizing d m with
  | nil => rcases apart with rfl | apart <;> simp_all [get?]
  | cons name rest ih =>
    match m with
    | [] => rfl
    | [other] => simp [graft, get?]
    | other :: third :: more =>
      by_cases same : other = name
      · subst same
        simpa [graft, get?] using ih (by simpa [List.cons_prefix_cons] using apart) _
      · simp [graft, get?, child_withChild_of_ne same]

end Directory

end SeenStates
