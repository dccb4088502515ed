import SeenStates.Files

/-!
# Drafts

A file that is written aside until it is complete is a draft. It has a name that no path can spell,
but it goes where its directory goes. A draft that is dropped as soon as it was begun leaves nothing
behind (`dropDraft_of_beginDraft`).
-/
namespace SeenStates

/-- A file that is written aside. -/
structure Draft where
  /-- The path of its directory. -/
  directory : String
  /-- Its number among the drafts. -/
  number : Nat
deriving DecidableEq

namespace Files

/-- The bytes that the name of a draft has besides the name of the file it is to become. -/
def draftAffix : Nat := 12

/-- A number that no draft has. -/
def freshNumber (t : Files) : Nat := t.drafts.foldl (fun n d => max n (d.1 + 1)) 0

/-- Every draft has a smaller number than the fresh one. -/
theorem lt_freshNumber {t : Files} {d : Nat × Option Location} (drafted : d ∈ t.drafts) :
    d.1 < t.freshNumber := by
  have grows : ∀ (ds : List (Nat × Option Location)) (n : Nat),
      n ≤ ds.foldl (fun n d => max n (d.1 + 1)) n ∧
        ∀ d ∈ ds, d.1 < ds.foldl (fun n d => max n (d.1 + 1)) n := by
    intro ds
    induction ds with
    | nil => simp
    | cons e rest ih =>
      intro n
      obtain ⟨above, all⟩ := ih (max n (e.1 + 1))
      simp only [List.foldl_cons, List.mem_cons, forall_eq_or_imp]
      exact ⟨by omega, by omega, all⟩
  exact (grows t.drafts 0).2 d drafted

/-- Drafts do not change where a path leads. -/
theorem enter_withDrafts (t : Files) (drafts : List (Nat × Option Location)) (path : String) :
    ({ t with drafts } : Files).enter path = t.enter path := rfl

/-- Begin a draft in a directory, of a file that is to have a given name. -/
def beginDraft (t : Files) (directory name : String) : Except FileFault (Draft × Files) :=
  let nameBytes := name.utf8ByteSize + draftAffix
  if hasNull directory || hasNull name then .error .invalidInput
  else if pathLimit ≤ directory.utf8ByteSize + 1 + nameBytes then .error .invalidFilename
  else
    match t.enter directory with
    | .error fault => .error fault
    | .ok here =>
      if nameLimit < nameBytes then .error .invalidFilename
      else
        .ok (⟨directory, t.freshNumber⟩,
          { t with drafts := (t.freshNumber, some here) :: t.drafts })

/-- The tree with one draft fewer. -/
def withoutDraft (t : Files) (d : Draft) : Files :=
  { t with drafts := t.drafts.filter fun e => e.1 ≠ d.number }

/-- Put a draft in place at a path as a file of the given contents. It comes from its directory,
and has nowhere to come from when it is no longer there. -/
def commitDraft (t : Files) (d : Draft) (target : String) (contents : ByteArray) :
    Except FileFault Files :=
  if hasNull target then .error .invalidInput
  else do
    let here ← t.enter d.directory
    match ← t.spot target with
    | .dots _ => .error .resourceBusy
    | .named into name slashed =>
      let l := into ++ [name]
      if t.drafts.lookup d.number ≠ some (some here) then .error .notFound
      else if isTooLong name then .error .invalidFilename
      else
        match t.unfit? here slashed l with
        | some fault => .error fault
        | none => .ok ((t.withoutDraft d).place l (.file contents))

/-- Drop a draft. A draft that its path does not lead to any more stays where it is. -/
def dropDraft (t : Files) (d : Draft) : Files :=
  match t.drafts.lookup d.number, t.enter d.directory with
  | some (some l), .ok here => if l = here then t.withoutDraft d else t
  | some (some _), .error _ => t
  | _, _ => t.withoutDraft d

/-- A draft that is dropped as soon as it was begun leaves nothing behind. -/
theorem dropDraft_of_beginDraft {t u : Files} {directory name : String} {d : Draft}
    (begun : t.beginDraft directory name = .ok (d, u)) : u.dropDraft d = t := by
  simp only [beginDraft] at begun
  split at begun
  · contradiction
  · split at begun
    · contradiction
    · split at begun
      · contradiction
      · next here entered =>
        split at begun
        · contradiction
        · obtain ⟨rfl, rfl⟩ := Prod.mk.inj (Except.ok.inj begun)
          have fresh : t.drafts.filter (fun e => !decide (e.1 = t.freshNumber)) = t.drafts :=
            List.filter_eq_self.mpr fun e drafted => by
              have smaller := lt_freshNumber drafted
              simp only [Bool.not_eq_true', decide_eq_false_iff_not]
              omega
          simp [dropDraft, enter_withDrafts, entered, withoutDraft, fresh]

end Files

end SeenStates
