import SeenStates.DiskSet

/-!
# Runs of calls

A set goes through its life by calls of its operations, between which the files can change under
it. A `Setting` says what a life may start from, which calls are made in it and how files change;
`Reached` is what can be reached in it. `Later` is what can come of one state after more calls.
-/
namespace SeenStates

/-- Whether each fingerprint of a block is among those before it: the given ones, and the ones in
front of it in the block. -/
def seenBefore {w : Width} (before : List (Fingerprint w)) :
    List (Fingerprint w) → List Bool
  | [] => []
  | fp :: rest => decide (fp ∈ before) :: seenBefore (fp :: before) rest

/-- A call of an operation of a set. -/
inductive Call (w : Width) where
  /-- Put a fingerprint. -/
  | put (fp : Fingerprint w)
  /-- Put each fingerprint of a block. -/
  | putBlock (fps : List (Fingerprint w))
  /-- Put a fingerprint that is not to have been there. -/
  | recoverFingerprint (fp : Fingerprint w)
  /-- Ask for a fingerprint. -/
  | contains (fp : Fingerprint w)
  /-- Ask for each fingerprint of a block. -/
  | containsBlock (fps : List (Fingerprint w))
  /-- Flush. -/
  | flush
  /-- Ask for a flush. -/
  | requestFlush
  /-- Write a checkpoint aside. -/
  | beginCheckpoint
  /-- Put the checkpoint that was written aside in place. -/
  | commitCheckpoint
  /-- Go back to the committed checkpoint. -/
  | recover
  /-- Close the set, and delete its run or not. -/
  | close (cleanup : Bool)

namespace Call

variable {w : Width}

/-- What a call comes to. It answers with what it says of fingerprints, if it says anything. -/
def perform : Call w → DiskSet w → Host → Outcome (DiskSet w) (List Bool)
  | put fp, s, h => (s.put fp h).map fun seen => [seen]
  | putBlock fps, s, h => s.putBlock fps h
  | recoverFingerprint fp, s, h => (s.recoverFingerprint fp h).map fun _ => []
  | contains fp, s, h => (s.contains fp h).map fun seen => [seen]
  | containsBlock fps, s, h => s.containsBlock fps h
  | flush, s, h => (s.flush h).map fun _ => []
  | requestFlush, s, h => .ok [] s.requestFlush h
  | beginCheckpoint, s, h => (s.beginCheckpoint h).map fun _ => []
  | commitCheckpoint, s, h => (s.commitCheckpoint h).map fun _ => []
  | recover, s, h => (s.recover h).map fun _ => []
  | close cleanup, s, h => (s.close cleanup h).map fun _ => []

/-- The fingerprints that a call puts, in order. -/
def puts : Call w → List (Fingerprint w)
  | put fp => [fp]
  | putBlock fps => fps
  | recoverFingerprint fp => [fp]
  | _ => []

/-- Whether none of the puts of a call fails. -/
def putsAll : Call w → DiskSet w → Host → Prop
  | put fp, s, h => (s.put fp h).answer.isOk
  | putBlock fps, s, h => (s.putBlock fps h).answer.isOk
  | recoverFingerprint fp, s, h => (s.put fp h).answer.isOk
  | _, _, _ => True

/-- Whether a call leaves the files of checkpoints alone: it puts, asks or flushes. -/
def isPlain : Call w → Bool
  | beginCheckpoint => false
  | commitCheckpoint => false
  | recover => false
  | close _ => false
  | _ => true

/-- Whether a call goes on with the set that it was made of: it does not go back to a checkpoint,
nor close the set. -/
def goesOn : Call w → Bool
  | recover => false
  | close _ => false
  | _ => true

/-- Whether a call asks something of the set that it has to be open for. -/
def needsOpen : Call w → Bool
  | putBlock fps => !fps.isEmpty
  | containsBlock fps => !fps.isEmpty
  | requestFlush => false
  | close _ => false
  | _ => true

/-- The answers to calls that are made one after the other. -/
def answers : List (Call w) → DiskSet w → Host → List (Except Error (List Bool))
  | [], _, _ => []
  | c :: rest, s, h =>
    let o := c.perform s h
    o.answer :: answers rest o.set o.host

/-- The set after calls that are made one after the other. -/
def after : List (Call w) → DiskSet w → Host → DiskSet w
  | [], s, _ => s
  | c :: rest, s, h =>
    let o := c.perform s h
    after rest o.set o.host

end Call

/-- What a set can go through. -/
structure Setting (w : Width) where
  /-- The files that there can be when the set of a configuration has been opened. -/
  starts : Config → Files → Prop
  /-- The calls that are made. -/
  allows : Call w → DiskSet w → Host → Prop
  /-- The files that can come to be there between two calls. -/
  outside : DiskSet w → Files → Files → Prop

/-- A set that was opened and went through calls in a setting, with the fingerprints that were put,
in order. -/
inductive Reached {w : Width} (σ : Setting w) :
    List (Fingerprint w) → DiskSet w → Host → Prop where
  /-- The set was opened. -/
  | opened {machine : Machine} {c : Config} {before after : Host} {s : DiskSet w}
    (opened : DiskSet.open w machine c before = (.ok s, after))
    (starts : σ.starts c after.files) : Reached σ [] s after
  /-- A call was made. -/
  | call {puts : List (Fingerprint w)} {s : DiskSet w} {h : Host} (reached : Reached σ puts s h)
    (c : Call w) (allowed : σ.allows c s h) :
    Reached σ (puts ++ c.puts) (c.perform s h).set (c.perform s h).host
  /-- The files changed between two calls. -/
  | outside {puts : List (Fingerprint w)} {s : DiskSet w} {h : Host} (reached : Reached σ puts s h)
    (files : Files) (allowed : σ.outside s h.files files) : Reached σ puts s (h.withFiles files)

/-- What comes of a set and its surroundings by calls of an allowed kind and nothing else, but for
other sets that are opened, one after the other, with configurations that go with the last one. -/
inductive Later {w : Width} (allows : Call w → Prop) (goesWith : Config → Config → Prop)
    (s : DiskSet w) (h : Host) : DiskSet w → Host → Prop where
  /-- Nothing has come of it yet. -/
  | start : Later allows goesWith s h s h
  /-- A call was made. -/
  | call {u : DiskSet w} {g : Host} (later : Later allows goesWith s h u g) (c : Call w)
    (allowed : allows c) : Later allows goesWith s h (c.perform u g).set (c.perform u g).host
  /-- Another set was opened. -/
  | reopened {u v : DiskSet w} {g after : Host} (later : Later allows goesWith s h u g)
    {machine : Machine} {c : Config} (suits : goesWith u.config c)
    (opened : DiskSet.open w machine c g = (.ok v, after)) : Later allows goesWith s h v after

/-! ## A set to look at -/

/-- A machine with one processor. -/
def sampleMachine : Machine := ⟨Nat.pow 2 30, Nat.pow 2 30, 1⟩

/-- The configuration of a set of four slots. -/
def sampleConfig : Config :=
  { Config.named "m" "states" with memory := .fingerprints 4, lockCount := some 1 }

/-- The set can be opened where there is nothing. -/
theorem isSome_open_sample :
    (DiskSet.open .bits64 sampleMachine sampleConfig .empty).1.toOption.isSome := by
  decide +kernel

/-- The set, just opened. -/
def sampleSet : DiskSet .bits64 :=
  (DiskSet.open .bits64 sampleMachine sampleConfig .empty).1.toOption.get isSome_open_sample

/-- The surroundings of the set. -/
def sampleHost : Host := (DiskSet.open .bits64 sampleMachine sampleConfig .empty).2

/-- A pair whose first part succeeds is what it succeeds with and its second part. -/
theorem eq_ok_get {α β : Type} {x : Except Error α × β} (succeeds : x.1.toOption.isSome) :
    x = (.ok (x.1.toOption.get succeeds), x.2) := by
  obtain ⟨answer, rest⟩ := x
  cases answer with
  | error e => contradiction
  | ok a => rfl

/-- The set is what is opened. -/
theorem open_sample :
    DiskSet.open .bits64 sampleMachine sampleConfig .empty = (.ok sampleSet, sampleHost) :=
  eq_ok_get isSome_open_sample

end SeenStates
