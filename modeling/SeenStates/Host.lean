import SeenStates.Event
import SeenStates.Files

/-!
# The surroundings of a set

A set works on the files of its host and adds events to the host's log. An operation returns an
`Outcome`: its answer, the set afterwards, and the host afterwards. An error is an answer too; what
was changed before it stays changed.
-/
namespace SeenStates

/-- What a set works on besides itself. -/
structure Host where
  /-- The files. -/
  files : Files
  /-- The events reported so far, the last one first. -/
  events : List Event

namespace Host

/-- No files and no events. -/
def empty : Host := ⟨.empty, []⟩

instance : Inhabited Host := ⟨empty⟩

/-- Report an event. -/
def report (h : Host) (e : Event) : Host := { h with events := e :: h.events }

/-- The host with other files. -/
def withFiles (h : Host) (files : Files) : Host := { h with files }

end Host

/-- What an operation leaves behind. -/
structure Outcome (σ α : Type) where
  /-- The answer. -/
  answer : Except Error α
  /-- The set afterwards. -/
  set : σ
  /-- The host afterwards. -/
  host : Host

namespace Outcome

variable {σ τ α β : Type}

/-- An answer that changes nothing more. -/
def ok (a : α) (set : σ) (host : Host) : Outcome σ α := ⟨.ok a, set, host⟩

/-- A failure that changes nothing more. -/
def fail (e : Error) (set : σ) (host : Host) : Outcome σ α := ⟨.error e, set, host⟩

/-- Go on from an answer; a failure ends the operation. -/
def andThen (o : Outcome σ α) (next : α → σ → Host → Outcome σ β) : Outcome σ β :=
  match o.answer with
  | .ok a => next a o.set o.host
  | .error e => ⟨.error e, o.set, o.host⟩

/-- The same outcome for something that holds the set. -/
def onSet (o : Outcome σ α) (f : σ → τ) : Outcome τ α := ⟨o.answer, f o.set, o.host⟩

/-- The outcome with its answer mapped. -/
def map (o : Outcome σ α) (f : α → β) : Outcome σ β := ⟨o.answer.map f, o.set, o.host⟩

/-- The outcome of putting a fingerprint that is not to have been there, as messages show it. -/
def asNew (shown : String) (o : Outcome σ Bool) : Outcome σ Unit :=
  o.andThen fun seen set host =>
    if seen then fail (.invariant (.recoveredTwice shown)) set host else ok () set host

/-- An operation on each of several arguments in turn, up to the first failure. -/
def each (op : β → σ → Host → Outcome σ α) : List β → σ → Host → Outcome σ (List α)
  | [], set, host => ok [] set host
  | b :: rest, set, host =>
    (op b set host).andThen fun a set host =>
      (each op rest set host).map fun answers => a :: answers

/-- What an operation keeps for each of several arguments is kept for all of them, also when it
fails for one. -/
theorem each_keeps (kept : σ → Host → Prop) {op : β → σ → Host → Outcome σ α} {bs : List β}
    (step : ∀ b ∈ bs, ∀ set host, kept set host → kept (op b set host).set (op b set host).host)
    {set : σ} {host : Host} (start : kept set host) :
    kept (each op bs set host).set (each op bs set host).host := by
  induction bs generalizing set host with
  | nil => exact start
  | cons b rest ih =>
    have first := step b List.mem_cons_self set host start
    unfold each andThen
    split
    · exact ih (fun c member => step c (List.mem_cons_of_mem _ member)) first
    · exact first

end Outcome

end SeenStates
