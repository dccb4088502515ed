import SeenStates.Json.Token
import SeenStates.Json.Value

/-!
# Reading JSON

Tokens are taken in one at a time. `Reader` holds the arrays and objects that are still open, the
innermost first, and what the next token has to be; a text is a value when its last token closes
the outermost one.
-/
namespace SeenStates.Json

/-- An open array or object. -/
inductive Frame where
  /-- An array with the elements read so far, last first. -/
  | array (elements : List Json)
  /-- An object with the members read so far, last first, and the key whose value is being read. -/
  | object (members : List (Option String × Json)) (key : Option String)

/-- What the next token has to be. -/
inductive Expect where
  /-- A value. -/
  | value
  /-- A value, or the bracket that closes an empty array. -/
  | firstElement
  /-- A key, or the brace that closes an empty object. -/
  | firstKey
  /-- A key. -/
  | key (members : List (Option String × Json))
  /-- The colon behind a key. -/
  | colon
  /-- A comma, or what closes the innermost frame. -/
  | separator
  /-- Nothing: the value is complete. -/
  | done (v : Json)

/-- What has been read of a value. -/
structure Reader where
  /-- The open frames, innermost first. -/
  frames : List Frame
  /-- What the next token has to be. -/
  expect : Expect

namespace Reader

/-- Nothing read yet. -/
def start : Reader := ⟨[], .value⟩

/-- A value is complete: it goes into the innermost frame, or is the whole. -/
def complete (v : Json) : List Frame → Reader
  | [] => ⟨[], .done v⟩
  | .array elements :: frames => ⟨.array (v :: elements) :: frames, .separator⟩
  | .object members key :: frames => ⟨.object ((key, v) :: members) key :: frames, .separator⟩

/-- Take in a token where a value is due. -/
def takeValue (frames : List Frame) : Token → Option Reader
  | .null => some (complete .null frames)
  | .bool b => some (complete (.bool b) frames)
  | .number n => some (complete (.number n) frames)
  | .string s => some (complete (.string s) frames)
  | .openBracket => some ⟨.array [] :: frames, .firstElement⟩
  | .openBrace => some ⟨frames, .firstKey⟩
  | _ => none

/-- Take in a token. -/
def advance (r : Reader) (t : Token) : Option Reader :=
  match r.expect, t, r.frames with
  | .value, t, frames => takeValue frames t
  | .firstElement, .closeBracket, .array _ :: frames => some (complete (.array []) frames)
  | .firstElement, t, frames => takeValue frames t
  | .firstKey, .closeBrace, frames => some (complete (.object []) frames)
  | .firstKey, .string s, frames => some ⟨.object [] s :: frames, .colon⟩
  | .key members, .string s, frames => some ⟨.object members s :: frames, .colon⟩
  | .colon, .colon, frames => some ⟨frames, .value⟩
  | .separator, .comma, .array elements :: frames => some ⟨.array elements :: frames, .value⟩
  | .separator, .comma, .object members _ :: frames => some ⟨frames, .key members⟩
  | .separator, .closeBracket, .array elements :: frames =>
    some (complete (.array elements.reverse) frames)
  | .separator, .closeBrace, .object members _ :: frames =>
    some (complete (.object members.reverse) frames)
  | _, _, _ => none

/-- The value, if it is complete. -/
def finish (r : Reader) : Option Json :=
  match r.expect with
  | .done v => some v
  | _ => none

end Reader

/-- The value that tokens spell. -/
def ofTokens? (ts : List Token) : Option Json :=
  (ts.foldlM Reader.advance Reader.start).bind Reader.finish

/-- The value that a text spells, blanks around it aside. -/
def parse? (s : String) : Option Json := (tokens? s).bind ofTokens?

end SeenStates.Json
