import SeenStates.Json.Number

/-!
# JSON values

A JSON value with members in the order of the text and repeated keys kept. A string that holds a
surrogate outside a pair spells no text; it is kept as such, since a reader that skips the string
accepts it. `record?` is the reading of a value as a record with named fields.
-/
namespace SeenStates

/-- A JSON value. -/
inductive Json where
  /-- The value `null`. -/
  | null
  /-- A truth value. -/
  | bool (b : Bool)
  /-- A number. -/
  | number (n : Json.Number)
  /-- A string, or nothing if it spells no text. -/
  | string (text : Option String)
  /-- An array. -/
  | array (elements : List Json)
  /-- An object. -/
  | object (members : List (Option String × Json))

namespace Json

instance : Inhabited Json := ⟨null⟩

/-- The number literal of a natural number. -/
def nat (n : Nat) : Json := number (.ofNat n)

/-- The value of a double; one that is not finite has none of its own. -/
def float (x : Float) : Json :=
  match Double.ofFloat x with
  | .finite negative m q narrow => number (.ofFinite negative m q narrow)
  | _ => null

/-- A string value. -/
def text (s : String) : Json := string (some s)

/-- A member of an object. -/
def member (key : String) (v : Json) : Option String × Json := (some key, v)

/-- The natural number below a limit. -/
def natBelow? (limit : Nat) : Json → Option Nat
  | number n => n.natBelow? limit
  | _ => none

/-- The double. -/
def float? : Json → Option Float
  | number n => n.toFloat?
  | _ => none

/-- The text. -/
def text? : Json → Option String
  | string s => s
  | _ => none

/-- The elements of an array. -/
def array? : Json → Option (List Json)
  | array elements => some elements
  | _ => none

/-- What the keys of members say of a named field: absent, once, or more than once. -/
def field? (name : String) (members : List (Option String × Json)) : Option (Option Json) :=
  match members.filter fun m => m.1 = some name with
  | [] => some none
  | [m] => some (some m.2)
  | _ => none

/-- The fields of a record, in the order of their names. A record is an object, in which a named
field stands at most once and other keys are skipped but have to spell text, or an array of the
fields from the first on. -/
def record? (names : List String) : Json → Option (List (Option Json))
  | object members =>
    if members.all fun m => m.1.isSome then names.mapM fun name => field? name members else none
  | array elements =>
    if elements.length ≤ names.length then
      some (elements.map some ++ List.replicate (names.length - elements.length) none)
    else none
  | _ => none

/-- The case of a tagged value, with what it carries: a name alone carries nothing, an object of
one member carries that member's value. -/
def tagged? : Json → Option (String × Option Json)
  | string (some name) => some (name, none)
  | object [(some name, v)] => some (name, some v)
  | _ => none

end Json

end SeenStates
