import SeenStates.Json.Value
import SeenStates.Text.Hex

/-!
# Writing JSON

A value is written without blanks (`compact`), or with one element or member a line and two blanks
for each level (`pretty`). An empty array or object takes no lines of its own.
-/
namespace SeenStates.Json

/-- A character inside a string. -/
def writtenChar (c : Char) : String :=
  match c with
  | '"' => "\\\""
  | '\\' => "\\\\"
  | '\x08' => "\\b"
  | '\x0C' => "\\f"
  | '\n' => "\\n"
  | '\r' => "\\r"
  | '\t' => "\\t"
  | c => if c.toNat < 0x20 then "\\u" ++ Hex.padded 4 c.toNat else c.toString

/-- A string; one that spells no text is written empty. -/
def writtenString (s : Option String) : String :=
  "\"" ++ String.join ((s.getD "").toList.map writtenChar) ++ "\""

/-- A text between two brackets, its parts separated by commas. -/
def enclosed (opening closing : String) (parts : List String) : String :=
  opening ++ ",".intercalate parts ++ closing

/-- A line break and the blanks of a level. -/
def newLine (level : Nat) : String := "\n" ++ String.ofList (List.replicate (2 * level) ' ')

/-- A text between two brackets, each part on a line of the level inside. -/
def enclosedLines (level : Nat) (opening closing : String) (parts : List String) : String :=
  if parts = [] then opening ++ closing
  else
    opening ++ ",".intercalate (parts.map (newLine (level + 1) ++ ·)) ++ newLine level ++ closing

mutual

/-- A value without blanks. -/
def compact : Json → String
  | null => "null"
  | bool b => if b then "true" else "false"
  | number n => String.ofList n.chars
  | string s => writtenString s
  | array elements => enclosed "[" "]" (compactElements elements)
  | object members => enclosed "\x7b" "\x7d" (compactMembers members)

/-- The elements of an array without blanks. -/
def compactElements : List Json → List String
  | [] => []
  | v :: rest => compact v :: compactElements rest

/-- The members of an object without blanks. -/
def compactMembers : List (Option String × Json) → List String
  | [] => []
  | (key, v) :: rest => (writtenString key ++ ":" ++ compact v) :: compactMembers rest

end

mutual

/-- A value at a level, over as many lines as it has parts. -/
def prettyAt (level : Nat) : Json → String
  | null => "null"
  | bool b => if b then "true" else "false"
  | number n => String.ofList n.chars
  | string s => writtenString s
  | array elements => enclosedLines level "[" "]" (prettyElements (level + 1) elements)
  | object members => enclosedLines level "\x7b" "\x7d" (prettyMembers (level + 1) members)

/-- The elements of an array at a level. -/
def prettyElements (level : Nat) : List Json → List String
  | [] => []
  | v :: rest => prettyAt level v :: prettyElements level rest

/-- The members of an object at a level. -/
def prettyMembers (level : Nat) : List (Option String × Json) → List String
  | [] => []
  | (key, v) :: rest =>
    (writtenString key ++ ": " ++ prettyAt level v) :: prettyMembers level rest

end

/-- A value over as many lines as it has parts. -/
def pretty (v : Json) : String := prettyAt 0 v

end SeenStates.Json
