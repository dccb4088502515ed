import SeenStates.Text.Hex
import SeenStates.Text.Unseen

/-!
# Quoted names

A name or a path in a message stands between double quotes. The quote, the backslash, the null
character, tabs and line ends have two-character forms, any other character without a glyph of its
own is spelled by its number, and every other character stands for itself.
-/
namespace SeenStates.Text

/-- A character inside quotes. -/
def quotedChar (c : Char) : String :=
  if c = '\x00' then "\\0"
  else if c = '\t' then "\\t"
  else if c = '\r' then "\\r"
  else if c = '\n' then "\\n"
  else if c = '"' then "\\\""
  else if c = '\\' then "\\\\"
  else if isUnseen c then "\\u\x7b" ++ Hex.short c.toNat ++ "\x7d"
  else c.toString

/-- A text between quotes. -/
def quoted (s : String) : String := "\"" ++ String.join (s.toList.map quotedChar) ++ "\""

end SeenStates.Text
