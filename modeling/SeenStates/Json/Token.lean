import SeenStates.Json.Number
import SeenStates.Text.Hex
import SeenStates.Text.Units

/-!
# Tokens of a JSON text

The text is read in one pass, a character at a time: `Lexer` is what has been read so far and
`advance` takes in a character. Blanks separate tokens and are not kept.
-/
namespace SeenStates.Json

/-- A token. -/
inductive Token where
  /-- An opening brace. -/
  | openBrace
  /-- A closing brace. -/
  | closeBrace
  /-- An opening bracket. -/
  | openBracket
  /-- A closing bracket. -/
  | closeBracket
  /-- A colon. -/
  | colon
  /-- A comma. -/
  | comma
  /-- The word `null`. -/
  | null
  /-- The word `true` or `false`. -/
  | bool (b : Bool)
  /-- A number. -/
  | number (n : Number)
  /-- A string, or nothing if it spells no text. -/
  | string (text : Option String)

/-- What a character continues. Characters already read are kept last first. -/
inductive Mode where
  /-- Nothing: the next character starts a token. -/
  | between
  /-- A word. -/
  | word (seen : List Char)
  /-- A number. -/
  | number (seen : List Char)
  /-- A string of the given code points. -/
  | text (points : List Nat)
  /-- A string, behind a backslash. -/
  | escape (points : List Nat)
  /-- A string, in the spelling of a unit of which `count` digits were read. -/
  | unit (points : List Nat) (count value : Nat)

/-- What has been read of a text: the tokens, last first, and what is in progress. -/
structure Lexer where
  /-- The tokens, last first. -/
  tokens : List Token
  /-- What is in progress. -/
  mode : Mode

namespace Lexer

/-- Nothing read yet. -/
def start : Lexer := ⟨[], .between⟩

/-- A blank between tokens. -/
def isBlank (c : Char) : Bool := c = ' ' || c = '\n' || c = '\t' || c = '\r'

/-- A character that a number can hold. -/
def isNumeric (c : Char) : Bool :=
  c.isDigit || c = '+' || c = '-' || c = '.' || c = 'e' || c = 'E'

/-- The token of a word. -/
def word? (w : List Char) : Option Token :=
  if w = "null".toList then some .null
  else if w = "true".toList then some (.bool true)
  else if w = "false".toList then some (.bool false)
  else none

/-- The token of a string, from its code points last first. -/
def stringToken (points : List Nat) : Token :=
  .string ((Units.join? points.reverse).map String.ofList)

/-- The code point that a character stands for behind a backslash. -/
def escaped? (c : Char) : Option Nat :=
  match c with
  | '"' => some 0x22
  | '\\' => some 0x5C
  | '/' => some 0x2F
  | 'b' => some 0x08
  | 'f' => some 0x0C
  | 'n' => some 0x0A
  | 'r' => some 0x0D
  | 't' => some 0x09
  | _ => none

/-- Take in a character that starts a token. -/
def begin? (tokens : List Token) (c : Char) : Option Lexer :=
  if isBlank c then some ⟨tokens, .between⟩
  else if c = '{' then some ⟨.openBrace :: tokens, .between⟩
  else if c = '}' then some ⟨.closeBrace :: tokens, .between⟩
  else if c = '[' then some ⟨.openBracket :: tokens, .between⟩
  else if c = ']' then some ⟨.closeBracket :: tokens, .between⟩
  else if c = ':' then some ⟨.colon :: tokens, .between⟩
  else if c = ',' then some ⟨.comma :: tokens, .between⟩
  else if c = '"' then some ⟨tokens, .text []⟩
  else if c = '-' || c.isDigit then some ⟨tokens, .number [c]⟩
  else if c.isAlpha then some ⟨tokens, .word [c]⟩
  else none

/-- Take in a character. -/
def advance (l : Lexer) (c : Char) : Option Lexer :=
  match l.mode with
  | .between => begin? l.tokens c
  | .word seen =>
    if c.isAlpha then some ⟨l.tokens, .word (c :: seen)⟩
    else (word? seen.reverse).bind fun t => begin? (t :: l.tokens) c
  | .number seen =>
    if isNumeric c then some ⟨l.tokens, .number (c :: seen)⟩
    else (Number.ofChars? seen.reverse).bind fun n => begin? (.number n :: l.tokens) c
  | .text points =>
    if c = '"' then some ⟨stringToken points :: l.tokens, .between⟩
    else if c = '\\' then some ⟨l.tokens, .escape points⟩
    else if c.toNat < 0x20 then none
    else some ⟨l.tokens, .text (c.toNat :: points)⟩
  | .escape points =>
    if c = 'u' then some ⟨l.tokens, .unit points 0 0⟩
    else (escaped? c).map fun point => ⟨l.tokens, .text (point :: points)⟩
  | .unit points count value =>
    (Hex.digit? c).map fun d =>
      let value := 16 * value + d
      if count = 3 then ⟨l.tokens, .text (value :: points)⟩
      else ⟨l.tokens, .unit points (count + 1) value⟩

/-- The tokens of a text that ends here. -/
def finish (l : Lexer) : Option (List Token) :=
  match l.mode with
  | .between => some l.tokens.reverse
  | .word seen => (word? seen.reverse).map fun t => (t :: l.tokens).reverse
  | .number seen => (Number.ofChars? seen.reverse).map fun n => (.number n :: l.tokens).reverse
  | _ => none

end Lexer

/-- The tokens of a text, if it is made of tokens. -/
def tokens? (s : String) : Option (List Token) :=
  (s.toList.foldlM Lexer.advance Lexer.start).bind Lexer.finish

end SeenStates.Json
