import Mathlib.Data.List.TakeWhile
import SeenStates.Json.Reader
import SeenStates.Json.Writer

/-!
# Reading JSON back

A value that is written over several lines is read back (`parse?_pretty`), as long as each of its
numbers is a literal and each of its strings spells a text (`Spelled`). The lexer may still be in
the middle of a number when a value ends; what it owes then is settled by the character behind it
(`Owes`). The reader takes the tokens of a value wherever a value is due.
-/
namespace SeenStates.Json

/-! ## Numbers -/

/-- A number whose spelling is a literal: one of its characters can start a number, all of them can
stand in one, and they spell it. -/
structure Number.Literal (n : Number) : Prop where
  /-- It starts with a minus or a digit. -/
  first : ∃ c rest, n.chars = c :: rest ∧ (c = '-' ∨ c.isDigit)
  /-- All characters can stand in a number. -/
  numeric : ∀ c ∈ n.chars, Lexer.isNumeric c
  /-- The characters spell the number. -/
  spells : Number.ofChars? n.chars = some n

/-- The digits of a natural number are digits. -/
theorem isDigit_of_mem_toDigits {n : Nat} {c : Char} (member : c ∈ Nat.toDigits 10 n) :
    c.isDigit :=
  Nat.isDigit_of_mem_toDigits (by decide) (by decide) member

/-- The digits of a positive number do not start with a zero. -/
theorem head?_toDigits_ne {n : Nat} (positive : 0 < n) :
    (Nat.toDigits 10 n).head? ≠ some '0' := by
  induction n using Nat.strongRecOn with
  | ind n ih =>
    rw [Nat.toDigits_eq_if (by decide)]
    split
    · intro zero
      have none : n = 0 := Nat.digitChar_eq_zero.1 (Option.some.inj zero)
      omega
    · have shorter : n / 10 < n := Nat.div_lt_self positive (by decide)
      obtain ⟨c, rest, spelled⟩ :=
        List.exists_cons_of_ne_nil (Nat.toDigits_ne_nil (n := n / 10) (b := 10))
      have first := ih (n / 10) shorter (by omega)
      rw [spelled] at first ⊢
      exact first

/-- The characters of a natural number are its digits. -/
@[simp] theorem chars_ofNat (n : Nat) : (Number.ofNat n).chars = Nat.toDigits 10 n := by
  simp [Number.chars, Number.ofNat]

/-- The digits of a natural number are read as a number. -/
theorem ofChars?_toDigits (n : Nat) :
    Number.ofChars? (Nat.toDigits 10 n) = some (Number.ofNat n) := by
  have digits : ∀ c ∈ Nat.toDigits 10 n, c.isDigit := fun c => isDigit_of_mem_toDigits
  have taken : Number.takeDigits (Nat.toDigits 10 n) = (Nat.toDigits 10 n, []) := by
    rw [Number.takeDigits, List.takeWhile_eq_self_iff.2 digits, List.dropWhile_eq_nil_iff.2 digits]
  have leading : (Nat.toDigits 10 n).head? = some '0' → Nat.toDigits 10 n = ['0'] := by
    intro zero
    rcases Nat.eq_zero_or_pos n with rfl | positive
    · rfl
    · exact absurd zero (head?_toDigits_ne positive)
  have unsigned : ∀ rest, Nat.toDigits 10 n ≠ '-' :: rest := by
    intro rest signed
    have digit := digits '-' (by simp [signed])
    contradiction
  unfold Number.ofChars?
  split
  · next negative cs _ sign =>
    split at sign
    · next rest signed => exact absurd signed (unsigned rest)
    · obtain ⟨rfl, rfl⟩ := Prod.mk.inj sign
      rw [taken]
      simp only
      rw [if_neg]
      · rfl
      · simp only [Nat.toDigits_ne_nil, decide_false, Bool.false_or, Bool.and_eq_true,
          decide_eq_true_eq, not_and]
        exact fun zero differ => differ (leading zero)

/-- A natural number is a literal. -/
theorem literal_ofNat (n : Nat) : (Number.ofNat n).Literal := by
  have digits : ∀ c ∈ Nat.toDigits 10 n, c.isDigit := fun c => isDigit_of_mem_toDigits
  constructor
  case first =>
    obtain ⟨c, rest, spelled⟩ := List.exists_cons_of_ne_nil (Nat.toDigits_ne_nil (n := n) (b := 10))
    exact ⟨c, rest, by rw [chars_ofNat, spelled], .inr (digits c (by simp [spelled]))⟩
  case numeric =>
    intro c member
    rw [chars_ofNat] at member
    simp [Lexer.isNumeric, digits c member]
  case spells =>
    rw [chars_ofNat]
    exact ofChars?_toDigits n

/-- A natural number below a limit is read as one. -/
theorem natBelow?_nat {limit n : Nat} (below : n < limit) :
    (Json.nat n).natBelow? limit = some n := by
  have value : Number.natOfDigits (Nat.toDigits 10 n) = n := Nat.ofDigitChars_ten_toDigits
  simp [Json.nat, Json.natBelow?, Number.natBelow?, Number.ofNat, value, below]

/-! ## Strings -/

/-- The code points of characters spell them. -/
theorem join?_map_toNat (cs : List Char) : Units.join? (cs.map Char.toNat) = some cs := by
  induction cs with
  | nil => rfl
  | cons c rest ih =>
    obtain ⟨notHigh, notLow⟩ := Units.not_surrogate c
    cases rest with
    | nil => simp [Units.join?, notHigh, notLow]
    | cons d rest =>
      rw [List.map_cons] at ih
      simp [Units.join?, notHigh, notLow, ih]

/-- Four digits in the spelling of a unit give its value. -/
theorem foldlM_unit (tokens : List Token) (points : List Nat) {a b c d : Char} {i j k l : Nat}
    (first : Hex.digit? a = some i) (second : Hex.digit? b = some j)
    (third : Hex.digit? c = some k) (fourth : Hex.digit? d = some l) :
    [a, b, c, d].foldlM Lexer.advance ⟨tokens, .unit points 0 0⟩ =
      some ⟨tokens, .text ((16 * (16 * (16 * i + j) + k) + l) :: points)⟩ := by
  simp [Lexer.advance, first, second, third, fourth]

/-- A hexadecimal digit has its value. -/
theorem digit?_digit {d : Nat} (below : d < 16) : Hex.digit? (Hex.digit d) = some d := by
  have all : ∀ d < 16, Hex.digit? (Hex.digit d) = some d := by decide
  exact all d below

/-- A control character is spelled by four digits. -/
theorem digits_padded {n : Nat} (control : n < 0x20) :
    ∃ a b c d, (Hex.padded 4 n).toList = [a, b, c, d] ∧ Hex.digit? a = some 0 ∧
      Hex.digit? b = some 0 ∧ Hex.digit? c = some (n / 16) ∧ Hex.digit? d = some (n % 16) := by
  have spelled : (Hex.padded 4 n).toList = [Hex.digit (n / 16 / 16 / 16 % 16),
      Hex.digit (n / 16 / 16 % 16), Hex.digit (n / 16 % 16), Hex.digit (n % 16)] := by
    simp [Hex.padded, digits]
  refine ⟨_, _, _, _, spelled, ?_, ?_, ?_, ?_⟩
  · rw [digit?_digit (by omega), show n / 16 / 16 / 16 % 16 = 0 by omega]
  · rw [digit?_digit (by omega), show n / 16 / 16 % 16 = 0 by omega]
  · rw [digit?_digit (by omega), show n / 16 % 16 = n / 16 by omega]
  · rw [digit?_digit (by omega)]

/-- What is written for a character is read as its code point. -/
theorem foldlM_writtenChar (tokens : List Token) (points : List Nat) (c : Char) :
    (writtenChar c).toList.foldlM Lexer.advance ⟨tokens, .text points⟩ =
      some ⟨tokens, .text (c.toNat :: points)⟩ := by
  unfold writtenChar
  split
  · rfl
  · rfl
  · rfl
  · rfl
  · rfl
  · rfl
  · rfl
  · next noQuote noBackslash _ _ _ _ _ =>
    split
    · next control =>
      obtain ⟨a, b, d, e, spelled, zero, zero', high, low⟩ := digits_padded control
      have unit := foldlM_unit tokens points zero zero' high low
      have value : 16 * (16 * (16 * 0 + 0) + c.toNat / 16) + c.toNat % 16 = c.toNat := by omega
      rw [value] at unit
      rw [String.toList_append, spelled]
      exact unit
    · next visible =>
      have quote : c ≠ '"' := noQuote
      have backslash : c ≠ '\\' := noBackslash
      simp [Lexer.advance, quote, backslash, visible]

/-! ## Reading tokens -/

/-- What a lexer has once the token in progress is settled. -/
inductive Owes : Lexer → List Token → Prop where
  /-- No token is in progress. -/
  | settled (tokens : List Token) : Owes ⟨tokens, .between⟩ tokens
  /-- A number is in progress. -/
  | number (tokens : List Token) (seen : List Char) (n : Number)
    (spells : Number.ofChars? seen.reverse = some n) :
    Owes ⟨tokens, .number seen⟩ (.number n :: tokens)
  /-- A word is in progress. -/
  | word (tokens : List Token) (seen : List Char) (t : Token)
    (spells : Lexer.word? seen.reverse = some t) : Owes ⟨tokens, .word seen⟩ (t :: tokens)

/-- A character that cannot go on with a number or a word. -/
def IsEnd (c : Char) : Prop := Lexer.isNumeric c = false ∧ c.isAlpha = false

/-- A character that cannot go on with a token settles it. -/
theorem Owes.advance {l : Lexer} {tokens : List Token} (owes : Owes l tokens) {c : Char}
    (ends : IsEnd c) : l.advance c = Lexer.advance ⟨tokens, .between⟩ c := by
  cases owes with
  | settled => rfl
  | number before seen n spells => simp [Lexer.advance, ends.1, spells]
  | word before seen t spells => simp [Lexer.advance, ends.2, spells]

/-- The end of the text settles a token. -/
theorem Owes.finish {l : Lexer} {tokens : List Token} (owes : Owes l tokens) :
    l.finish = some tokens.reverse := by
  cases owes with
  | settled => rfl
  | number before seen n spells => simp [Lexer.finish, spells]
  | word before seen t spells => simp [Lexer.finish, spells]

/-- Characters that are read as the given tokens wherever a token can start. -/
def Reads (cs : List Char) (ts : List Token) : Prop :=
  ∀ tokens, ∃ l, cs.foldlM Lexer.advance ⟨tokens, .between⟩ = some l ∧
    Owes l (ts.reverse ++ tokens)

/-- No characters are read as no tokens. -/
theorem Reads.nil : Reads [] [] := fun tokens => ⟨_, rfl, .settled tokens⟩

/-- A character that is a token is read in front of others. -/
theorem Reads.cons {c : Char} {cs : List Char} {t : Token} {ts : List Token}
    (own : ∀ tokens, Lexer.advance ⟨tokens, .between⟩ c = some ⟨t :: tokens, .between⟩)
    (reads : Reads cs ts) : Reads (c :: cs) (t :: ts) := by
  intro tokens
  obtain ⟨l, read, owes⟩ := reads (t :: tokens)
  refine ⟨l, ?_, by simpa using owes⟩
  rw [List.foldlM_cons, own]
  exact read

/-- A blank is passed over. -/
theorem Reads.blank {c : Char} {cs : List Char} {ts : List Token} (blank : Lexer.isBlank c)
    (reads : Reads cs ts) : Reads (c :: cs) ts := by
  intro tokens
  obtain ⟨l, read, owes⟩ := reads tokens
  refine ⟨l, ?_, owes⟩
  rw [List.foldlM_cons, Lexer.advance, Lexer.begin?, if_pos blank]
  exact read

/-- A new line of a level is passed over. -/
theorem Reads.newLine {cs : List Char} {ts : List Token} (reads : Reads cs ts) (level : Nat) :
    Reads ((Json.newLine level).toList ++ cs) ts := by
  have blanks (n : Nat) : Reads (List.replicate n ' ' ++ cs) ts := by
    induction n with
    | zero => exact reads
    | succ n ih => exact .blank rfl ih
  have spelled : (Json.newLine level).toList = '\n' :: List.replicate (2 * level) ' ' := by
    simp [Json.newLine]
  rw [spelled]
  exact .blank rfl (blanks _)

/-- Characters are read behind others that they end. -/
theorem Reads.append {cs rest : List Char} {c : Char} {ts us : List Token} (first : Reads cs ts)
    (ends : IsEnd c) (second : Reads (c :: rest) us) : Reads (cs ++ c :: rest) (ts ++ us) := by
  intro tokens
  obtain ⟨l, read, owes⟩ := first tokens
  obtain ⟨m, more, owed⟩ := second (ts.reverse ++ tokens)
  refine ⟨m, ?_, by simpa using owed⟩
  rw [List.foldlM_append, read, Option.bind_eq_bind, Option.bind_some]
  rw [List.foldlM_cons, owes.advance ends, ← List.foldlM_cons]
  exact more

/-- A digit is no other character. -/
theorem ne_of_isDigit {c d : Char} (digit : c.isDigit) (other : d.isDigit = false) : c ≠ d := by
  rintro rfl
  rw [digit] at other
  contradiction

/-- A minus or a digit starts a number. -/
theorem advance_first {c : Char} (first : c = '-' ∨ c.isDigit) (tokens : List Token) :
    Lexer.advance ⟨tokens, .between⟩ c = some ⟨tokens, .number [c]⟩ := by
  rcases first with rfl | digit
  · rfl
  · have other (d : Char) (noDigit : d.isDigit = false) : c ≠ d := ne_of_isDigit digit noDigit
    have visible : Lexer.isBlank c = false := by
      simp [Lexer.isBlank, other ' ' rfl, other '\n' rfl, other '\t' rfl, other '\r' rfl]
    simp only [Lexer.advance, Lexer.begin?, visible, other '{' rfl, other '}' rfl, other '[' rfl,
      other ']' rfl, other ':' rfl, other ',' rfl, other '"' rfl, digit, if_false, if_true,
      Bool.or_true, Bool.false_eq_true]

/-- A numeric character goes on with a number. -/
theorem advance_numeric {c : Char} (numeric : Lexer.isNumeric c) (tokens : List Token)
    (seen : List Char) :
    Lexer.advance ⟨tokens, .number seen⟩ c = some ⟨tokens, .number (c :: seen)⟩ := by
  simp [Lexer.advance, numeric]

/-- The characters of a literal are read as its number. -/
theorem reads_literal {n : Number} (literal : n.Literal) : Reads n.chars [.number n] := by
  intro tokens
  obtain ⟨c, rest, spelled, first⟩ := literal.first
  have digits : ∀ (cs seen : List Char), (∀ c ∈ cs, Lexer.isNumeric c) →
      cs.foldlM Lexer.advance ⟨tokens, .number seen⟩ =
        some ⟨tokens, .number (cs.reverse ++ seen)⟩ := by
    intro cs
    induction cs with
    | nil => intro seen _; rfl
    | cons d more ih =>
      intro seen numeric
      rw [List.foldlM_cons, advance_numeric (numeric d List.mem_cons_self)]
      simpa using ih (d :: seen) fun c member => numeric c (List.mem_cons_of_mem d member)
  refine ⟨⟨tokens, .number n.chars.reverse⟩, ?_, .number _ _ _ (by simpa using literal.spells)⟩
  have numeric : ∀ d ∈ rest, Lexer.isNumeric d := fun d member =>
    literal.numeric d (by simp [spelled, member])
  rw [spelled, List.foldlM_cons, advance_first first]
  simpa using digits rest [c] numeric

/-- A string that is written is read as it was. -/
theorem reads_writtenString (s : String) :
    Reads (writtenString (some s)).toList [.string (some s)] := by
  intro tokens
  have characters : ∀ (cs : List Char) (points : List Nat),
      (cs.flatMap fun c => (writtenChar c).toList).foldlM Lexer.advance ⟨tokens, .text points⟩ =
        some ⟨tokens, .text ((cs.map Char.toNat).reverse ++ points)⟩ := by
    intro cs
    induction cs with
    | nil => intro points; rfl
    | cons c rest ih =>
      intro points
      rw [List.flatMap_cons, List.foldlM_append, foldlM_writtenChar, Option.bind_eq_bind,
        Option.bind_some, ih]
      simp
  have spelled : (writtenString (some s)).toList =
      '"' :: ((s.toList.flatMap fun c => (writtenChar c).toList) ++ ['"']) := by
    simp [writtenString, List.flatMap_map]
  refine ⟨⟨.string (some s) :: tokens, .between⟩, ?_, .settled _⟩
  rw [spelled, List.foldlM_cons]
  have opening : Lexer.advance ⟨tokens, .between⟩ '"' = some ⟨tokens, .text []⟩ := rfl
  rw [opening, Option.bind_eq_bind, Option.bind_some, List.foldlM_append, characters]
  have token : Lexer.stringToken ((s.toList.map Char.toNat).reverse ++ []) = .string (some s) := by
    simp [Lexer.stringToken, join?_map_toNat]
  have closing : Lexer.advance ⟨tokens, .text ((s.toList.map Char.toNat).reverse ++ [])⟩ '"' =
      some ⟨.string (some s) :: tokens, .between⟩ := by
    rw [← token]
    rfl
  rw [Option.bind_eq_bind, Option.bind_some, List.foldlM_cons, closing]
  rfl

/-! ## Values -/

mutual

/-- A value that can be read back: its numbers are literals and its strings spell texts. -/
def Spelled : Json → Prop
  | null => True
  | bool _ => True
  | number n => n.Literal
  | string s => s.isSome
  | array elements => SpelledElements elements
  | object members => SpelledMembers members

/-- Elements that can all be read back. -/
def SpelledElements : List Json → Prop
  | [] => True
  | v :: rest => Spelled v ∧ SpelledElements rest

/-- Members that can all be read back. -/
def SpelledMembers : List (Option String × Json) → Prop
  | [] => True
  | (key, v) :: rest => key.isSome ∧ Spelled v ∧ SpelledMembers rest

end

mutual

/-- The tokens of a value. -/
def tokensOf : Json → List Token
  | null => [.null]
  | bool b => [.bool b]
  | number n => [.number n]
  | string s => [.string s]
  | array elements => .openBracket :: (elementTokens elements ++ [.closeBracket])
  | object members => .openBrace :: (memberTokens members ++ [.closeBrace])

/-- The tokens of elements, with a comma in front of each but the first. -/
def elementTokens : List Json → List Token
  | [] => []
  | v :: rest => tokensOf v ++ laterElementTokens rest

/-- The tokens of elements, with a comma in front of each. -/
def laterElementTokens : List Json → List Token
  | [] => []
  | v :: rest => .comma :: (tokensOf v ++ laterElementTokens rest)

/-- The tokens of members, with a comma in front of each but the first. -/
def memberTokens : List (Option String × Json) → List Token
  | [] => []
  | (key, v) :: rest => .string key :: .colon :: (tokensOf v ++ laterMemberTokens rest)

/-- The tokens of members, with a comma in front of each. -/
def laterMemberTokens : List (Option String × Json) → List Token
  | [] => []
  | (key, v) :: rest => .comma :: .string key :: .colon :: (tokensOf v ++ laterMemberTokens rest)

end

/-- Parts, each behind a comma on a line of a level. -/
def laterLines (level : Nat) (parts : List String) : List Char :=
  parts.flatMap fun part => ',' :: ((newLine level).toList ++ part.toList)

/-- Parts with commas between them. -/
theorem toList_intercalate_comma (part : String) (parts : List String) :
    (",".intercalate (part :: parts)).toList =
      part.toList ++ parts.flatMap fun part => ',' :: part.toList := by
  induction parts generalizing part with
  | nil => simp
  | cons next rest ih =>
    rw [String.intercalate_cons_cons, String.toList_append, String.toList_append, ih]
    simp

/-- A part and others over several lines. -/
theorem toList_enclosedLines (level : Nat) (opening closing part : String) (parts : List String) :
    (enclosedLines level opening closing (part :: parts)).toList =
      opening.toList ++ ((newLine (level + 1)).toList ++ (part.toList ++
        (laterLines (level + 1) parts ++ ((newLine level).toList ++ closing.toList)))) := by
  rw [enclosedLines, if_neg (List.cons_ne_nil _ _)]
  simp only [String.toList_append, List.map_cons, toList_intercalate_comma, laterLines,
    List.flatMap_map, List.append_assoc]

/-- The word of the null value is read as it. -/
theorem reads_null (level : Nat) : Reads (prettyAt level null).toList [.null] := by
  intro tokens
  rw [prettyAt]
  exact ⟨_, rfl, .word tokens "llun".toList .null rfl⟩

/-- The word of a truth value is read as it. -/
theorem reads_bool (b : Bool) (level : Nat) : Reads (prettyAt level (bool b)).toList [.bool b] := by
  intro tokens
  rw [prettyAt]
  cases b with
  | false => exact ⟨_, rfl, .word tokens "eslaf".toList (.bool false) rfl⟩
  | true => exact ⟨_, rfl, .word tokens "eurt".toList (.bool true) rfl⟩

/-- A new line ends what is in front of it. -/
theorem newLine_eq (level : Nat) :
    ∃ rest, (newLine level).toList = '\n' :: rest ∧ IsEnd '\n' :=
  ⟨List.replicate (2 * level) ' ', by simp [newLine], rfl, rfl⟩

/-- Lines and what is behind them start with a character that ends what is in front of them. -/
theorem exists_end_laterLines {c : Char} (ends : IsEnd c) (cs : List Char) (level : Nat)
    (parts : List String) :
    ∃ d ds, laterLines level parts ++ c :: cs = d :: ds ∧ IsEnd d := by
  cases parts with
  | nil => exact ⟨c, cs, rfl, ends⟩
  | cons part rest => exact ⟨',', _, rfl, rfl, rfl⟩

/-- What is between brackets on lines of its own is read between them. -/
theorem reads_enclosed {level : Nat} (opening closing : Char) {first last : Token}
    (opens : ∀ tokens, Lexer.advance ⟨tokens, .between⟩ opening = some ⟨first :: tokens, .between⟩)
    (closes : ∀ tokens, Lexer.advance ⟨tokens, .between⟩ closing = some ⟨last :: tokens, .between⟩)
    {part : String} {parts : List String} {ts us : List Token} (reads : Reads part.toList ts)
    (later : ∀ {c cs vs}, IsEnd c → Reads (c :: cs) vs →
      Reads (laterLines (level + 1) parts ++ c :: cs) (us ++ vs)) :
    Reads (enclosedLines level opening.toString closing.toString (part :: parts)).toList
      (first :: (ts ++ us ++ [last])) := by
  obtain ⟨blanks, spelled, ends⟩ := newLine_eq level
  have tail : Reads ('\n' :: (blanks ++ [closing])) [last] := by
    rw [← List.cons_append, ← spelled]
    exact (Reads.nil.cons closes).newLine level
  have rest := later ends tail
  obtain ⟨d, ds, behind, endsFirst⟩ := exists_end_laterLines ends (blanks ++ [closing]) (level + 1)
    parts
  rw [behind] at rest
  have lines := ((reads.append endsFirst rest).newLine (level + 1)).cons opens
  rw [toList_enclosedLines, spelled]
  simp only [Char.toString, String.toList_singleton, List.cons_append, List.nil_append, behind,
    List.append_assoc] at lines ⊢
  exact lines

/-- Brackets with nothing between them are read as they are. -/
theorem reads_empty (opening closing : Char) {level : Nat} {first last : Token}
    (opens : ∀ tokens, Lexer.advance ⟨tokens, .between⟩ opening = some ⟨first :: tokens, .between⟩)
    (closes :
      ∀ tokens, Lexer.advance ⟨tokens, .between⟩ closing = some ⟨last :: tokens, .between⟩) :
    Reads (enclosedLines level opening.toString closing.toString []).toList [first, last] := by
  simpa [enclosedLines, Char.toString] using (Reads.nil.cons closes).cons opens

/-- A member is read as its key, a colon and its value. -/
theorem reads_member (key : String) {value : String} {ts : List Token}
    (reads : Reads value.toList ts) :
    Reads (writtenString (some key) ++ ": " ++ value).toList
      (.string (some key) :: .colon :: ts) := by
  have colon : Reads (':' :: ' ' :: value.toList) (.colon :: ts) :=
    (reads.blank rfl).cons fun _ => rfl
  have member := (reads_writtenString key).append ⟨rfl, rfl⟩ colon
  simpa using member

/-- A part on a line of its own is read behind a comma, in front of further lines. -/
theorem reads_line {level : Nat} {part : String} {parts : List String} {c : Char} {cs : List Char}
    {ts us : List Token} (reads : Reads part.toList ts) (ends : IsEnd c)
    (later : Reads (laterLines level parts ++ c :: cs) us) :
    Reads (laterLines level (part :: parts) ++ c :: cs) (.comma :: (ts ++ us)) := by
  obtain ⟨d, ds, spelled, endsFirst⟩ := exists_end_laterLines ends cs level parts
  rw [spelled] at later
  have line := ((reads.append endsFirst later).newLine level).cons (c := ',') (t := .comma)
    fun _ => rfl
  simp only [laterLines, List.flatMap_cons, List.cons_append, List.append_assoc] at spelled line ⊢
  rw [spelled]
  exact line

mutual

/-- A value that is written over several lines is read as its tokens. -/
theorem reads_prettyAt : ∀ (v : Json), Spelled v → ∀ level,
    Reads (prettyAt level v).toList (tokensOf v)
  | null, _, level => reads_null level
  | bool b, _, level => reads_bool b level
  | number n, spelled, _ => by
    rw [Spelled] at spelled
    rw [prettyAt, tokensOf, String.toList_ofList]
    exact reads_literal spelled
  | string s, spelled, _ => by
    rw [Spelled] at spelled
    obtain ⟨s, rfl⟩ := Option.isSome_iff_exists.1 spelled
    rw [prettyAt, tokensOf]
    exact reads_writtenString s
  | array [], _, _ => reads_empty '[' ']' (fun _ => rfl) (fun _ => rfl)
  | array (v :: rest), spelled, level => by
    rw [Spelled, SpelledElements] at spelled
    rw [prettyAt, tokensOf, prettyElements, elementTokens]
    exact reads_enclosed '[' ']' (fun _ => rfl) (fun _ => rfl)
      (reads_prettyAt v spelled.1 (level + 1))
      (fun ends behind => reads_laterElements rest spelled.2 (level + 1) ends behind)
  | object [], _, _ => reads_empty '{' '}' (fun _ => rfl) (fun _ => rfl)
  | object ((key, v) :: rest), spelled, level => by
    rw [Spelled, SpelledMembers] at spelled
    obtain ⟨key, rfl⟩ := Option.isSome_iff_exists.1 spelled.1
    have first := reads_member key (reads_prettyAt v spelled.2.1 (level + 1))
    rw [prettyAt, tokensOf, prettyMembers, memberTokens]
    exact reads_enclosed '{' '}' (fun _ => rfl) (fun _ => rfl) first
      (fun ends behind => reads_laterMembers rest spelled.2.2 (level + 1) ends behind)

/-- Elements behind others are read as their tokens, in front of what ends the last one. -/
theorem reads_laterElements : ∀ (elements : List Json), SpelledElements elements → ∀ level
    {c : Char} {cs : List Char} {ts : List Token}, IsEnd c → Reads (c :: cs) ts →
      Reads (laterLines level (prettyElements level elements) ++ c :: cs)
        (laterElementTokens elements ++ ts)
  | [], _, _, _, _, _, _, behind => behind
  | v :: rest, spelled, level, c, cs, ts, ends, behind => by
    rw [SpelledElements] at spelled
    have line := reads_line (reads_prettyAt v spelled.1 level) ends
      (reads_laterElements rest spelled.2 level ends behind)
    rw [prettyElements, laterElementTokens, List.cons_append, List.append_assoc]
    exact line

/-- Members behind others are read as their tokens, in front of what ends the last one. -/
theorem reads_laterMembers : ∀ (members : List (Option String × Json)), SpelledMembers members →
    ∀ level {c : Char} {cs : List Char} {ts : List Token}, IsEnd c → Reads (c :: cs) ts →
      Reads (laterLines level (prettyMembers level members) ++ c :: cs)
        (laterMemberTokens members ++ ts)
  | [], _, _, _, _, _, _, behind => behind
  | (key, v) :: rest, spelled, level, c, cs, ts, ends, behind => by
    rw [SpelledMembers] at spelled
    obtain ⟨key, rfl⟩ := Option.isSome_iff_exists.1 spelled.1
    have line := reads_line (reads_member key (reads_prettyAt v spelled.2.1 level)) ends
      (reads_laterMembers rest spelled.2.2 level ends behind)
    rw [prettyMembers, laterMemberTokens]
    simpa using line

end

/-! ## Reading values -/

/-- A value is due: any token but the bracket that closes an empty array is taken for one. -/
def Due (frames : List Frame) (e : Expect) : Prop :=
  ∀ t, t ≠ .closeBracket → Reader.advance ⟨frames, e⟩ t = Reader.takeValue frames t

/-- A value is due where it is expected. -/
theorem due_value (frames : List Frame) : Due frames .value := fun _ _ => rfl

/-- A value is due in a new array. -/
theorem due_firstElement (frames : List Frame) : Due (.array [] :: frames) .firstElement := by
  intro t other
  cases t with
  | closeBracket => contradiction
  | _ => rfl

mutual

/-- The tokens of a value are taken as it, where one is due. -/
theorem foldlM_tokensOf : ∀ (v : Json) {frames : List Frame} {e : Expect}, Due frames e →
    (tokensOf v).foldlM Reader.advance ⟨frames, e⟩ = some (Reader.complete v frames)
  | null, _, _, due => by
    rw [tokensOf, List.foldlM_cons, due .null (by simp)]
    rfl
  | bool b, _, _, due => by
    rw [tokensOf, List.foldlM_cons, due (.bool b) (by simp)]
    rfl
  | number n, _, _, due => by
    rw [tokensOf, List.foldlM_cons, due (.number n) (by simp)]
    rfl
  | string s, _, _, due => by
    rw [tokensOf, List.foldlM_cons, due (.string s) (by simp)]
    rfl
  | array [], _, _, due => by
    rw [tokensOf, List.foldlM_cons, due .openBracket (by simp)]
    rfl
  | array (v :: rest), frames, _, due => by
    have first := foldlM_tokensOf v (due_firstElement frames)
    have later := foldlM_laterElementTokens rest [v] frames
    rw [Reader.complete] at first
    rw [tokensOf, elementTokens, List.foldlM_cons, due .openBracket (by simp)]
    simp only [Reader.takeValue, Option.bind_eq_bind, Option.bind_some, List.foldlM_append, first,
      later]
    simp [Reader.advance]
  | object [], _, _, due => by
    rw [tokensOf, List.foldlM_cons, due .openBrace (by simp)]
    rfl
  | object ((key, v) :: rest), frames, _, due => by
    have first := foldlM_tokensOf v (due_value (.object [] key :: frames))
    obtain ⟨last, later⟩ := foldlM_laterMemberTokens rest [(key, v)] key frames
    rw [Reader.complete] at first
    rw [tokensOf, memberTokens, List.foldlM_cons, due .openBrace (by simp)]
    simp only [Reader.takeValue, Option.bind_eq_bind, Option.bind_some, List.cons_append,
      List.foldlM_cons, Reader.advance, List.foldlM_append, first, later]
    simp

/-- The tokens of further elements are taken as them. -/
theorem foldlM_laterElementTokens : ∀ (elements before : List Json) (frames : List Frame),
    (laterElementTokens elements).foldlM Reader.advance ⟨.array before :: frames, .separator⟩ =
      some ⟨.array (elements.reverse ++ before) :: frames, .separator⟩
  | [], _, _ => rfl
  | v :: rest, before, frames => by
    have first := foldlM_tokensOf v (due_value (.array before :: frames))
    have later := foldlM_laterElementTokens rest (v :: before) frames
    simp only [laterElementTokens, List.foldlM_cons, Reader.advance, Option.bind_eq_bind,
      Option.bind_some, List.foldlM_append, first, Reader.complete, later]
    simp

/-- The tokens of further members are taken as them. -/
theorem foldlM_laterMemberTokens : ∀ (members before : List (Option String × Json))
    (key : Option String) (frames : List Frame),
    ∃ last, (laterMemberTokens members).foldlM Reader.advance
      ⟨.object before key :: frames, .separator⟩ =
        some ⟨.object (members.reverse ++ before) last :: frames, .separator⟩
  | [], _, key, _ => ⟨key, rfl⟩
  | (key, v) :: rest, before, _, frames => by
    have first := foldlM_tokensOf v (due_value (.object before key :: frames))
    obtain ⟨last, later⟩ := foldlM_laterMemberTokens rest ((key, v) :: before) key frames
    refine ⟨last, ?_⟩
    simp only [laterMemberTokens, List.foldlM_cons, Reader.advance, Option.bind_eq_bind,
      Option.bind_some, List.foldlM_append, first, Reader.complete, later]
    simp

end

/-- The tokens of a value are read as it. -/
theorem ofTokens?_tokensOf (v : Json) : ofTokens? (tokensOf v) = some v := by
  rw [ofTokens?, Reader.start, foldlM_tokensOf v (due_value [])]
  rfl

/-- A value that is written over several lines is read back. -/
theorem parse?_pretty {v : Json} (spelled : Spelled v) : parse? v.pretty = some v := by
  obtain ⟨l, read, owes⟩ := reads_prettyAt v spelled 0 []
  have tokens : tokens? v.pretty = some (tokensOf v) := by
    rw [tokens?, pretty, Lexer.start, read, Option.bind_some, owes.finish]
    simp
  rw [parse?, tokens, Option.bind_some, ofTokens?_tokensOf]

end SeenStates.Json
