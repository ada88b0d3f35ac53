import ScriptLang.Text.Alphabetic
import ScriptLang.Token.Kind

/-!
# Recognisers of lexemes

A recogniser looks at the front of a text and finds one kind of thing there, or nothing. Reading
a script is asking several recognisers at once and following the longest answer (`longest?`).

* `longest?_mem` — the longest answer is the answer of one of the recognisers.
* `Lexeme.recognisers` — the recognisers of the tokens: one per symbol, one for words, one for
  quoted strings and one for numbers.
-/

namespace ScriptLang

/-- **A find at the front of a text:** what it is and how many characters it takes. It takes at
least one, so whoever follows finds gets through any text. -/
structure Found (α : Type) where
  label : α
  length : Nat
  length_pos : 0 < length

/-- The same find under another label. -/
def Found.map {α β : Type} (f : α → β) (m : Found α) : Found β :=
  ⟨f m.label, m.length, m.length_pos⟩

/-- What a recogniser finds at the front of a text. -/
abbrev Recogniser (α : Type) := List Char → Option (Found α)

namespace Recogniser

variable {α : Type}

/-- The longest find of all the recognisers, the first of several. -/
def longest? (rs : List (Recogniser α)) (cs : List Char) : Option (Found α) :=
  (rs.filterMap (· cs)).maxOn? Found.length

/-- The longest find is the find of one of the recognisers. -/
theorem longest?_mem {rs : List (Recogniser α)} {cs : List Char} {m : Found α}
    (h : longest? rs cs = some m) : ∃ r ∈ rs, r cs = some m := by
  simpa using List.maxOn?_mem h

/-- A find of the first `n` characters, if there are any. -/
def found? (label : α) (n : Nat) : Option (Found α) :=
  if h : 0 < n then some ⟨label, n, h⟩ else none

/-- The run of characters in a class at the front, as far as it goes, labelled by its text. -/
def runOf (inClass : Char → Bool) (label : List Char → α) : Recogniser α := fun cs =>
  found? (label (cs.takeWhile inClass)) (cs.takeWhile inClass).length

end Recogniser

/-! ### The lexemes of scripts -/

namespace Lexeme

open Recogniser

/-- May the character stand in a word? -/
def isWordCharacter (c : Char) : Bool := isAlphabetic c || c = '_'

/-- May the character stand between tokens? -/
def isBlank (c : Char) : Bool := c = ' ' || c = '\t' || c = '\n' || c = '\r'

/-- The kind of a word: a keyword's own, and otherwise an identifier. -/
def wordKind (word : List Char) : TokenKind := (keyword (String.ofList word)).getD .identifier

/-- Finds a symbol by its spelling. -/
def symbol (kind : TokenKind) : Recogniser TokenKind := fun cs =>
  if kind.describe.toList <+: cs then found? kind kind.describe.length else none

/-- Finds a word, which takes all the word characters there are. -/
def word : Recogniser TokenKind := runOf isWordCharacter wordKind

/-- Finds a number: a run of the ASCII digits. -/
def number : Recogniser TokenKind := runOf Char.isDigit fun _ => .number

/-- Finds a quoted string, both quotes included. Nothing is special between the quotes, not even
the end of a line. -/
def string : Recogniser TokenKind
  | '"' :: cs =>
    let body := cs.takeWhile (· ≠ '"')
    if body.length < cs.length then some ⟨.string, body.length + 2, by omega⟩ else none
  | _ => none

/-- The recognisers of all tokens. -/
def recognisers : List (Recogniser TokenKind) :=
  TokenKind.symbols.map symbol ++ [word, string, number]

end Lexeme

end ScriptLang
