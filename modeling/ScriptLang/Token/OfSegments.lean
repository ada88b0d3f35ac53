import ScriptLang.Segment
import ScriptLang.Token.Basic

/-!
# The tokens of a script

The tokens are read off the segments of a script: each lexeme becomes one token, and one token
more says where the script ends. The skipped characters are kept beside them, for warnings.

* `tokenize` — the tokens of a script, or the quote that is never closed.
-/

namespace ScriptLang

/-- A character that belongs to no token, and where it stands. -/
structure SkippedCharacter where
  character : Char
  span : Span
deriving DecidableEq, Repr

/-- Why a script has no tokens. -/
inductive LexicalError where
  /-- The quote at `span` opens a string that nothing closes. -/
  | unterminatedString (span : Span)
deriving DecidableEq, Repr

namespace LexicalError

/-- The error in words. -/
def message : LexicalError → String
  | unterminatedString span => "Unterminated string starting at " ++ toString span

end LexicalError

/-- The text that a token carries, given its lexeme: a string leaves its two quotes behind. -/
def Lexeme.content (kind : TokenKind) (lexeme : List Char) : List Char :=
  if kind = .string then lexeme.tail.dropLast else lexeme

namespace Segment

/-- The token that a segment is, if it is one. -/
def token? (s : Segment) : Option Token :=
  match s.kind with
  | .token kind => some ⟨kind, String.ofList (Lexeme.content kind s.text), s.span⟩
  | _ => none

/-- The character that a segment skips, if it does. -/
def skipped? (s : Segment) : Option SkippedCharacter :=
  match s.kind, s.text with
  | .skipped, c :: _ => some ⟨c, s.span⟩
  | _, _ => none

end Segment

namespace Division

/-- The tokens of the segments. -/
def tokens (d : Division) : List Token := d.segments.filterMap Segment.token?

/-- The characters that the segments skip. -/
def skipped (d : Division) : List SkippedCharacter := d.segments.filterMap Segment.skipped?

/-- The token that ends the division, or what it is stopped by. -/
def last (d : Division) : Except LexicalError Token :=
  match d.ending with
  | .complete p => .ok (.endOfInput p)
  | .unclosedQuote p => .error (.unterminatedString (.point p))

end Division

/-- **The tokens of a script,** the end of input included. -/
def tokenize (source : String) : Except LexicalError (List Token) :=
  let d := divide source.toList
  d.last.map fun last => d.tokens ++ [last]

/-- The characters of a script that belong to no token. -/
def skippedCharacters (source : String) : List SkippedCharacter :=
  (divide source.toList).skipped

end ScriptLang
