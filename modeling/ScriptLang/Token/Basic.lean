import ScriptLang.Source.Span
import ScriptLang.Token.Kind

/-!
# Tokens

A token carries its text and the span of the script that it was read from. The text of a string
is what stands between its quotes.
-/

namespace ScriptLang

/-- A token: its kind, its text and where it stands. -/
structure Token where
  kind : TokenKind
  text : String
  span : Span
deriving DecidableEq, Repr

namespace Token

/-- The token that ends every script, at the place where the script ends. -/
def endOfInput (p : Position) : Token := ⟨.endOfInput, "", .point p⟩

@[simp] theorem kind_endOfInput (p : Position) : (endOfInput p).kind = .endOfInput := rfl

end Token

end ScriptLang
