import ScriptLang.Source.Position

/-!
# Spans of text

A `Span` runs from the position of a first character to the position of a last one, both
included. Two spans add up to the smallest span around both, and a span is written in messages as
the place where it begins.
-/

namespace ScriptLang

/-- The stretch of text from its first character to its last. -/
structure Span where
  first : Position
  last : Position
deriving DecidableEq, Repr

namespace Span

/-- The span of the one character at `p`, also used for a place where nothing stands. -/
def point (p : Position) : Span := ⟨p, p⟩

/-- The span of the characters `cs` written at `p`; of no characters, the place itself. -/
def covering (p : Position) (cs : List Char) : Span := ⟨p, p.advance cs.dropLast⟩

@[simp] theorem covering_nil (p : Position) : covering p [] = point p := rfl

@[simp] theorem covering_singleton (p : Position) (c : Char) : covering p [c] = point p := rfl

/-- The smallest span around both: it begins where the earlier one does and ends where the later
one does. -/
protected def add (s t : Span) : Span where
  first := if s.first ≤ t.first then s.first else t.first
  last := if t.last ≤ s.last then s.last else t.last

instance : Add Span := ⟨Span.add⟩

/-- A span is written as the line and the column where it begins. -/
protected def toString (s : Span) : String :=
  toString s.first.line ++ ":" ++ toString s.first.column

instance : ToString Span := ⟨Span.toString⟩

end Span

end ScriptLang
