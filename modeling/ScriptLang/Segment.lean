import ScriptLang.Source.Span
import ScriptLang.Token.Recogniser

/-!
# A script as a row of segments

Reading a script's characters divides it, with nothing left over, into segments: blank runs,
comments, lexemes of tokens, and single characters that belong to no token and are skipped. The
division stops early only at a quote that is never closed.

* `divide` — the division of a text.
* `divideFrom_cons` — its one step: the segment in front, and the division of what follows it.
-/

namespace ScriptLang

/-- What a segment is: white space, a comment, a character that no token can begin with, or the
lexeme of a token. -/
inductive SegmentKind where
  | blank
  | comment
  | skipped
  | token (kind : TokenKind)
deriving DecidableEq, Repr

/-- **A segment of a script:** what it is, its characters and where they stand. -/
structure Segment where
  kind : SegmentKind
  text : List Char
  span : Span
deriving DecidableEq, Repr

/-- How a division ends, and where: at the end of the text, or at a quote that is never closed. -/
inductive Ending where
  | complete (position : Position)
  | unclosedQuote (position : Position)
deriving DecidableEq, Repr

/-- A text divided into segments, as far as that goes. -/
structure Division where
  segments : List Segment
  ending : Ending
deriving DecidableEq, Repr

namespace Segment

open Recogniser

/-- Finds a run of white space. -/
def blank : Recogniser SegmentKind := runOf Lexeme.isBlank fun _ => .blank

/-- Finds a comment: from a hash sign up to the end of its line, without the line feed. -/
def comment : Recogniser SegmentKind
  | '#' :: cs => some ⟨.comment, (cs.takeWhile (· ≠ '\n')).length + 1, by omega⟩
  | _ => none

/-- The recognisers of what stands between tokens. -/
def trivia : List (Recogniser SegmentKind) := [blank, comment]

variable (between : List (Recogniser SegmentKind)) (lexemes : List (Recogniser TokenKind))

/-- **What stands at the front of the text `c :: cs`:** something between tokens, else a token,
else a single character to skip. A quote that begins no token is never closed, and nothing stands
there. -/
def front? (c : Char) (cs : List Char) : Option (Found SegmentKind) :=
  (longest? between (c :: cs)).or <|
    ((longest? lexemes (c :: cs)).map (Found.map SegmentKind.token)).or <|
      if c = '"' then none else some ⟨.skipped, 1, by omega⟩

/-- The division of a text that begins at the position `p`, by the given recognisers. -/
def divideFrom (p : Position) : List Char → Division
  | [] => ⟨[], .complete p⟩
  | c :: cs =>
    match front? between lexemes c cs with
    | none => ⟨[], .unclosedQuote p⟩
    | some m =>
      let text := (c :: cs).take m.length
      let following := divideFrom (p.advance text) ((c :: cs).drop m.length)
      ⟨⟨m.label, text, .covering p text⟩ :: following.segments, following.ending⟩
-- no find is empty, so there is less text behind it
termination_by cs => cs.length
decreasing_by have := m.length_pos; simp only [List.length_drop, List.length_cons]; omega

@[simp] theorem divideFrom_nil (p : Position) :
    divideFrom between lexemes p [] = ⟨[], .complete p⟩ := by simp [divideFrom]

/-- One step of a division: the segment in front, then the division of what follows it. -/
theorem divideFrom_cons (p : Position) (c : Char) (cs : List Char) :
    divideFrom between lexemes p (c :: cs) =
      match front? between lexemes c cs with
      | none => ⟨[], .unclosedQuote p⟩
      | some m =>
        let text := (c :: cs).take m.length
        let following := divideFrom between lexemes (p.advance text) ((c :: cs).drop m.length)
        ⟨⟨m.label, text, .covering p text⟩ :: following.segments, following.ending⟩ := by
  rw [divideFrom]

end Segment

/-- The division of a whole text into segments. -/
def divide (cs : List Char) : Division :=
  Segment.divideFrom Segment.trivia Lexeme.recognisers .start cs

end ScriptLang
