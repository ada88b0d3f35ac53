import ScriptLang.Proofs.Token.Delivery

/-!
# Scripts on lines of their own

Where a text begins decides where everything in it stands, but only by so much: a text that begins
some lines further down delivers the same, as many lines further down and in the same columns.
A line break ends whatever may be going on in front of it and begins a line in its first column.
Together this makes reading local: two scripts with a line break between them are read one after the
other, each as if it were alone.

* `Position.down` — so many lines further down; likewise for all that has a position.
* `deliver_down` — a text further down delivers the same further down.
* `tokenize_lines` — the tokens of two scripts with a line break between them.
-/

namespace ScriptLang

open Recogniser Lexeme Segment

/-! ### Further down -/

/-- The position `k` lines further down, in the same column. -/
def Position.down (k : Nat) (p : Position) : Position := ⟨p.line + k, p.column⟩

/-- The span `k` lines further down. -/
def Span.down (k : Nat) (s : Span) : Span := ⟨s.first.down k, s.last.down k⟩

/-- The token `k` lines further down. -/
def Token.down (k : Nat) (t : Token) : Token := { t with span := t.span.down k }

/-- The skipped character `k` lines further down. -/
def SkippedCharacter.down (k : Nat) (c : SkippedCharacter) : SkippedCharacter :=
  { c with span := c.span.down k }

/-- The error `k` lines further down. -/
def LexicalError.down (k : Nat) : LexicalError → LexicalError
  | unterminatedString span => unterminatedString (span.down k)

/-- The ending `k` lines further down. -/
def Ending.down (k : Nat) : Ending → Ending
  | complete p => complete (p.down k)
  | unclosedQuote p => unclosedQuote (p.down k)

/-- The segment `k` lines further down. -/
def Segment.down (k : Nat) (s : Segment) : Segment := { s with span := s.span.down k }

/-- All that is delivered, `k` lines further down. -/
def Delivery.down (k : Nat) (d : Delivery) : Delivery :=
  ⟨d.tokens.map (Token.down k), d.skipped.map (SkippedCharacter.down k), d.ending.down k⟩

/-- The next position stays as far down as the position was. -/
private theorem next_down (k : Nat) (p : Position) (c : Char) :
    (p.down k).next c = (p.next c).down k := by
  unfold Position.next
  split
  · rw [Position.down, Position.down, Nat.add_right_comm]
  · rfl

theorem Position.advance_down (k : Nat) (p : Position) (cs : List Char) :
    (p.down k).advance cs = (p.advance cs).down k := by
  induction cs generalizing p with
  | nil => rfl
  | cons c cs ih => rw [advance_cons, advance_cons, next_down, ih]

private theorem covering_down (k : Nat) (p : Position) (cs : List Char) :
    Span.covering (p.down k) cs = (Span.covering p cs).down k := by
  rw [Span.covering, Span.covering, Position.advance_down]
  rfl

/-- What a segment delivers is as far down as the segment. -/
private theorem behind_down (k : Nat) (s : Segment) (d : Delivery) :
    (d.down k).behind (s.down k) = (d.behind s).down k := by
  have h_token : (s.down k).token? = s.token?.map (Token.down k) := by
    obtain ⟨kind, text, span⟩ := s
    cases kind <;> rfl
  have h_skipped : (s.down k).skipped? = s.skipped?.map (SkippedCharacter.down k) := by
    obtain ⟨kind, text, span⟩ := s
    cases kind <;> cases text <;> rfl
  simp only [Delivery.behind, Delivery.down, h_token, h_skipped, Option.toList_map,
    List.map_append]

/-- **A text further down delivers the same** further down. -/
theorem deliver_down (k : Nat) (p : Position) (cs : List Char) :
    deliver (p.down k) cs = (deliver p cs).down k := by
  -- along the segments, behind each of which the position is as far down as before
  induction cs using Segment.text_induction generalizing p with
  | nil =>
    rw [deliver_nil, deliver_nil]
    rfl
  | unclosed cs h_open =>
    rw [deliver_unclosed _ h_open, deliver_unclosed _ h_open]
    rfl
  | segment kind text rest h_stands ih =>
    calc
      deliver (p.down k) (text ++ rest)
        = (deliver ((p.down k).advance text) rest).behind
            ⟨kind, text, .covering (p.down k) text⟩ := deliver_segment _ h_stands
      _ = ((deliver (p.advance text) rest).down k).behind
            (Segment.down k ⟨kind, text, .covering p text⟩) := by
          rw [Position.advance_down, ih, covering_down]
          rfl
      _ = (deliver p (text ++ rest)).down k := by
          rw [behind_down, ← deliver_segment p h_stands]

/-! ### Lines -/

/-- A line break behind a text leads to the first column, further down by the line breaks there
are. -/
private theorem next_advance_start (cs : List Char) :
    (Position.start.advance cs).next '\n' = Position.start.down (1 + cs.count '\n') := by
  rw [Position.advance_start, Position.next, if_pos rfl, Nat.add_comm]
  rfl

/-- What is reported further down. -/
private theorem report_down (k : Nat) (earlier d : Delivery) :
    (earlier.after (d.down k)).report =
      match d.report with
      | .ok tokens => .ok (earlier.tokens ++ tokens.map (Token.down k))
      | .error e => .error (e.down k) := by
  obtain ⟨tokens, skipped, ending⟩ := d
  cases ending with
  | complete p =>
    simp only [Delivery.report, Delivery.after, Delivery.down, Ending.down, List.map_append,
      List.append_assoc]
    rfl
  | unclosedQuote p => rfl

/-- **A line break keeps two scripts apart.** If the first script is read to its end, then with a
line break and the second script behind it, it has the tokens that it has alone, but for the one that
ends it, and then come those of the second, as many lines further down as the first script takes and
in the same columns; likewise for the skipped characters. If the second script is not read to its
end, then neither are the two together, for the same reason as many lines further down. -/
theorem tokenize_lines {a : String} {tokens : List Token} (h : tokenize a = .ok tokens)
    (b : String) : ∃ body p, tokens = body ++ [Token.endOfInput p] ∧
      (tokenize (a ++ "\n" ++ b) =
        match tokenize b with
        | .ok tokens' => .ok (body ++ tokens'.map (Token.down (1 + a.toList.count '\n')))
        | .error e => .error (e.down (1 + a.toList.count '\n'))) ∧
      skippedCharacters (a ++ "\n" ++ b) = skippedCharacters a ++
        (skippedCharacters b).map (SkippedCharacter.down (1 + a.toList.count '\n')) := by
  rw [tokenize_eq_report, Delivery.report_eq_ok] at h
  obtain ⟨p, h_ending, h_tokens⟩ := h
  have h_text : (a ++ "\n" ++ b).toList = a.toList ++ '\n' :: b.toList := by
    rw [String.toList_append, String.toList_append, List.append_assoc]
    rfl
  -- the first script ends where its characters lead, and the second begins a line behind it
  have h_end : p = Position.start.advance a.toList := eq_advance_of_complete h_ending
  have h_delivery : deliver .start (a ++ "\n" ++ b).toList =
      (deliver .start a.toList).after
        ((deliver .start b.toList).down (1 + a.toList.count '\n')) := by
    rw [h_text, deliver_line h_ending, h_end, next_advance_start, deliver_down]
  refine ⟨_, p, h_tokens, ?_, ?_⟩
  · -- whether there are tokens is up to the second script
    rw [tokenize_eq_report, tokenize_eq_report, h_delivery, report_down]
  · rw [skippedCharacters_eq, h_delivery]
    rfl

/-- An exclamation mark at the end of one line and an equals sign at the beginning of the next are
not read as one symbol. -/
theorem tokenize_lines_of_bang :
    tokenize "x\n!" = .ok [⟨.identifier, "x", .point .start⟩, .endOfInput ⟨2, 2⟩] ∧
      tokenize "x\n!\n= @" = .ok [⟨.identifier, "x", .point .start⟩, ⟨.equal, "=", .point ⟨3, 1⟩⟩,
        .endOfInput ⟨3, 4⟩] ∧
      skippedCharacters "x\n!\n= @" = [⟨'!', .point ⟨2, 1⟩⟩, ⟨'@', .point ⟨3, 3⟩⟩] := by
  have h_first : tokenize "x\n!" =
      .ok [⟨.identifier, "x", .point .start⟩, .endOfInput ⟨2, 2⟩] := by decide +kernel
  have h_second : tokenize "= @" = .ok [⟨.equal, "=", .point .start⟩, .endOfInput ⟨1, 4⟩] := by
    decide +kernel
  obtain ⟨body, p, h_body, h_tokens, h_skipped⟩ := tokenize_lines h_first "= @"
  -- the tokens of the first script in front of its end are one name
  obtain ⟨rfl, -⟩ := List.append_inj' (show [_] ++ [_] = body ++ [_] from h_body) rfl
  refine ⟨h_first, ?_, ?_⟩
  · rw [h_second] at h_tokens
    exact h_tokens
  · have h_each : skippedCharacters "x\n!" = [⟨'!', .point ⟨2, 1⟩⟩] ∧
        skippedCharacters "= @" = [⟨'@', .point ⟨1, 3⟩⟩] := by decide +kernel
    rw [h_each.1, h_each.2] at h_skipped
    exact h_skipped

end ScriptLang
