import ScriptLang.Proofs.Token.Delivery
import ScriptLang.Script

/-!
# Scripts without their noise

Comments and skipped characters are noise: with spaces in their place a script is read as before,
each token where it was. A space keeps apart what the noise kept apart, for neither goes on with a
lexeme, and it takes up as much of its line as the character that it stands for, for no line feed is
ever noise.

* `clean` — a script with spaces in place of its comments and its skipped characters.
* `deliver_cleanFrom` — a text delivers the same without its noise, except that nothing is skipped.
* `clean_alike` — a script without its noise has the same tokens, spells the same program and runs
  alike.
-/

namespace ScriptLang

open Recogniser Lexeme Segment

/-- The text of a segment of the kind, or as many spaces if such segments are noise. -/
def SegmentKind.cleaned (text : List Char) : SegmentKind → List Char
  | comment | skipped => List.replicate text.length ' '
  | blank | token _ => text

/-- The text `cs` of a division with spaces in place of its noise. What the division leaves over,
behind a quote that is never closed, stays as it is. -/
def Division.cleaned (d : Division) (cs : List Char) : List Char :=
  d.segments.flatMap (fun s => s.kind.cleaned s.text) ++
    cs.drop (d.segments.flatMap Segment.text).length

/-- **The script without its noise:** a space stands in place of every character of a comment and of
every character that is skipped. -/
def clean (source : String) : String :=
  String.ofList ((divide source.toList).cleaned source.toList)

/-! ### Segment by segment -/

/-- The text that begins at the position `p`, without its noise. -/
def cleanFrom (p : Position) (cs : List Char) : List Char :=
  (divideFrom trivia recognisers p cs).cleaned cs

private theorem cleanFrom_nil (p : Position) : cleanFrom p [] = [] := by
  rw [cleanFrom, divideFrom_nil]
  rfl

private theorem cleanFrom_unclosed (p : Position) {cs : List Char} (h : '"' ∉ cs) :
    cleanFrom p ('"' :: cs) = '"' :: cs := by
  rw [cleanFrom, divideFrom_unclosed p h]
  rfl

private theorem cleanFrom_segment (p : Position) {kind : SegmentKind} {text rest : List Char}
    (h : StandsBefore kind text rest) :
    cleanFrom p (text ++ rest) = kind.cleaned text ++ cleanFrom (p.advance text) rest := by
  rw [cleanFrom, divideFrom_segment p h, Division.cleaned, cleanFrom, Division.cleaned]
  simp only [List.flatMap_cons, List.append_assoc, List.length_append, List.drop_append,
    List.drop_eq_nil_of_le (Nat.le_add_right _ _), Nat.add_sub_cancel_left, List.nil_append]

/-- **What comes first** in a text without its noise is what came first before, or a blank. -/
private theorem head?_cleanFrom (p : Position) (cs : List Char) :
    ∀ c ∈ (cleanFrom p cs).head?, c ∈ cs.head? ∨ isBlank c = true := by
  intro c h_c
  induction cs using Segment.text_induction with
  | nil =>
    rw [cleanFrom_nil] at h_c
    cases h_c
  | unclosed cs h_open =>
    rw [cleanFrom_unclosed p h_open] at h_c
    exact .inl h_c
  | segment kind text rest h_stands _ =>
    rw [cleanFrom_segment p h_stands] at h_c
    obtain ⟨d, ds, rfl⟩ := List.exists_cons_of_ne_nil (standsBefore_iff.1 h_stands).1.ne_nil
    -- the segment is not empty, so what comes first is its first character, or the space for it
    cases kind with
    | blank | token _ => exact .inl h_c
    | comment | skipped =>
      obtain rfl : ' ' = c := Option.some.inj h_c
      exact .inr rfl

/-- **Noise is within a line.** -/
private theorem newline_not_mem_noise {kind : SegmentKind} {text : List Char}
    (h : kind.IsText text) (h_noise : kind = .comment ∨ kind = .skipped) : '\n' ∉ text := by
  rcases h_noise with rfl | rfl
  · obtain ⟨line, rfl, h_line⟩ := SegmentKind.isText_comment.1 h
    intro h_mem
    exact h_line ((List.mem_cons.1 h_mem).resolve_left (by decide))
  · obtain ⟨c, rfl, h_c⟩ := SegmentKind.isText_skipped.1 h
    rw [List.mem_singleton]
    rintro rfl
    cases h_c.blank

/-- Spaces in place of noise lead to the same position and deliver nothing. -/
private theorem deliver_spaces (p : Position) {text : List Char} (h : '\n' ∉ text)
    (rest : List Char) :
    deliver p (List.replicate text.length ' ' ++ rest) = deliver (p.advance text) rest := by
  have h_blank : ∀ c ∈ List.replicate text.length ' ', isBlank c = true := by
    intro c h_c
    rw [List.eq_of_mem_replicate h_c]
    rfl
  have h_line : '\n' ∉ List.replicate text.length ' ' := by
    intro h_mem
    exact absurd (List.eq_of_mem_replicate h_mem) (by decide)
  rw [deliver_blanks p h_blank, Position.advance_within_line p h_line, List.length_replicate,
    Position.advance_within_line p h]

/-- **A text delivers the same without its noise,** except that nothing is skipped. -/
theorem deliver_cleanFrom (p : Position) (cs : List Char) :
    deliver p (cleanFrom p cs) = { deliver p cs with skipped := [] } := by
  induction cs using Segment.text_induction generalizing p with
  | nil =>
    rw [cleanFrom_nil, deliver_nil]
  | unclosed cs h_open =>
    rw [cleanFrom_unclosed p h_open, deliver_unclosed p h_open]
  | segment kind text rest h_stands ih =>
    obtain ⟨h_text, h_ends⟩ := standsBefore_iff.1 h_stands
    rw [cleanFrom_segment p h_stands, deliver_segment p h_stands]
    cases kind with
    | blank =>
      obtain ⟨-, h_all⟩ := SegmentKind.isText_blank.1 h_text
      rw [SegmentKind.cleaned, deliver_blanks p h_all, ih]
      rfl
    | comment =>
      have h_line := newline_not_mem_noise h_text (.inl rfl)
      rw [SegmentKind.cleaned, deliver_spaces p h_line, ih]
      rfl
    | skipped =>
      have h_line := newline_not_mem_noise h_text (.inr rfl)
      rw [SegmentKind.cleaned, deliver_spaces p h_line, ih]
      rfl
    | token kind =>
      -- what comes next goes on with the lexeme no more than before
      have h_next : SegmentKind.EndsAt (.token kind) text (cleanFrom (p.advance text) rest) := by
        intro c h_c h_goesOn
        rcases head?_cleanFrom _ rest c h_c with h_same | h_blank
        · exact h_ends c h_same h_goesOn
        · exact Bool.eq_false_iff.1 (not_continues_of_blank kind h_blank) h_goesOn
      rw [SegmentKind.cleaned, deliver_segment p (h_stands.of_endsAt h_next), ih]
      rfl

/-! ### Scripts -/

/-- **Comments and skipped characters are noise.** With spaces in their place a script has the same
tokens, with the same texts and the same spans, or the same error; nothing in it is skipped; so it
spells the same program, or has the same error, and runs alike in any scope of any machine. -/
theorem clean_alike (source : String) :
    tokenize (clean source) = tokenize source ∧ skippedCharacters (clean source) = [] ∧
      readProgram (clean source) = readProgram source ∧
      ∀ s : ScopeId, runScript s (clean source) = runScript s source := by
  have h_delivery : deliver .start (clean source).toList =
      { deliver .start source.toList with skipped := [] } := by
    rw [clean, String.toList_ofList]
    exact deliver_cleanFrom .start source.toList
  have h_tokens : tokenize (clean source) = tokenize source := by
    rw [tokenize_eq_report, tokenize_eq_report, h_delivery]
    rfl
  have h_program : readProgram (clean source) = readProgram source := by
    rw [readProgram, readProgram, h_tokens]
  refine ⟨h_tokens, ?_, h_program, fun s => ?_⟩
  · rw [skippedCharacters_eq, h_delivery]
  · funext m
    rw [runScript, runScript, h_program]

/-- Noise inside a word, between two symbols and up to the end of a line. -/
example : clean "a@b !@= 1; # \"é\nc" = "a b   = 1;     \nc" := by decide +kernel

end ScriptLang
