import ScriptLang.Proofs.Token.Front

/-!
# What reading a text delivers

Of a division, whoever reads a script gets to see the tokens, the characters that are skipped and how
it ends. A text delivers this segment by segment, each of them at the position that is come to in
front of it. Blanks deliver nothing, whether they are one run or several, and so a line break is as
good as an end: behind it reading goes on as at the beginning of a text, only further down.

* `deliver` — what a text delivers that begins at a position.
* `deliver_segment`, `deliver_blanks` — what it delivers behind its first segment, or blanks.
* `deliver_line` — what a line break keeps apart.
* `deliver_before_quote` — what is delivered before a quote that is never closed.
-/

namespace ScriptLang

open Recogniser Lexeme Segment

/-- **What reading a text delivers:** the tokens and the skipped characters up to where it ends. -/
structure Delivery where
  tokens : List Token
  skipped : List SkippedCharacter
  ending : Ending
deriving DecidableEq

namespace Delivery

/-- What is delivered behind a segment, together with what the segment itself is. -/
def behind (s : Segment) (d : Delivery) : Delivery :=
  ⟨s.token?.toList ++ d.tokens, s.skipped?.toList ++ d.skipped, d.ending⟩

/-- What is delivered after something that was delivered already. -/
def after (earlier d : Delivery) : Delivery :=
  ⟨earlier.tokens ++ d.tokens, earlier.skipped ++ d.skipped, d.ending⟩

/-- A segment in front of both is a segment in front of the first. -/
theorem after_behind (s : Segment) (earlier d : Delivery) :
    (earlier.behind s).after d = (earlier.after d).behind s := by
  simp only [after, behind, List.append_assoc]

/-- Blank runs deliver nothing. -/
theorem behind_blank (text : List Char) (span : Span) (d : Delivery) :
    d.behind ⟨.blank, text, span⟩ = d := rfl

/-- The tokens, with the one that ends them, or the error that reading stopped with. -/
def report (d : Delivery) : Except LexicalError (List Token) :=
  match d.ending with
  | .complete p => .ok (d.tokens ++ [.endOfInput p])
  | .unclosedQuote p => .error (.unterminatedString (.point p))

theorem report_eq_ok {d : Delivery} {tokens : List Token} :
    d.report = .ok tokens ↔ ∃ p, d.ending = .complete p ∧ tokens = d.tokens ++ [.endOfInput p] := by
  unfold report
  cases d.ending with
  | complete p =>
    constructor
    · rintro ⟨⟩
      exact ⟨p, rfl, rfl⟩
    · rintro ⟨_, ⟨⟩, rfl⟩
      rfl
  | unclosedQuote p =>
    constructor
    · rintro ⟨⟩
    · rintro ⟨_, ⟨⟩, -⟩

theorem report_eq_error {d : Delivery} {e : LexicalError} :
    d.report = .error e ↔
      ∃ p, d.ending = .unclosedQuote p ∧ e = .unterminatedString (.point p) := by
  unfold report
  cases d.ending with
  | complete p =>
    constructor
    · rintro ⟨⟩
    · rintro ⟨_, ⟨⟩, -⟩
  | unclosedQuote p =>
    constructor
    · rintro ⟨⟩
      exact ⟨p, rfl, rfl⟩
    · rintro ⟨_, ⟨⟩, rfl⟩
      rfl

end Delivery

/-- What the segments of a division deliver. -/
def Division.delivery (d : Division) : Delivery := ⟨d.tokens, d.skipped, d.ending⟩

/-- **What a text delivers** that begins at the position `p`. -/
def deliver (p : Position) (cs : List Char) : Delivery :=
  (divideFrom trivia recognisers p cs).delivery

/-- The tokens of a script are what it delivers from its beginning. -/
theorem tokenize_eq_report (source : String) :
    tokenize source = (deliver .start source.toList).report := tokenize_eq source

/-- A script has no tokens where what it delivers ends at a quote. -/
theorem tokenize_eq_error {source : String} {e : LexicalError} :
    tokenize source = .error e ↔ ∃ p, (deliver .start source.toList).ending = .unclosedQuote p ∧
      e = .unterminatedString (.point p) := by
  rw [tokenize_eq_report, Delivery.report_eq_error]

theorem skippedCharacters_eq (source : String) :
    skippedCharacters source = (deliver .start source.toList).skipped := rfl

/-! ### Segment by segment -/

@[simp] theorem deliver_nil (p : Position) : deliver p [] = ⟨[], [], .complete p⟩ := by
  rw [deliver, divideFrom_nil]
  rfl

/-- Nothing is delivered behind a quote that is never closed. -/
theorem deliver_unclosed (p : Position) {cs : List Char} (h : '"' ∉ cs) :
    deliver p ('"' :: cs) = ⟨[], [], .unclosedQuote p⟩ := by
  rw [deliver, divideFrom_unclosed p h]
  rfl

private theorem delivery_cons (s : Segment) (d : Division) :
    Division.delivery ⟨s :: d.segments, d.ending⟩ = d.delivery.behind s := by
  unfold Division.delivery Division.tokens Division.skipped Delivery.behind
  cases h_token : s.token? <;> cases h_skipped : s.skipped? <;>
    simp only [List.filterMap_cons, h_token, h_skipped, Option.toList, List.nil_append,
      List.singleton_append]

/-- **A segment in front** delivers what it is, and then comes what the text behind it delivers. -/
theorem deliver_segment (p : Position) {kind : SegmentKind} {text rest : List Char}
    (h : StandsBefore kind text rest) : deliver p (text ++ rest) =
      (deliver (p.advance text) rest).behind ⟨kind, text, .covering p text⟩ := by
  rw [deliver, divideFrom_segment p h]
  exact delivery_cons ⟨kind, text, .covering p text⟩ _

/-- A text that is read to its end ends where its characters lead. -/
theorem eq_advance_of_complete {p q : Position} {cs : List Char}
    (h : (deliver p cs).ending = .complete q) : q = p.advance cs := by
  induction cs using Segment.text_induction generalizing p with
  | nil =>
    rw [deliver_nil] at h
    cases h
    rfl
  | unclosed cs h_open =>
    rw [deliver_unclosed p h_open] at h
    cases h
  | segment kind text rest h_stands ih =>
    rw [deliver_segment p h_stands] at h
    rw [Position.advance_append, ih h]

/-! ### Blanks and lines -/

/-- All the blanks in front of a text can be read at once. -/
private theorem deliver_dropWhile (p : Position) (cs : List Char) :
    deliver p cs = deliver (p.advance (cs.takeWhile isBlank)) (cs.dropWhile isBlank) := by
  by_cases h_none : cs.takeWhile isBlank = []
  · -- without a blank in front nothing is dropped
    have h_split := List.takeWhile_append_dropWhile (p := isBlank) (l := cs)
    rw [h_none, List.nil_append] at h_split
    rw [h_none, h_split]
    rfl
  · have h_text : SegmentKind.IsText .blank (cs.takeWhile isBlank) :=
      SegmentKind.isText_blank.2 ⟨h_none, List.all_eq_true.1 List.all_takeWhile⟩
    have h_rest : SegmentKind.EndsAt .blank (cs.takeWhile isBlank) (cs.dropWhile isBlank) := by
      intro c h_c h_blank
      -- the character where dropping stops is no blank
      have h_stop := List.head?_dropWhile_not isBlank cs
      rw [Option.mem_def.1 h_c] at h_stop
      exact Bool.eq_false_iff.1 h_stop h_blank
    conv_lhs => rw [← List.takeWhile_append_dropWhile (p := isBlank) (l := cs)]
    rw [deliver_segment p (standsBefore_iff.2 ⟨h_text, h_rest⟩), Delivery.behind_blank]

/-- **Blanks in front deliver nothing,** even if more blanks follow and make one run with them. -/
theorem deliver_blanks (p : Position) {blanks : List Char} (h : ∀ c ∈ blanks, isBlank c = true)
    (rest : List Char) : deliver p (blanks ++ rest) = deliver (p.advance blanks) rest := by
  rw [deliver_dropWhile p (blanks ++ rest), List.takeWhile_append_of_pos h,
    List.dropWhile_append_of_pos h, Position.advance_append, ← deliver_dropWhile]

/-- A line break goes on with no segment but a blank run. -/
private theorem endsAt_line {kind : SegmentKind} (h : kind ≠ .blank) (text b : List Char) :
    kind.EndsAt text ('\n' :: b) := by
  rintro _ ⟨⟩ h_goesOn
  by_cases h_comment : kind = .comment
  · subst h_comment
    exact h_goesOn rfl
  · exact SegmentKind.not_goesOn h h_comment (not_word_of_blank rfl) rfl rfl text h_goesOn

/-- **A line break keeps two texts apart.** If the first is read to its end, then behind the line
break the second delivers what it delivers at the beginning of that line. -/
theorem deliver_line {p q : Position} {a : List Char} (h : (deliver p a).ending = .complete q)
    (b : List Char) :
    deliver p (a ++ '\n' :: b) = (deliver p a).after (deliver (q.next '\n') b) := by
  induction a using Segment.text_induction generalizing p with
  | nil =>
    -- the line break is a blank in front of the second text
    rw [deliver_nil] at h ⊢
    cases h
    exact deliver_blanks q (List.forall_mem_singleton.2 rfl) b
  | unclosed cs h_open =>
    rw [deliver_unclosed p h_open] at h
    cases h
  | segment kind text rest h_stands ih =>
    rw [deliver_segment p h_stands] at h ⊢
    rw [List.append_assoc, Delivery.after_behind, ← ih h]
    by_cases h_blank : kind = .blank
    · -- the run may go on with the line break, but blanks deliver nothing
      subst h_blank
      obtain ⟨-, h_all⟩ := SegmentKind.isText_blank.1 (standsBefore_iff.1 h_stands).1
      exact deliver_blanks p h_all _
    · -- any other segment ends where it did, or in front of the line break
      have h_rest := (standsBefore_iff.1 h_stands).2.append fun _ => endsAt_line h_blank text b
      exact deliver_segment p (h_stands.of_endsAt h_rest)

/-! ### Quotes that are never closed -/

/-- **What is delivered before a quote that is never closed** is what the text in front of that quote
delivers by itself. -/
theorem deliver_before_quote {p q : Position} {cs : List Char}
    (h : (deliver p cs).ending = .unclosedQuote q) :
    ∃ pre rest, cs = pre ++ '"' :: rest ∧ '"' ∉ rest ∧ q = p.advance pre ∧
      deliver p pre = ⟨(deliver p cs).tokens, (deliver p cs).skipped, .complete q⟩ := by
  induction cs using Segment.text_induction generalizing p with
  | nil =>
    rw [deliver_nil] at h
    cases h
  | unclosed cs h_open =>
    rw [deliver_unclosed p h_open] at h ⊢
    cases h
    exact ⟨[], cs, rfl, h_open, rfl, deliver_nil _⟩
  | segment kind text rest h_stands ih =>
    rw [deliver_segment p h_stands] at h ⊢
    obtain ⟨pre, rest', rfl, h_open, rfl, h_pre⟩ := ih h
    -- cutting the text off behind the segment does not change the segment
    have h_begins : pre <+: pre ++ '"' :: rest' := List.prefix_append _ _
    have h_cut := h_stands.of_endsAt ((standsBefore_iff.1 h_stands).2.of_begins h_begins)
    refine ⟨text ++ pre, rest', (List.append_assoc ..).symm, h_open,
      (Position.advance_append ..).symm, ?_⟩
    rw [deliver_segment p h_cut, h_pre]
    rfl

end ScriptLang
