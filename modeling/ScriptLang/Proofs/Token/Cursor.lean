import ScriptLang.Proofs.Token.Delivery
import ScriptLang.Proofs.Token.Order

/-!
# Reading token by token

A script need not be divided all at once. A `Cursor` holds what is left of a script to read, and
each time it is asked it goes on to the next token: past blanks and comments, past characters that
it skips, up to a token, to the end of the script or to a quote that is never closed. Asked again
and again, it gives the tokens of the script, and which one it gives does not depend on the order
in which the recognisers are tried.

* `Cursor.next` — the next token, and the cursor behind it.
* `Cursor.readAll` — all tokens up to the end, and `Cursor.readAll_eq`: they are those that the text
  delivers.
* `Cursor.next_congr`, `Cursor.readAll_congr` — only what stands in front of a text counts.
* `recognisers_in_any_order` — the order of the recognisers has no part in reading.
-/

namespace ScriptLang

open Recogniser Lexeme Segment

/-- **Where reading has come to:** the text that is left, where it begins, and the characters that
have been skipped up to there. -/
structure Cursor where
  remaining : List Char
  position : Position
  skipped : List SkippedCharacter
deriving DecidableEq

namespace Cursor

/-- The cursor at the beginning of a script. -/
def start (source : String) : Cursor := ⟨source.toList, .start, []⟩

section Next

variable (between : List (Recogniser SegmentKind)) (lexemes : List (Recogniser TokenKind))

/-- The next token of a text that begins at a position, and the cursor behind it. -/
def nextFrom (skipped : List SkippedCharacter) (p : Position) :
    List Char → Except LexicalError Token × Cursor
  | [] => (.ok (.endOfInput p), ⟨[], p, skipped⟩)
  | c :: cs =>
    match front? between lexemes c cs with
    | none => (.error (.unterminatedString (.point p)), ⟨c :: cs, p, skipped⟩)
    | some m =>
      let text := (c :: cs).take m.length
      let segment : Segment := ⟨m.label, text, .covering p text⟩
      match segment.token? with
      | some t => (.ok t, ⟨(c :: cs).drop m.length, p.advance text, skipped⟩)
      | none =>
        nextFrom (skipped ++ segment.skipped?.toList) (p.advance text) ((c :: cs).drop m.length)
-- no find is empty, so there is less text behind it
termination_by cs => cs.length
decreasing_by have := m.length_pos; simp only [List.length_drop, List.length_cons]; omega

/-- **The next token,** and the cursor behind it. At the end of the script it is the end of input,
as often as it is asked for; a quote that is never closed stays in front. -/
def next (s : Cursor) : Except LexicalError Token × Cursor :=
  nextFrom between lexemes s.skipped s.position s.remaining

variable {between lexemes}

private theorem length_lt_of_nextFrom (skipped : List SkippedCharacter) (p : Position)
    (cs : List Char) {t : Token} {s' : Cursor}
    (h : nextFrom between lexemes skipped p cs = (.ok t, s')) (h_t : t.kind ≠ .endOfInput) :
    s'.remaining.length < cs.length := by
  fun_induction nextFrom between lexemes skipped p cs with
  | case1 =>
    cases h
    exact absurd rfl h_t
  | case2 => cases h
  | case3 skipped p c cs m h_front text segment t' h_token =>
    cases h
    have := m.length_pos
    simp only [List.length_drop, List.length_cons]
    omega
  | case4 skipped p c cs m h_front text segment h_token ih =>
    have := ih h
    have := List.length_drop (l := c :: cs) (i := m.length)
    omega

/-- Behind a token there is less text left, unless it is the end of input. -/
theorem length_lt_of_next {s s' : Cursor} {t : Token} (h : s.next between lexemes = (.ok t, s'))
    (h_t : t.kind ≠ .endOfInput) : s'.remaining.length < s.remaining.length :=
  length_lt_of_nextFrom _ _ _ h h_t

variable (between lexemes)

/-- **All tokens up to the end of input,** or up to an error, and the cursor behind them. -/
def readAll (s : Cursor) : Except LexicalError (List Token) × Cursor :=
  match _h : s.next between lexemes with
  | (.error e, s') => (.error e, s')
  | (.ok t, s') =>
    if _h_t : t.kind = .endOfInput then (.ok [t], s')
    else
      let others := readAll s'
      (others.1.map (t :: ·), others.2)
termination_by s.remaining.length
decreasing_by exact length_lt_of_next _h _h_t

variable {between lexemes}

theorem readAll_of_error {s s' : Cursor} {e : LexicalError}
    (h : s.next between lexemes = (.error e, s')) :
    s.readAll between lexemes = (.error e, s') := by
  rw [readAll]
  split
  · next h' => cases h.symm.trans h'; rfl
  · next h' => cases h.symm.trans h'

theorem readAll_of_token {s s' : Cursor} {t : Token} (h : s.next between lexemes = (.ok t, s')) :
    s.readAll between lexemes =
      if t.kind = .endOfInput then (.ok [t], s')
      else ((s'.readAll between lexemes).1.map (t :: ·), (s'.readAll between lexemes).2) := by
  rw [readAll]
  split
  · next h' => cases h.symm.trans h'
  · next h' => cases h.symm.trans h'; rfl

/-- What is read depends on the next token alone, and on what is behind it. -/
theorem readAll_of_next_eq {s u : Cursor} (h : s.next between lexemes = u.next between lexemes) :
    s.readAll between lexemes = u.readAll between lexemes := by
  cases h_next : s.next between lexemes with
  | mk result s' =>
    cases result with
    | error e => rw [readAll_of_error h_next, readAll_of_error (h.symm.trans h_next)]
    | ok t =>
      have h_next' : u.next between lexemes = (.ok t, s') := h.symm.trans h_next
      rw [readAll_of_token h_next, readAll_of_token h_next']

/-! ### Only what stands in front counts -/

section Congr

variable {between' : List (Recogniser SegmentKind)} {lexemes' : List (Recogniser TokenKind)}

/-- Recognisers by which the same stands in front of every text give the same next token. -/
theorem next_congr (h : ∀ c cs, front? between lexemes c cs = front? between' lexemes' c cs)
    (s : Cursor) : s.next between lexemes = s.next between' lexemes' := by
  unfold next
  fun_induction nextFrom between lexemes s.skipped s.position s.remaining with
  | case1 => rw [nextFrom]
  | case2 skipped p c cs h_front => rw [nextFrom, ← h, h_front]
  | case3 skipped p c cs m h_front text segment t h_token =>
    rw [nextFrom, ← h, h_front]
    show _ = match segment.token? with
      | some t => _
      | none => _
    rw [h_token]
  | case4 skipped p c cs m h_front text segment h_token ih =>
    conv_rhs => rw [nextFrom, ← h, h_front]
    show _ = match segment.token? with
      | some t => _
      | none => _
    rw [h_token]
    exact ih

/-- Recognisers that give the same next tokens read the same. -/
theorem readAll_congr (h : ∀ s : Cursor, s.next between lexemes = s.next between' lexemes')
    (s : Cursor) : s.readAll between lexemes = s.readAll between' lexemes' := by
  fun_induction readAll between lexemes s with
  | case1 s e s' h_next => rw [readAll_of_error ((h s).symm.trans h_next)]
  | case2 s t s' h_next h_t => rw [readAll_of_token ((h s).symm.trans h_next), if_pos h_t]
  | case3 s t s' h_next h_t others ih =>
    rw [readAll_of_token ((h s).symm.trans h_next), if_neg h_t, ← ih]

end Congr

end Next

/-! ### What is read is what the text delivers -/

/-- The next token of a text with a segment in front is that segment if it is one, and otherwise the
next one behind it. -/
private theorem next_segment {kind : SegmentKind} {text rest : List Char}
    (h : StandsBefore kind text rest) (p : Position) (skipped : List SkippedCharacter) :
    next trivia recognisers ⟨text ++ rest, p, skipped⟩ =
      match Segment.token? ⟨kind, text, .covering p text⟩ with
      | some t => (.ok t, ⟨rest, p.advance text, skipped⟩)
      | none => next trivia recognisers ⟨rest, p.advance text,
          skipped ++ (Segment.skipped? ⟨kind, text, .covering p text⟩).toList⟩ := by
  obtain ⟨c, cs, m, h_text, h_front, rfl, h_take, h_drop⟩ := h.exists_front?
  unfold next
  dsimp only
  rw [h_text, nextFrom, h_front]
  simp only [h_take, h_drop]

/-- A segment that is a token is neither an end of input nor a skipped character. -/
private theorem of_token?_eq_some {kind : SegmentKind} {text : List Char} {span : Span} {t : Token}
    (h : kind.IsText text) (h_t : Segment.token? ⟨kind, text, span⟩ = some t) :
    t.kind ≠ .endOfInput ∧ Segment.skipped? ⟨kind, text, span⟩ = none := by
  cases kind with
  | token kind =>
    obtain ⟨content, h_fits, -⟩ := SegmentKind.isText_token.1 h
    cases h_t
    refine ⟨fun h_kind => ?_, rfl⟩
    rw [show kind = .endOfInput from h_kind] at h_fits
    exact h_fits
  | blank | comment | skipped => cases h_t

private theorem report_behind (s : Segment) (d : Delivery) :
    (d.behind s).report = d.report.map (s.token?.toList ++ ·) := by
  unfold Delivery.report
  cases h : d.ending with
  | complete p => simp [Delivery.behind, h, Except.map]
  | unclosedQuote p => simp [Delivery.behind, h, Except.map]

/-- **Read token by token, a text gives what it delivers:** its tokens or its error, and behind the
characters that have been skipped before, those that it skips. -/
theorem readAll_eq (cs : List Char) (p : Position) (skipped : List SkippedCharacter) :
    (readAll trivia recognisers ⟨cs, p, skipped⟩).1 = (deliver p cs).report ∧
      (readAll trivia recognisers ⟨cs, p, skipped⟩).2.skipped =
        skipped ++ (deliver p cs).skipped := by
  induction cs using Segment.text_induction generalizing p skipped with
  | nil =>
    have h_next : next trivia recognisers ⟨[], p, skipped⟩ =
        (.ok (.endOfInput p), ⟨[], p, skipped⟩) := by rw [next, nextFrom]
    rw [readAll_of_token h_next, if_pos (Token.kind_endOfInput p), deliver_nil, List.append_nil]
    exact ⟨rfl, rfl⟩
  | unclosed cs h_open =>
    have h_next : next trivia recognisers ⟨'"' :: cs, p, skipped⟩ =
        (.error (.unterminatedString (.point p)), ⟨'"' :: cs, p, skipped⟩) := by
      rw [next, nextFrom, front?_unclosed h_open]
    rw [readAll_of_error h_next, deliver_unclosed p h_open, List.append_nil]
    exact ⟨rfl, rfl⟩
  | segment kind text rest h_stands ih =>
    have h_next := next_segment h_stands p skipped
    rw [deliver_segment p h_stands, report_behind]
    cases h_token : Segment.token? ⟨kind, text, .covering p text⟩ with
    | some t =>
      -- the token is given, and what follows is read from behind it
      obtain ⟨h_kind, h_skipped⟩ := of_token?_eq_some (standsBefore_iff.1 h_stands).1 h_token
      obtain ⟨h_report, h_more⟩ := ih (p.advance text) skipped
      rw [h_token] at h_next
      rw [readAll_of_token h_next, if_neg h_kind, h_report, Delivery.behind, h_skipped]
      exact ⟨rfl, h_more⟩
    | none =>
      -- nothing is given, so reading is as far as behind the segment
      rw [h_token] at h_next
      obtain ⟨h_report, h_more⟩ := ih (p.advance text)
        (skipped ++ (Segment.skipped? ⟨kind, text, .covering p text⟩).toList)
      rw [readAll_of_next_eq h_next, h_report, h_more, Delivery.behind, List.append_assoc]
      refine ⟨?_, rfl⟩
      cases (deliver (p.advance text) rest).report <;> rfl

/-- **A script read token by token** has the tokens and the skipped characters that it has. -/
theorem readAll_start (source : String) :
    ((start source).readAll trivia recognisers).1 = tokenize source ∧
      ((start source).readAll trivia recognisers).2.skipped = skippedCharacters source := by
  rw [tokenize_eq_report, skippedCharacters_eq]
  exact readAll_eq source.toList .start []

end Cursor

/-- **The order of the recognisers has no part in reading.** In front of any text at most one of the
twenty-five recognisers of tokens attains the longest match, and at most one of the two of what
stands between tokens. Every one of them that finds something leaves a proper suffix of the text. So
the next token, the error that there is instead, and the cursor behind it are the same in whatever
order the recognisers are tried, and a script read in this way has the tokens that it has. -/
theorem recognisers_in_any_order :
    recognisers.length = 25 ∧
    (∀ cs, {i | Attains recognisers cs i}.Subsingleton ∧ {i | Attains trivia cs i}.Subsingleton) ∧
    (∀ r ∈ recognisers, r.LeavesSuffix) ∧ (∀ r ∈ trivia, r.LeavesSuffix) ∧
    ∀ between lexemes, between.Perm trivia → lexemes.Perm recognisers →
      (∀ s : Cursor, s.next between lexemes = s.next trivia recognisers) ∧
      ∀ source, ((Cursor.start source).readAll between lexemes).1 = tokenize source ∧
        ((Cursor.start source).readAll between lexemes).2.skipped = skippedCharacters source := by
  refine ⟨rfl, fun cs => ⟨neverTie_recognisers.subsingleton_attains cs,
    neverTie_trivia.subsingleton_attains cs⟩, fun _ => Lexeme.leavesSuffix,
    fun _ => Segment.leavesSuffix, fun between lexemes h_between h_lexemes => ?_⟩
  have h_next : ∀ s : Cursor, s.next between lexemes = s.next trivia recognisers := by
    refine Cursor.next_congr fun c cs => ?_
    rw [front?, neverTie_trivia.longest?_perm h_between,
      neverTie_recognisers.longest?_perm h_lexemes, front?]
  refine ⟨h_next, fun source => ?_⟩
  rw [Cursor.readAll_congr h_next]
  exact Cursor.readAll_start source

/-- Behind a skipped character and a blank, three symbols begin the text that is left. Tried in the
opposite order, the recognisers still take the longest. -/
theorem recognisers_in_any_order_of_reversed :
    trivia.reverse.Perm trivia ∧ recognisers.reverse.Perm recognisers ∧
      (Cursor.start "@ <=1").next trivia.reverse recognisers.reverse =
        (.ok ⟨.lessEqual, "<=", .covering (Position.start.advance "@ ".toList) "<=".toList⟩,
          ⟨"1".toList, Position.start.advance "@ <=".toList, [⟨'@', .point .start⟩]⟩) ∧
      ((Cursor.start "@ <=1").readAll trivia.reverse recognisers.reverse).1 = tokenize "@ <=1" := by
  have h_trivia : trivia.reverse.Perm trivia := List.reverse_perm _
  have h_recognisers : recognisers.reverse.Perm recognisers := List.reverse_perm _
  obtain ⟨-, -, -, -, h_order⟩ := recognisers_in_any_order
  obtain ⟨h_next, h_all⟩ := h_order _ _ h_trivia h_recognisers
  refine ⟨h_trivia, h_recognisers, ?_, (h_all _).1⟩
  rw [h_next]
  decide +kernel

end ScriptLang
