import ScriptLang.Proofs.Grammar.Derivation
import ScriptLang.Proofs.Token.Border

/-!
# The wording of a text

A program depends on a text only through its `Wording`: the words of its tokens, and whether every
quote is closed. Positions drop out of it, so do blanks and comments, and texts can be put together
word by word and line by line.

* `Segment.wording_divideFrom` — where a text begins does not matter.
* `wording_cons` — the wording of a text, step by step.
* `wording_blank` — a blank in front changes nothing.
* `wording_lines` — a line break keeps two texts apart, whatever they are made of.
* `wording_words` — words spelled out with blanks between them are found again.
* `fits_of_mem_wording` — every word of a text is one that its kind can have.
-/

namespace ScriptLang

/-- **What a text says:** its words, and whether it was read to its end. -/
structure Wording where
  words : List Word
  complete : Bool
deriving DecidableEq

/-- The wording with some more words in front. -/
def Wording.after (ws : List Word) (r : Wording) : Wording := ⟨ws ++ r.words, r.complete⟩

/-- Did the division come to the end of the text? -/
def Ending.isComplete : Ending → Bool
  | complete _ => true
  | unclosedQuote _ => false

/-- What the text of a division says. -/
def Division.wording (d : Division) : Wording := ⟨d.tokens.map Token.word, d.ending.isComplete⟩

/-- What a text says. -/
def wording (cs : List Char) : Wording := (divide cs).wording

/-- The words that a segment with the text is: one if it is a token, else none. -/
def SegmentKind.words (text : List Char) : SegmentKind → List Word
  | token kind => [⟨kind, String.ofList (Lexeme.content kind text)⟩]
  | _ => []

namespace Segment

open Recogniser Lexeme

/-! ### Step by step -/

/-- **Induction along a division.** To prove something of a text, prove it of the empty text, of a
text that begins with a quote that is never closed, and of a text given what stands behind its
first segment. -/
theorem induction {P : List Char → Prop} (nil : P [])
    (stop : ∀ c cs, front? trivia recognisers c cs = none → P (c :: cs))
    (cons : ∀ c cs m, front? trivia recognisers c cs = some m → P ((c :: cs).drop m.length) →
      P (c :: cs)) (cs : List Char) : P cs := by
  -- what is left behind a segment can be any shorter text
  induction h : cs.length using Nat.strongRecOn generalizing cs with
  | ind n ih =>
    cases cs with
    | nil => exact nil
    | cons c cs =>
      cases h_front : front? trivia recognisers c cs with
      | none => exact stop c cs h_front
      | some m =>
        have h_pos := m.length_pos
        refine cons c cs m h_front (ih _ ?_ _ rfl)
        rw [← h, List.length_drop, List.length_cons]
        omega

/-- A segment in front adds the word it is, if it is one. -/
private theorem wording_segment (s : Segment) (d : Division) :
    Division.wording ⟨s :: d.segments, d.ending⟩ = d.wording.after (s.kind.words s.text) := by
  obtain ⟨kind, text, span⟩ := s
  cases kind <;> rfl

/-- One step of a division, as far as its wording goes. -/
private theorem wording_divideFrom_cons (p : Position) {c : Char} {cs : List Char}
    {m : Found SegmentKind} (h : front? trivia recognisers c cs = some m) :
    (divideFrom trivia recognisers p (c :: cs)).wording =
      (divideFrom trivia recognisers (p.advance ((c :: cs).take m.length))
        ((c :: cs).drop m.length)).wording.after (m.label.words ((c :: cs).take m.length)) := by
  rw [divideFrom_cons, h]
  exact wording_segment ⟨m.label, _, _⟩ _

/-- **Where a text begins does not matter** to what it says. -/
theorem wording_divideFrom (p : Position) (cs : List Char) :
    (divideFrom trivia recognisers p cs).wording = wording cs := by
  -- for any two positions, since each step moves both of them
  suffices h : ∀ p q, (divideFrom trivia recognisers p cs).wording =
      (divideFrom trivia recognisers q cs).wording from h p .start
  induction cs using Segment.induction with
  | nil =>
    intro p q
    rw [divideFrom_nil, divideFrom_nil]
    rfl
  | stop c cs h_front =>
    intro p q
    rw [divideFrom_cons, divideFrom_cons, h_front]
    rfl
  | cons c cs m h_front ih =>
    intro p q
    rw [wording_divideFrom_cons p h_front, wording_divideFrom_cons q h_front, ih]

end Segment

@[simp] theorem wording_nil : wording [] = ⟨[], true⟩ := by
  simp [wording, divide, Division.wording, Division.tokens, Ending.isComplete]

open Segment Lexeme Recogniser

/-- **The wording of a text, step by step.** -/
theorem wording_cons {c : Char} {cs : List Char} {m : Found SegmentKind}
    (h : front? trivia recognisers c cs = some m) :
    wording (c :: cs) =
      (wording ((c :: cs).drop m.length)).after (m.label.words ((c :: cs).take m.length)) := by
  rw [wording, divide, wording_divideFrom_cons .start h, wording_divideFrom]

/-- Nothing is said behind a quote that is never closed. -/
theorem wording_stop {c : Char} {cs : List Char} (h : front? trivia recognisers c cs = none) :
    wording (c :: cs) = ⟨[], false⟩ := by
  rw [wording, divide, divideFrom_cons, h]
  rfl

/-- **What stands in front of a text** is a comment, a run of blanks, the longest lexeme, or a
single character that is skipped because no lexeme stands there. -/
theorem front?_cases {c : Char} {cs : List Char} {m : Found SegmentKind}
    (h : front? trivia recognisers c cs = some m) :
    (c = '#' ∧ m.label = .comment ∧ m.length = (cs.takeWhile (· ≠ '\n')).length + 1) ∨
      (isBlank c = true ∧ m.label = .blank ∧ m.length = ((c :: cs).takeWhile isBlank).length) ∨
      (∃ m', longest? recognisers (c :: cs) = some m' ∧ m = m'.map .token) ∨
      (longest? recognisers (c :: cs) = none ∧ m.label = .skipped ∧ m.length = 1) := by
  by_cases h_hash : c = '#'
  · subst h_hash
    rw [front?_comment, comment] at h
    cases h
    exact .inl ⟨rfl, rfl, rfl⟩
  · cases h_blank : isBlank c with
    | true =>
      rw [front?_blank h_blank, blank, runOf_eq_some] at h
      exact .inr (.inl ⟨rfl, h.2⟩)
    | false =>
      rw [front?_lexeme h_blank h_hash] at h
      cases h_longest : longest? recognisers (c :: cs) with
      | some m' =>
        rw [h_longest] at h
        cases h
        exact .inr (.inr (.inl ⟨m', rfl, rfl⟩))
      | none =>
        rw [h_longest] at h
        -- a quote that no lexeme begins with stops the division
        by_cases h_quote : c = '"'
        · rw [if_pos h_quote] at h
          cases h
        · rw [if_neg h_quote] at h
          cases h
          exact .inr (.inr (.inr ⟨rfl, rfl, rfl⟩))

/-- What stands in front of a text is as long as it is, and a word only if it is a lexeme. -/
private theorem front?_eq_some {c : Char} {cs : List Char} {m : Found SegmentKind}
    (h : front? trivia recognisers c cs = some m) :
    (∀ kind, m.label ≠ .token kind) ∧ m.length ≤ (c :: cs).length ∨
      ∃ m', longest? recognisers (c :: cs) = some m' ∧ m = m'.map .token := by
  rcases front?_cases h with ⟨-, h_label, h_length⟩ | ⟨-, h_label, h_length⟩ | h_lexeme |
    ⟨-, h_label, h_length⟩
  · refine .inl ⟨by rw [h_label]; rintro kind ⟨⟩, ?_⟩
    rw [h_length]
    exact Nat.succ_le_succ (List.takeWhile_prefix _).length_le
  · refine .inl ⟨by rw [h_label]; rintro kind ⟨⟩, ?_⟩
    rw [h_length]
    exact (List.takeWhile_prefix _).length_le
  · exact .inr h_lexeme
  · refine .inl ⟨by rw [h_label]; rintro kind ⟨⟩, ?_⟩
    rw [h_length]
    exact Nat.succ_le_succ (Nat.zero_le _)

/-- A segment is no longer than the text it stands in front of. -/
theorem length_le_of_front? {c : Char} {cs : List Char} {m : Found SegmentKind}
    (h : front? trivia recognisers c cs = some m) : m.length ≤ (c :: cs).length := by
  rcases front?_eq_some h with ⟨-, h_le⟩ | ⟨m', h_longest, rfl⟩
  · exact h_le
  · exact length_le_of_longest? h_longest

/-- What is found as a lexeme stands in front, for no lexeme begins as a comment or a blank. -/
theorem front?_token {c : Char} {cs : List Char} {m : Found TokenKind}
    (h : longest? recognisers (c :: cs) = some m) :
    front? trivia recognisers c cs = some (m.map .token) := by
  have h_blank : isBlank c = false := by
    rw [Bool.eq_false_iff]
    intro h_blank
    rw [longest?_blank h_blank] at h
    cases h
  have h_hash : c ≠ '#' := by
    rintro rfl
    rw [longest?_hash] at h
    cases h
  rw [front?_lexeme h_blank h_hash, h]
  rfl

/-! ### Blanks -/

/-- All the blanks in front of a text can go. -/
private theorem wording_dropWhile (cs : List Char) :
    wording (cs.dropWhile isBlank) = wording cs := by
  cases cs with
  | nil => rfl
  | cons c cs =>
    cases h : isBlank c with
    | false => rw [List.dropWhile_cons_of_neg (by simp [h])]
    | true =>
      -- the blanks are one segment, which is no token
      have h_run : 0 < ((c :: cs).takeWhile isBlank).length := by
        rw [List.takeWhile_cons_of_pos h]
        exact Nat.succ_pos _
      have h_front : front? trivia recognisers c cs =
          some ⟨.blank, ((c :: cs).takeWhile isBlank).length, h_run⟩ := by
        rw [front?_blank h, blank, runOf_eq_some]
        exact ⟨h_run, rfl, rfl⟩
      have h_drop : (c :: cs).drop ((c :: cs).takeWhile isBlank).length =
          (c :: cs).dropWhile isBlank := by
        have h_split := List.takeWhile_append_dropWhile (p := isBlank) (l := c :: cs)
        conv => lhs; arg 2; rw [← h_split]
        exact List.drop_left
      rw [wording_cons h_front, h_drop]
      rfl

/-- **A blank in front changes nothing.** -/
theorem wording_blank {c : Char} (h : isBlank c = true) (cs : List Char) :
    wording (c :: cs) = wording cs := by
  rw [← wording_dropWhile (c :: cs), List.dropWhile_cons_of_pos h, wording_dropWhile]

/-! ### Lines -/

/-- What stands in front of a text, unless it is blank, ends with its line. -/
private theorem front?_append {c : Char} {a : List Char} {m : Found SegmentKind}
    (h_blank : isBlank c = false) (h : front? trivia recognisers c a = some m) (b : List Char) :
    front? trivia recognisers c (a ++ '\n' :: b) = some m := by
  by_cases h_hash : c = '#'
  · subst h_hash
    have h_line : (a ++ '\n' :: b).takeWhile (· ≠ '\n') = a.takeWhile (· ≠ '\n') := by
      rw [List.takeWhile_append]
      split
      · next h_all =>
        rw [List.takeWhile_cons_of_neg (by simp), List.append_nil]
        exact ((List.takeWhile_prefix _).eq_of_length h_all).symm
      · rfl
    rw [← h, front?_comment, front?_comment, comment, comment]
    simp only [h_line]
  · rw [front?_lexeme h_blank h_hash] at h
    have h_closed : ∀ d ∈ (c :: a).head?, d = '"' → ∃ m, string (c :: a) = some m := by
      -- nothing would stand in front of a quote that begins no string
      rintro d ⟨⟩ rfl
      rw [longest?_string] at h
      cases h_string : string ('"' :: a) with
      | none => rw [h_string] at h; cases h
      | some m' => exact ⟨m', rfl⟩
    have h_border : ∀ d ∈ ('\n' :: b).head?, isBlank d = true := by
      rintro d ⟨⟩
      rfl
    have h_longest := longest?_append h_border h_closed (List.cons_ne_nil c a)
    rw [front?_lexeme h_blank h_hash, ← h, ← List.cons_append, h_longest]

/-- **A line break keeps two texts apart.** If nothing is left open at the end of the first, it says
in front of the second what it says alone. -/
theorem wording_lines {a : List Char} (h : (wording a).complete = true) (b : List Char) :
    wording (a ++ '\n' :: b) = (wording b).after (wording a).words := by
  -- on the length and not along a division, since a blank run can go on behind the line break: its
  -- characters are taken off one by one
  induction h_length : a.length using Nat.strongRecOn generalizing a with
  | ind n ih =>
    cases a with
    | nil =>
      rw [List.nil_append, wording_blank rfl, wording_nil]
      rfl
    | cons c a =>
      cases h_blank : isBlank c with
      | true =>
        rw [wording_blank h_blank] at h ⊢
        rw [List.cons_append, wording_blank h_blank]
        exact ih a.length (by rw [← h_length]; exact Nat.lt_succ_self _) h rfl
      | false =>
        cases h_front : front? trivia recognisers c a with
        | none =>
          rw [wording_stop h_front] at h
          cases h
        | some m =>
          -- the same segment stands in front of both texts, and the rest is shorter
          have h_pos := m.length_pos
          have h_le := length_le_of_front? h_front
          rw [wording_cons h_front] at h ⊢
          rw [List.cons_append, wording_cons (front?_append h_blank h_front b), ← List.cons_append,
            List.take_append_of_le_length h_le, List.drop_append_of_le_length h_le,
            ih _ ?_ h rfl]
          · simp only [Wording.after, List.append_assoc]
          · rw [← h_length, List.length_drop, List.length_cons]
            omega

/-! ### Words -/

/-- **A word spelled out** is found again in front of any character that does not go on with it. -/
theorem wording_spelling {kind : TokenKind} {text : String} (h : Fits kind text)
    {rest : List Char} (h_rest : ∀ c ∈ rest.head?, continues kind c = false) :
    wording (spelling kind text ++ rest) = (wording rest).after [⟨kind, text⟩] := by
  obtain ⟨m, h_m, h_label, h_length⟩ := longest?_spelling h h_rest
  cases h_spelling : spelling kind text with
  | nil => exact absurd h_spelling (spelling_ne_nil h)
  | cons c cs =>
    rw [h_spelling] at h_m h_length
    -- one step of the division takes the spelling and nothing else
    have h_front : front? trivia recognisers c (cs ++ rest) = some (m.map .token) :=
      front?_token h_m
    rw [List.cons_append, wording_cons h_front, ← List.cons_append]
    simp only [Found.map, h_label, h_length, List.drop_left, List.take_left]
    rw [SegmentKind.words, ← h_spelling, content_spelling, String.ofList_toList]

/-- The spelling of a word. -/
def Word.spelling (w : Word) : String := String.ofList (Lexeme.spelling w.kind w.text)

/-- **Words with blanks between them** are found again, all of them and nothing else. -/
theorem wording_words {ws : List Word} (h : ∀ w ∈ ws, Fits w.kind w.text) :
    wording (" ".intercalate (ws.map Word.spelling)).toList = ⟨ws, true⟩ := by
  induction ws with
  | nil => exact wording_nil
  | cons w ws ih =>
    obtain ⟨h_w, h_ws⟩ := List.forall_mem_cons.1 h
    cases ws with
    | nil =>
      have h_none : ∀ c ∈ ([] : List Char).head?, continues w.kind c = false := by
        rintro c ⟨⟩
      have h_word := wording_spelling h_w h_none
      rw [List.append_nil, wording_nil] at h_word
      rw [List.map_singleton, String.intercalate_singleton, Word.spelling, String.toList_ofList]
      exact h_word
    | cons w' ws =>
      -- behind the word stands the blank, and behind that the other words
      have h_blank : ∀ c ∈ (" ".toList ++
          (" ".intercalate ((w' :: ws).map Word.spelling)).toList).head?,
            continues w.kind c = false := by
        rintro c ⟨⟩
        exact not_continues_of_blank w.kind rfl
      rw [List.map_cons, List.map_cons, String.intercalate_cons_cons, ← List.map_cons,
        String.toList_append, String.toList_append, List.append_assoc, Word.spelling,
        String.toList_ofList, wording_spelling h_w h_blank]
      rw [show " ".toList = [' '] from rfl, List.singleton_append, wording_blank rfl, ih h_ws]
      rfl

/-- **Every word of a text is one that its kind can have.** -/
theorem fits_of_mem_wording (cs : List Char) :
    ∀ w ∈ (wording cs).words, Fits w.kind w.text := by
  induction cs using Segment.induction with
  | nil =>
    rw [wording_nil]
    exact List.forall_mem_nil _
  | stop c cs h_front =>
    rw [wording_stop h_front]
    exact List.forall_mem_nil _
  | cons c cs m h_front ih =>
    rw [wording_cons h_front]
    intro w h_w
    rcases List.mem_append.1 h_w with h_w | h_w
    · rcases front?_eq_some h_front with ⟨h_label, -⟩ | ⟨m', h_longest, rfl⟩
      · cases h_kind : m.label with
        | token kind => exact absurd h_kind (h_label kind)
        | _ => rw [h_kind] at h_w; cases h_w
      · obtain rfl := List.mem_singleton.1 h_w
        exact fits_of_longest? h_longest
    · exact ih w h_w

end ScriptLang
