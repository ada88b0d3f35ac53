import ScriptLang.Proofs.Source.Offset
import ScriptLang.Proofs.Token.Lexing

/-!
# Where tokens stand

A division carries its position along from segment to segment. What it says of each of them is what
counting says: a span goes from the position of the first character of a segment to that of the
last, and both can be read off the offsets of these characters in the text. Nothing else has a part
in it, neither what kinds of segments are in front nor how many lines they take.

* `Segment.divideFrom_of_append` — behind its first segments a division is the division of the rest.
* `Segment.inOrder_divideFrom` — each segment begins behind the one before it has ended.
* `LexemeAt`, `SkippedAt` — the offsets of lexemes and of skipped characters.
* `tokenize_spansExact` — the spans of tokens, of skipped characters and of errors, by offsets.
-/

namespace ScriptLang

open Recogniser Lexeme

namespace Segment

/-! ### Taking a division apart -/

/-- **A division stops** only at a quote behind which there is no other. -/
theorem of_front?_eq_none {c : Char} {cs : List Char} (h : front? trivia recognisers c cs = none) :
    c = '"' ∧ '"' ∉ cs := by
  have h_blank : isBlank c = false := by
    rw [Bool.eq_false_iff]
    intro h_blank
    have admits : SegmentKind.Admits .blank [c] :=
      ⟨List.cons_ne_nil _ _, List.forall_mem_singleton.2 h_blank⟩
    have begins : [c] <+: c :: cs := ⟨cs, rfl⟩
    obtain ⟨m, h_m, -⟩ := le_of_admits admits begins
    rw [h] at h_m
    cases h_m
  have h_hash : c ≠ '#' := by
    rintro rfl
    rw [front?_comment] at h
    cases h
  rw [front?_lexeme h_blank h_hash, Option.or_eq_none_iff, Option.map_eq_none_iff] at h
  obtain ⟨h_longest, h_quote⟩ := h
  obtain rfl : c = '"' := by
    by_contra h_c
    rw [if_neg h_c] at h_quote
    cases h_quote
  refine ⟨rfl, fun h_mem => ?_⟩
  -- up to the next quote it would be a string
  obtain ⟨body, rest, rfl, h_body⟩ := List.eq_append_cons_of_mem h_mem
  obtain ⟨m, h_m, -⟩ := string_quoted h_body rest
  rw [longest?_string, h_m] at h_longest
  cases h_longest

/-- **The first segment of a division:** it is in front of the text, and the division goes on behind
it. -/
theorem of_divideFrom_eq_cons {p : Position} {cs : List Char} {s : Segment}
    {segments : List Segment} (h : (divideFrom trivia recognisers p cs).segments = s :: segments) :
    ∃ rest, cs = s.text ++ rest ∧ s.text ≠ [] ∧ s.span = .covering p s.text ∧
      (s.kind.Admits s.text ∨ s.kind = .skipped ∧ ∃ c, s.text = [c]) ∧
      divideFrom trivia recognisers (p.advance s.text) rest =
        ⟨segments, (divideFrom trivia recognisers p cs).ending⟩ := by
  cases cs with
  | nil =>
    rw [divideFrom_nil] at h
    cases h
  | cons c cs =>
    rw [divideFrom_cons] at h ⊢
    cases h_front : front? trivia recognisers c cs with
    | none =>
      rw [h_front] at h
      cases h
    | some m =>
      rw [h_front] at h
      obtain ⟨rfl, rfl⟩ := List.cons.inj h
      refine ⟨(c :: cs).drop m.length, (List.take_append_drop _ _).symm, ?_, rfl, ?_, rfl⟩
      · rw [← List.length_pos_iff, List.length_take, List.length_cons]
        have h_pos := m.length_pos
        omega
      · refine (front?_admits h_front).imp_right fun ⟨h_label, h_length⟩ => ⟨h_label, c, ?_⟩
        show (c :: cs).take m.length = [c]
        rw [h_length, List.take_succ_cons, List.take_zero]

/-- **Behind its first segments** a division is the division of what they leave. -/
theorem divideFrom_of_append {p : Position} {cs : List Char} {before after : List Segment}
    (h : (divideFrom trivia recognisers p cs).segments = before ++ after) :
    ∃ rest, cs = before.flatMap text ++ rest ∧
      divideFrom trivia recognisers (p.advance (before.flatMap text)) rest =
        ⟨after, (divideFrom trivia recognisers p cs).ending⟩ := by
  induction before generalizing p cs with
  | nil =>
    rw [List.nil_append] at h
    exact ⟨cs, rfl, by rw [← h]; rfl⟩
  | cons s before ih =>
    obtain ⟨rest, rfl, -, -, -, h_rest⟩ := of_divideFrom_eq_cons h
    obtain ⟨rest', rfl, h_rest'⟩ := ih (congrArg Division.segments h_rest)
    refine ⟨rest', ?_, ?_⟩
    · rw [List.flatMap_cons, List.append_assoc]
    · rw [List.flatMap_cons, Position.advance_append, h_rest', h_rest]

/-- **Where a division ends:** at the end of the text, or at a quote behind which there is no
other. -/
theorem of_divideFrom_eq_nil {p : Position} {cs : List Char} {ending : Ending}
    (h : divideFrom trivia recognisers p cs = ⟨[], ending⟩) :
    cs = [] ∧ ending = .complete p ∨
      ∃ rest, cs = '"' :: rest ∧ '"' ∉ rest ∧ ending = .unclosedQuote p := by
  cases cs with
  | nil =>
    rw [divideFrom_nil] at h
    cases h
    exact .inl ⟨rfl, rfl⟩
  | cons c cs =>
    rw [divideFrom_cons] at h
    cases h_front : front? trivia recognisers c cs with
    | none =>
      rw [h_front] at h
      cases h
      obtain ⟨rfl, h_open⟩ := of_front?_eq_none h_front
      exact .inr ⟨cs, rfl, h_open, rfl⟩
    | some m =>
      rw [h_front] at h
      cases h

end Segment

/-- Where a division ends. -/
def Ending.position : Ending → Position
  | complete p => p
  | unclosedQuote p => p

/-- **Segments in order:** each begins behind the one before it has ended, none of them before the
division begins, and the last one ends before the division does. -/
structure Division.InOrder (d : Division) (p : Position) : Prop where
  pairwise : d.segments.Pairwise fun s s' => s.span.last < s'.span.first
  first : ∀ s ∈ d.segments, p ≤ s.span.first
  last : ∀ s ∈ d.segments, s.span.last < d.ending.position
  ending : p ≤ d.ending.position

/-- **The segments of a division are in order.** -/
theorem Segment.inOrder_divideFrom (p : Position) (cs : List Char) :
    (divideFrom trivia recognisers p cs).InOrder p := by
  generalize h : divideFrom trivia recognisers p cs = d
  obtain ⟨segments, ending⟩ := d
  induction segments generalizing p cs with
  | nil =>
    have h_ending : ending.position = p := by
      rcases of_divideFrom_eq_nil h with ⟨-, rfl⟩ | ⟨_, -, -, rfl⟩ <;> rfl
    exact ⟨.nil, List.forall_mem_nil _, List.forall_mem_nil _, h_ending.ge⟩
  | cons s segments ih =>
    obtain ⟨rest, -, h_text, h_span, -, h_rest⟩ :=
      of_divideFrom_eq_cons (congrArg Division.segments h)
    rw [h] at h_rest
    obtain ⟨h_order, h_first, h_last, h_ending⟩ := ih _ _ h_rest
    have h_begin : s.span.first = p := by rw [h_span]; rfl
    -- the last character of the segment is in front of what is behind the segment
    have h_end : s.span.last < p.advance s.text := by
      rw [h_span]
      show p.advance s.text.dropLast < p.advance s.text
      conv_rhs => rw [← List.dropLast_append_getLast h_text, Position.advance_append]
      exact Position.lt_advance _ (List.cons_ne_nil _ _)
    have h_next : p ≤ p.advance s.text := (Position.lt_advance p h_text).le
    exact {
      pairwise := List.pairwise_cons.2 ⟨fun s' h_s' => h_end.trans_le (h_first s' h_s'), h_order⟩
      first := List.forall_mem_cons.2 ⟨h_begin.ge, fun s' h_s' => h_next.trans (h_first s' h_s')⟩
      last := List.forall_mem_cons.2 ⟨h_end.trans_le h_ending, h_last⟩
      ending := h_next.trans h_ending }

/-! ### Offsets -/

/-- **The lexeme of a token is at the offsets** of a text from `i` to `j`, both included: it is a
segment of the text, in front of which there are `i` characters, and up to its end `j + 1`. -/
def LexemeAt (cs : List Char) (t : Token) (i j : Nat) : Prop :=
  ∃ before s after, (divide cs).segments = before ++ s :: after ∧ s.token? = some t ∧
    i = (before.flatMap Segment.text).length ∧ j + 1 = i + s.text.length

/-- **A character is skipped at the offset** `k` of a text: it is a segment of the text, in front of
which there are `k` characters. -/
def SkippedAt (cs : List Char) (skip : SkippedCharacter) (k : Nat) : Prop :=
  ∃ before s after, (divide cs).segments = before ++ s :: after ∧ s.skipped? = some skip ∧
    k = (before.flatMap Segment.text).length

/-- **The span of a segment,** by the offsets of its first and its last character. -/
theorem Segment.span_of_append {cs : List Char} {before after : List Segment} {s : Segment}
    (h : (divide cs).segments = before ++ s :: after) :
    ∃ rest, cs = before.flatMap text ++ (s.text ++ rest) ∧ s.text ≠ [] ∧
      (s.kind.Admits s.text ∨ s.kind = .skipped ∧ ∃ c, s.text = [c]) ∧
      s.span = ⟨.atOffset cs (before.flatMap text).length,
        .atOffset cs ((before.flatMap text).length + s.text.length - 1)⟩ := by
  obtain ⟨rest, rfl, h_rest⟩ := divideFrom_of_append h
  obtain ⟨rest', rfl, h_text, h_span, h_kind, -⟩ :=
    of_divideFrom_eq_cons (congrArg Division.segments h_rest)
  refine ⟨rest', rfl, h_text, h_kind, ?_⟩
  rw [h_span, Span.covering_eq _ rest' h_text]

/-- **Where the division of a text ends,** by its offset. -/
theorem ending_divide (cs : List Char) :
    (divide cs).ending = .complete (.atOffset cs cs.length) ∨
      ∃ k, k = ((divide cs).segments.flatMap Segment.text).length ∧ cs[k]? = some '"' ∧
        '"' ∉ cs.drop (k + 1) ∧ (divide cs).ending = .unclosedQuote (.atOffset cs k) := by
  obtain ⟨rest, h_cs, h_rest⟩ :=
    Segment.divideFrom_of_append (List.append_nil (divide cs).segments).symm
  change cs = (divide cs).segments.flatMap Segment.text ++ rest at h_cs
  change _ = Division.mk [] (divide cs).ending at h_rest
  generalize (divide cs).segments.flatMap Segment.text = pre at h_cs h_rest ⊢
  subst h_cs
  rcases Segment.of_divideFrom_eq_nil h_rest with ⟨rfl, h_ending⟩ | ⟨rest', rfl, h_open, h_ending⟩
  · refine .inl ?_
    rw [h_ending, Position.advance_start_append pre [], List.append_nil]
  · refine .inr ⟨pre.length, rfl, ?_, ?_, ?_⟩
    · rw [List.getElem?_append_right (Nat.le_refl _), Nat.sub_self, List.getElem?_cons_zero]
    · rw [List.drop_append, List.drop_eq_nil_of_le (Nat.le_succ _), Nat.add_sub_cancel_left]
      exact h_open
    · rw [h_ending, Position.advance_start_append pre]

/-- Tokens and skipped characters stand where their segments do. -/
theorem Segment.span_of_token? {s : Segment} {t : Token} (h : s.token? = some t) :
    t.span = s.span := by
  unfold token? at h
  split at h
  · cases h
    rfl
  · cases h

theorem Segment.span_of_skipped? {s : Segment} {skip : SkippedCharacter}
    (h : s.skipped? = some skip) : s.kind = .skipped ∧ skip.span = s.span ∧
      ∃ rest, s.text = skip.character :: rest := by
  unfold skipped? at h
  split at h
  · next c rest h_kind h_text =>
    cases h
    exact ⟨h_kind, rfl, rest, h_text⟩
  · cases h

/-! ### Scripts -/

/-- **Spans are exact:** all that a script's spans say, in terms of offsets. -/
structure SpansExact (source : String) : Prop where
  /-- Every lexeme is somewhere in the script, -/
  located : ∀ t ∈ (divide source.toList).tokens, ∃ i j, LexemeAt source.toList t i j
  /-- where it is as it is spelled, quotes included, and its span goes from the position of its
  first character to that of its last. -/
  lexeme : ∀ t i j, LexemeAt source.toList t i j →
    i ≤ j ∧ j < source.toList.length ∧
      (source.toList.drop i).take (j + 1 - i) = spelling t.kind t.text ∧
      t.span = ⟨.atOffset source.toList i, .atOffset source.toList j⟩
  /-- Every skipped character is somewhere in the script, -/
  skippedLocated : ∀ skip ∈ skippedCharacters source, ∃ k, SkippedAt source.toList skip k
  /-- and its span is the point where it is. -/
  skipped : ∀ skip k, SkippedAt source.toList skip k →
    source.toList[k]? = some skip.character ∧ skip.span = .point (.atOffset source.toList k)
  /-- The token that ends the script is at the point where the script ends. -/
  complete : ∀ tokens, tokenize source = .ok tokens → tokens =
    (divide source.toList).tokens ++ [.endOfInput (.atOffset source.toList source.toList.length)]
  /-- An error is at the point of the quote that is never closed. -/
  unterminated : ∀ error, tokenize source = .error error → ∃ k, source.toList[k]? = some '"' ∧
    '"' ∉ source.toList.drop (k + 1) ∧
    (∀ t i j, LexemeAt source.toList t i j → j < k) ∧
    error = .unterminatedString (.point (.atOffset source.toList k))
  /-- Each token begins behind the one before it has ended, whether the script is read to its end
  or not. -/
  increasing : ((divide source.toList).tokens.Pairwise fun t u => t.span.last < u.span.first) ∧
    ∀ tokens, tokenize source = .ok tokens →
      tokens.Pairwise (fun t u => t.span.last < u.span.first) ∧
        ∀ t ∈ tokens, t.span.first ≤ t.span.last

/-- What is read off the segments of a text is read off one of them, in front of which are others. -/
private theorem exists_append_of_mem_filterMap {α : Type} {f : Segment → Option α} {a : α}
    {segments : List Segment} (h : a ∈ segments.filterMap f) :
    ∃ before s after, segments = before ++ s :: after ∧ f s = some a := by
  obtain ⟨s, h_s, h_a⟩ := List.mem_filterMap.1 h
  obtain ⟨before, after, h_segments⟩ := List.append_of_mem h_s
  exact ⟨before, s, after, h_segments, h_a⟩

/-- A lexeme is at least one character long, and within the text. -/
private theorem LexemeAt.spelled {cs : List Char} {t : Token} {i j : Nat} (h : LexemeAt cs t i j) :
    i ≤ j ∧ j < ((divide cs).segments.flatMap Segment.text).length ∧ j < cs.length ∧
      (cs.drop i).take (j + 1 - i) = spelling t.kind t.text ∧
      t.span = ⟨.atOffset cs i, .atOffset cs j⟩ := by
  obtain ⟨before, s, after, h_segments, h_token, rfl, h_j⟩ := h
  obtain ⟨rest, h_cs, h_text, h_kind, h_span⟩ := Segment.span_of_append h_segments
  have h_pos := List.length_pos_iff.2 h_text
  have h_length : cs.length =
      (before.flatMap Segment.text).length + (s.text.length + rest.length) := by
    conv_lhs => rw [h_cs, List.length_append, List.length_append]
  have h_spelling : s.text = spelling t.kind t.text := by
    obtain ⟨h_lexeme, -⟩ := s.read_piece h_kind
    rw [h_token] at h_lexeme
    unfold Segment.piece Piece.lexeme? at h_lexeme
    dsimp only at h_lexeme
    split at h_lexeme
    · exact congrArg Prod.snd (Option.some.inj h_lexeme)
    · cases h_lexeme
  refine ⟨by omega, ?_, by omega, ?_, ?_⟩
  · rw [h_segments, List.flatMap_append, List.flatMap_cons, List.length_append, List.length_append]
    omega
  · rw [h_j, Nat.add_sub_cancel_left, ← h_spelling]
    conv_lhs => rw [h_cs, List.drop_left, List.take_left]
  · rw [Segment.span_of_token? h_token, h_span, ← h_j, Nat.add_sub_cancel]

/-- A skipped character is a single one. -/
private theorem SkippedAt.character {cs : List Char} {skip : SkippedCharacter} {k : Nat}
    (h : SkippedAt cs skip k) :
    cs[k]? = some skip.character ∧ skip.span = .point (.atOffset cs k) := by
  obtain ⟨before, s, after, h_segments, h_skip, rfl⟩ := h
  obtain ⟨rest, h_cs, -, h_kind, h_span⟩ := Segment.span_of_append h_segments
  obtain ⟨h_skipped, h_same, more, h_text⟩ := Segment.span_of_skipped? h_skip
  obtain rfl : more = [] := by
    rcases h_kind with admits | ⟨-, c, h_single⟩
    · rw [h_skipped] at admits
      exact absurd admits id
    · rw [h_text] at h_single
      exact (List.cons.inj h_single).2
  rw [h_text] at h_cs h_span
  refine ⟨?_, by rw [h_same, h_span]; rfl⟩
  conv_lhs => rw [h_cs]
  rw [List.getElem?_append_right (Nat.le_refl _), Nat.sub_self]
  rfl

/-- What the tokens of a script are, by how its division ends. -/
theorem tokenize_eq (source : String) : tokenize source =
    match (divide source.toList).ending with
    | .complete p => .ok ((divide source.toList).tokens ++ [.endOfInput p])
    | .unclosedQuote p => .error (.unterminatedString (.point p)) := by
  show (divide source.toList).last.map _ = _
  unfold Division.last
  cases (divide source.toList).ending <;> rfl

/-- **Spans are exact,** whatever the script: a lexeme at the offsets from `i` to `j` has the span
between the positions at these offsets, where lines are counted by line feeds and columns by
characters since the last of them; a skipped character has the point where it is, the end of input
the point where the script ends, and an error the point of the quote that is never closed. So the
spans of tokens follow one another and do not overlap. -/
theorem tokenize_spansExact (source : String) : SpansExact source := by
  have h_order := Segment.inOrder_divideFrom .start source.toList
  have h_pairwise : (divide source.toList).tokens.Pairwise fun t u => t.span.last < u.span.first := by
    refine List.pairwise_filterMap.2 (h_order.pairwise.imp fun h t h_t u h_u => ?_)
    rw [Segment.span_of_token? h_t, Segment.span_of_token? h_u]
    exact h
  have h_located : ∀ t ∈ (divide source.toList).tokens, ∃ i j, LexemeAt source.toList t i j := by
    intro t h_t
    obtain ⟨before, s, after, h_segments, h_token⟩ := exists_append_of_mem_filterMap h_t
    have h_pos := List.length_pos_iff.2 (Segment.span_of_append h_segments).choose_spec.2.1
    exact ⟨_, (before.flatMap Segment.text).length + s.text.length - 1, before, s, after,
      h_segments, h_token, rfl, by omega⟩
  have h_complete : ∀ tokens, tokenize source = .ok tokens → tokens =
      (divide source.toList).tokens ++
        [.endOfInput (.atOffset source.toList source.toList.length)] := by
    intro tokens h
    rw [tokenize_eq] at h
    rcases ending_divide source.toList with h_ending | ⟨k, -, -, -, h_ending⟩
    · rw [h_ending] at h
      exact (Except.ok.inj h).symm
    · rw [h_ending] at h
      cases h
  refine {
    located := h_located
    lexeme := fun t i j h => ⟨h.spelled.1, h.spelled.2.2⟩
    skippedLocated := fun skip h_skip => ?_
    skipped := fun skip k h => h.character
    complete := h_complete
    unterminated := fun error h => ?_
    increasing := ⟨h_pairwise, fun tokens h => ?_⟩ }
  · obtain ⟨before, s, after, h_segments, h_s⟩ := exists_append_of_mem_filterMap h_skip
    exact ⟨_, before, s, after, h_segments, h_s, rfl⟩
  · rw [tokenize_eq] at h
    rcases ending_divide source.toList with h_ending | ⟨k, h_k, h_quote, h_open, h_ending⟩
    · rw [h_ending] at h
      cases h
    · rw [h_ending] at h
      refine ⟨k, h_quote, h_open, fun t i j h_t => ?_, (Except.error.inj h).symm⟩
      rw [h_k]
      exact h_t.spelled.2.1
  · -- the lexemes are in front of the end of input
    rw [h_complete tokens h]
    refine ⟨List.pairwise_append.2 ⟨h_pairwise, List.pairwise_singleton _ _, fun t h_t u h_u => ?_⟩,
      List.forall_mem_append.2 ⟨fun t h_t => ?_, List.forall_mem_singleton.2 le_rfl⟩⟩
    · obtain rfl := List.mem_singleton.1 h_u
      obtain ⟨i, j, h_at⟩ := h_located t h_t
      obtain ⟨-, -, h_j, -, h_span⟩ := h_at.spelled
      rw [h_span]
      exact Position.atOffset_lt h_j (Nat.le_refl _)
    · obtain ⟨i, j, h_at⟩ := h_located t h_t
      obtain ⟨h_le, -, h_j, -, h_span⟩ := h_at.spelled
      rw [h_span]
      exact Position.atOffset_le h_le (Nat.le_of_lt h_j)

end ScriptLang
