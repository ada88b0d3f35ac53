import ScriptLang.Proofs.Token.Placement

/-!
# Which segment stands in front

A segment is found in front of whatever does not go on with it, and of nothing else. What goes on
with it is a matter of the next character alone: blanks go on with blanks, a comment goes on until
its line ends, a lexeme with the few characters that make a longer one of it, and a skipped character
goes on in one case only, an exclamation mark with an equals sign behind it. So a text can be changed
behind any of its segments without that segment noticing, as long as the next character stays the
same or is any other that does not go on with the segment.

* `SegmentKind.GoesOn` — the characters that go on with a segment.
* `standsBefore_iff` — what stands in front, in terms of its own text and of the next character.
* `Segment.divideFrom_segment` — a segment in front is the first of the division.
* `Segment.text_induction` — induction along the segments of a text.
-/

namespace ScriptLang

open Recogniser Lexeme Segment

/-! ### Texts of segments -/

/-- **A character that begins no segment,** so that it is skipped. The exclamation mark is one of
them, but not in front of an equals sign, with which it is a symbol. -/
structure BeginsNothing (c : Char) : Prop where
  word : isWordCharacter c = false
  digit : c.isDigit = false
  blank : isBlank c = false
  hash : c ≠ '#'
  quote : c ≠ '"'
  symbol : c = '!' ∨ isSymbolCharacter c = false

namespace SegmentKind

/-- **The texts that segments have:** those of their kinds, and single characters that are
skipped. -/
def IsText (kind : SegmentKind) (text : List Char) : Prop :=
  kind.Admits text ∨ kind = .skipped ∧ ∃ c, text = [c] ∧ BeginsNothing c

/-- **The characters that go on with a segment** when they stand behind it. -/
def GoesOn : SegmentKind → List Char → Char → Prop
  | .blank, _, c => isBlank c = true
  | .comment, _, c => c ≠ '\n'
  | .skipped, text, c => text = ['!'] ∧ c = '='
  | .token kind, _, c => continues kind c = true

/-- A segment ends in front of a text that does not go on with it. -/
def EndsAt (kind : SegmentKind) (text rest : List Char) : Prop :=
  ∀ c ∈ rest.head?, ¬kind.GoesOn text c

theorem EndsAt.of_begins {kind : SegmentKind} {text rest pre : List Char}
    (h : kind.EndsAt text rest) (h_pre : pre <+: rest) : kind.EndsAt text pre := by
  intro c h_c
  obtain ⟨more, rfl⟩ := h_pre
  obtain ⟨pre, rfl⟩ := List.head?_eq_some_iff.1 h_c
  exact h c rfl

/-- What is put behind the following text does not come next, unless that text is empty. -/
theorem EndsAt.append {kind : SegmentKind} {text rest more : List Char}
    (h : kind.EndsAt text rest) (h_more : rest = [] → kind.EndsAt text more) :
    kind.EndsAt text (rest ++ more) := by
  cases rest with
  | nil => exact h_more rfl
  | cons c rest => exact h

/-- **Only blank runs and comments go on** with a character that stands in no lexeme. -/
theorem not_goesOn {kind : SegmentKind} {c : Char} (h_blank : kind ≠ .blank)
    (h_comment : kind ≠ .comment) (h_word : isWordCharacter c = false)
    (h_digit : c.isDigit = false) (h_symbol : isSymbolCharacter c = false) (text : List Char) :
    ¬kind.GoesOn text c := by
  have h_equals : c ≠ '=' := by
    rintro rfl
    cases h_symbol
  cases kind with
  | blank => exact absurd rfl h_blank
  | comment => exact absurd rfl h_comment
  | skipped => exact fun h => h_equals h.2
  | token kind => exact Bool.eq_false_iff.1 (not_continues kind h_word h_digit h_equals)

@[simp] theorem isText_blank {text : List Char} :
    IsText .blank text ↔ text ≠ [] ∧ ∀ c ∈ text, isBlank c = true :=
  or_iff_left nofun

@[simp] theorem isText_comment {text : List Char} :
    IsText .comment text ↔ ∃ line, text = '#' :: line ∧ '\n' ∉ line :=
  or_iff_left nofun

@[simp] theorem isText_token {kind : TokenKind} {text : List Char} :
    IsText (.token kind) text ↔ ∃ content, Fits kind content ∧ text = spelling kind content :=
  or_iff_left nofun

@[simp] theorem isText_skipped {text : List Char} :
    IsText .skipped text ↔ ∃ c, text = [c] ∧ BeginsNothing c :=
  (or_iff_right id).trans (and_iff_right rfl)

theorem IsText.ne_nil {kind : SegmentKind} {text : List Char} (h : kind.IsText text) :
    text ≠ [] := by
  rcases h with admits | ⟨-, c, rfl, -⟩
  · exact admits.ne_nil
  · exact List.cons_ne_nil _ _

/-- **What goes on with a segment makes a longer text of it,** though perhaps one of another
kind. -/
theorem IsText.exists_admits {kind : SegmentKind} {text : List Char} (h : kind.IsText text)
    {c : Char} (h_c : kind.GoesOn text c) : ∃ kind' : SegmentKind, kind'.Admits (text ++ [c]) := by
  cases kind with
  | blank =>
    -- one more blank is still a blank run
    obtain ⟨-, h_all⟩ := isText_blank.1 h
    exact ⟨.blank, List.concat_ne_nil c text,
      List.forall_mem_append.2 ⟨h_all, List.forall_mem_singleton.2 h_c⟩⟩
  | comment =>
    -- the line of the comment gets one character longer
    obtain ⟨line, rfl, h_line⟩ := isText_comment.1 h
    refine ⟨.comment, line ++ [c], rfl, fun h_mem => ?_⟩
    rcases List.mem_append.1 h_mem with h_mem | h_mem
    · exact h_line h_mem
    · exact h_c (List.mem_singleton.1 h_mem).symm
  | skipped =>
    -- the skipped exclamation mark becomes a symbol
    obtain ⟨rfl, rfl⟩ := h_c
    exact ⟨.token .bangEqual, "!=", rfl, by decide⟩
  | token kind =>
    obtain ⟨content, h_fits, rfl⟩ := isText_token.1 h
    obtain ⟨kind', content', h_fits', h_spelling⟩ := exists_fits_of_continues h_fits h_c
    exact ⟨.token kind', content', h_fits', h_spelling.symm⟩

end SegmentKind

/-! ### What stands in front -/

/-- **A segment stands in front of a text:** the text of the segment, with the other one behind it,
is found to begin with the segment. -/
def StandsBefore (kind : SegmentKind) (text rest : List Char) : Prop :=
  ∃ c cs m, text ++ rest = c :: cs ∧ front? trivia recognisers c cs = some m ∧ m.label = kind ∧
    m.length = text.length

/-- **What stands in front is what is found there,** and it divides the text into the segment and what
is behind it. -/
theorem StandsBefore.exists_front? {kind : SegmentKind} {text rest : List Char}
    (h : StandsBefore kind text rest) : ∃ c cs m, text ++ rest = c :: cs ∧
      front? trivia recognisers c cs = some m ∧ m.label = kind ∧
      (c :: cs).take m.length = text ∧ (c :: cs).drop m.length = rest := by
  obtain ⟨c, cs, m, h_text, h_front, h_label, h_length⟩ := h
  refine ⟨c, cs, m, h_text, h_front, h_label, ?_, ?_⟩
  · rw [← h_text, h_length]
    exact List.take_left
  · rw [← h_text, h_length]
    exact List.drop_left

/-- A character is skipped only where nothing of any kind stands. -/
private theorem beginsNothing_of_skipped {c : Char} {cs : List Char} {m : Found SegmentKind}
    (h : front? trivia recognisers c cs = some m) (h_label : m.label = .skipped) :
    BeginsNothing c := by
  have nothing : ∀ kind : SegmentKind, ¬kind.Admits [c] := by
    intro kind admits
    -- by itself it would be of some kind, and then something would be found that is not skipped
    obtain ⟨m', h_m', h_label', -⟩ := le_of_admits admits (⟨cs, rfl⟩ : [c] <+: c :: cs)
    obtain rfl : m = m' := Option.some.inj (h.symm.trans h_m')
    exact h_label' h_label
  have h_blank : isBlank c = false := by
    rw [Bool.eq_false_iff]
    intro h_c
    exact nothing .blank ⟨List.cons_ne_nil _ _, List.forall_mem_singleton.2 h_c⟩
  have h_hash : c ≠ '#' := by
    rintro rfl
    exact nothing .comment ⟨[], rfl, List.not_mem_nil⟩
  refine ⟨?_, ?_, h_blank, h_hash, ?_, ?_⟩
  · rw [Bool.eq_false_iff]
    intro h_c
    -- a word of one character
    obtain ⟨h_string, h_fits⟩ :=
      fits_wordKind (List.cons_ne_nil c []) (List.forall_mem_singleton.2 h_c)
    refine nothing (.token (wordKind [c])) ⟨_, h_fits, ?_⟩
    rw [spelling, if_neg h_string, String.toList_ofList]
  · rw [Bool.eq_false_iff]
    intro h_c
    refine nothing (.token .number) ⟨String.ofList [c], ?_, String.toList_ofList.symm⟩
    rw [Fits, String.toList_ofList]
    exact ⟨List.cons_ne_nil _ _, List.forall_mem_singleton.2 h_c⟩
  · -- a quote either begins a string or stops the division
    rintro rfl
    rw [front?_lexeme h_blank h_hash, if_pos rfl, Option.or_none] at h
    obtain ⟨m', -, rfl⟩ := Option.map_eq_some_iff.1 h
    cases h_label
  · by_contra h_c
    obtain ⟨h_bang, h_symbol⟩ := not_or.1 h_c
    rw [Bool.not_eq_false] at h_symbol
    -- every other character of a symbol is one by itself
    obtain ⟨kind, h_kind, h_describe⟩ := forall_symbolCharacter
      (p := fun d => d ≠ '!' → ∃ kind ∈ TokenKind.symbols, kind.describe.toList = [d])
      (by decide +kernel) h_symbol h_bang
    refine nothing (.token kind) ⟨kind.describe, (fits_symbol h_kind).2 rfl, ?_⟩
    rw [spelling_symbol h_kind, h_describe]

/-- No lexeme begins with a character that begins nothing, unless it goes on as a symbol. -/
private theorem longest?_of_beginsNothing {c : Char} (h : BeginsNothing c) {rest : List Char}
    (h_rest : SegmentKind.EndsAt .skipped [c] rest) : longest? recognisers (c :: rest) = none := by
  rcases h.symbol with rfl | h_symbol
  · rw [longest?_symbol h.word h.digit h.quote]
    refine longest?_eq_none fun r h_r => ?_
    obtain ⟨kind, h_kind, rfl⟩ := List.mem_map.1 h_r
    cases h_find : symbol kind ('!' :: rest) with
    | none => rfl
    | some m =>
      obtain ⟨begins, -⟩ := symbol_eq_some.1 h_find
      -- there is one symbol with this character in front, and an equals sign comes next in it
      have h_bang : ∀ k ∈ TokenKind.symbols, k.describe.toList = ['!', '='] ∨
          k.describe.toList.head? ≠ some '!' := by
        decide
      rcases h_bang kind h_kind with h_text | h_head
      · rw [h_text, List.cons_prefix_cons] at begins
        obtain ⟨more, rfl⟩ := begins.2
        exact absurd ⟨rfl, rfl⟩ (h_rest '=' rfl)
      · obtain ⟨d, ds, h_text⟩ := List.exists_cons_of_ne_nil kind.describe_ne_nil
        rw [h_text, List.cons_prefix_cons] at begins
        rw [h_text, begins.1] at h_head
        exact absurd rfl h_head
  · exact longest?_none h.word h.digit h.quote h_symbol

namespace SegmentKind

/-- A text of a segment is found in front of whatever does not go on with it. -/
private theorem IsText.standsBefore {kind : SegmentKind} {text rest : List Char}
    (h : kind.IsText text) (h_rest : kind.EndsAt text rest) : StandsBefore kind text rest := by
  obtain ⟨c, cs, rfl⟩ := List.exists_cons_of_ne_nil h.ne_nil
  refine ⟨c, cs ++ rest, ?_⟩
  cases kind with
  | blank =>
    -- the run is taken whole, and nothing behind it
    obtain ⟨-, h_all⟩ := isText_blank.1 h
    have h_run : (c :: (cs ++ rest)).takeWhile isBlank = c :: cs :=
      takeWhile_border h_all fun d h_d => Bool.eq_false_iff.2 (h_rest d h_d)
    refine ⟨⟨.blank, _, Nat.succ_pos cs.length⟩, rfl, ?_, rfl, rfl⟩
    rw [front?_blank (h_all c List.mem_cons_self), Segment.blank, runOf_eq_some, h_run]
    exact ⟨Nat.succ_pos _, rfl, rfl⟩
  | comment =>
    -- behind the hash sign, all that is in front of the end of the line
    obtain ⟨line, h_text, h_line⟩ := isText_comment.1 h
    obtain ⟨rfl, rfl⟩ := List.cons.inj h_text
    have h_run : (cs ++ rest).takeWhile (· ≠ '\n') = cs := by
      refine takeWhile_border (fun d h_d => ?_) fun d h_d => ?_
      · rw [decide_eq_true_eq]
        rintro rfl
        exact h_line h_d
      · exact decide_eq_false (h_rest d h_d)
    rw [front?_comment, Segment.comment]
    refine ⟨_, rfl, rfl, rfl, ?_⟩
    simp only [h_run, List.length_cons]
  | skipped =>
    -- neither a blank run, nor a comment, nor a lexeme, and no quote that would stop the division
    obtain ⟨d, h_text, h_d⟩ := isText_skipped.1 h
    obtain ⟨rfl, rfl⟩ := List.cons.inj h_text
    refine ⟨⟨.skipped, 1, Nat.one_pos⟩, rfl, ?_, rfl, rfl⟩
    rw [List.nil_append, front?_lexeme h_d.blank h_d.hash, longest?_of_beginsNothing h_d h_rest,
      if_neg h_d.quote]
    rfl
  | token kind =>
    -- the longest lexeme ends at the border
    obtain ⟨content, h_fits, h_text⟩ := isText_token.1 h
    have h_border : ∀ d ∈ rest.head?, continues kind d = false := fun d h_d =>
      Bool.eq_false_iff.2 (h_rest d h_d)
    obtain ⟨m, h_m, rfl, h_length⟩ := longest?_spelling h_fits h_border
    rw [← h_text] at h_m h_length
    exact ⟨m.map .token, rfl, front?_token h_m, rfl, h_length⟩

end SegmentKind

/-- **What stands in front:** a segment does so exactly if it has one of the texts of its kind and
the next character does not go on with it. -/
theorem standsBefore_iff {kind : SegmentKind} {text rest : List Char} :
    StandsBefore kind text rest ↔ kind.IsText text ∧ kind.EndsAt text rest := by
  constructor
  · rintro ⟨c, cs, m, h_text, h_front, rfl, h_length⟩
    have h_take : (c :: cs).take m.length = text := by
      rw [← h_text, h_length]
      exact List.take_left
    -- what is found has a text of its kind, or is a character at which nothing is found
    have h_isText : m.label.IsText text := by
      rcases front?_admits h_front with admits | ⟨h_label, h_one⟩
      · rw [h_take] at admits
        exact .inl admits
      · rw [h_one] at h_take
        exact .inr ⟨h_label, c, h_take.symm, beginsNothing_of_skipped h_front h_label⟩
    refine ⟨h_isText, fun d h_d h_goesOn => ?_⟩
    -- with the next character it would be longer, and the longest is found
    obtain ⟨kind', admits⟩ := h_isText.exists_admits h_goesOn
    obtain ⟨ds, rfl⟩ := List.head?_eq_some_iff.1 h_d
    have begins : text ++ [d] <+: c :: cs := ⟨ds, by rw [← h_text, List.append_assoc]; rfl⟩
    obtain ⟨m', h_m', -, h_le⟩ := le_of_admits admits begins
    obtain rfl : m = m' := Option.some.inj (h_front.symm.trans h_m')
    rw [h_length, List.length_append, List.length_singleton] at h_le
    omega
  · rintro ⟨h_isText, h_rest⟩
    exact h_isText.standsBefore h_rest

/-- **Behind a segment a text can change,** if what comes next does not go on with it either. -/
theorem StandsBefore.of_endsAt {kind : SegmentKind} {text rest rest' : List Char}
    (h : StandsBefore kind text rest) (h_rest : kind.EndsAt text rest') :
    StandsBefore kind text rest' :=
  standsBefore_iff.2 ⟨(standsBefore_iff.1 h).1, h_rest⟩

/-- Nothing stands in front where a quote has no other behind it. -/
theorem front?_unclosed {cs : List Char} (h : '"' ∉ cs) :
    front? trivia recognisers '"' cs = none := by
  have h_string : string ('"' :: cs) = none := by
    cases h_find : string ('"' :: cs) with
    | none => rfl
    | some m =>
      -- a string would end with the other quote
      obtain ⟨body, rest, h_text, -⟩ := string_eq_some h_find
      rw [(List.cons.inj h_text).2] at h
      exact absurd (List.mem_append_right body List.mem_cons_self) h
  rw [front?_lexeme (by decide) (by decide), longest?_string, h_string, if_pos rfl]
  rfl

/-! ### Division by segments -/

namespace Segment

/-- **A segment in front** is the first of the division, which goes on behind it. -/
theorem divideFrom_segment (p : Position) {kind : SegmentKind} {text rest : List Char}
    (h : StandsBefore kind text rest) :
    divideFrom trivia recognisers p (text ++ rest) =
      ⟨⟨kind, text, .covering p text⟩ ::
          (divideFrom trivia recognisers (p.advance text) rest).segments,
        (divideFrom trivia recognisers (p.advance text) rest).ending⟩ := by
  -- the division takes the text of the segment off and goes on with what is behind it
  obtain ⟨c, cs, m, h_text, h_front, rfl, h_take, h_drop⟩ := h.exists_front?
  rw [h_text, divideFrom_cons, h_front]
  simp only [h_take, h_drop]

/-- A quote that is never closed stops the division. -/
theorem divideFrom_unclosed (p : Position) {cs : List Char} (h : '"' ∉ cs) :
    divideFrom trivia recognisers p ('"' :: cs) = ⟨[], .unclosedQuote p⟩ := by
  rw [divideFrom_cons, front?_unclosed h]

/-- **Induction along the segments of a text.** To prove something of every text, prove it of the
empty text, of a quote behind which there is no other, and of a segment in front of a text of which
it holds already. -/
theorem text_induction {P : List Char → Prop} (nil : P [])
    (unclosed : ∀ cs, '"' ∉ cs → P ('"' :: cs))
    (segment : ∀ kind text rest, StandsBefore kind text rest → P rest → P (text ++ rest))
    (cs : List Char) : P cs := by
  induction cs using Segment.induction with
  | nil => exact nil
  | stop c cs h_front =>
    obtain ⟨rfl, h_open⟩ := of_front?_eq_none h_front
    exact unclosed cs h_open
  | cons c cs m h_front ih =>
    rw [← List.take_append_drop m.length (c :: cs)]
    refine segment m.label _ _ ⟨c, cs, m, List.take_append_drop _ _, h_front, rfl, ?_⟩ ih
    rw [List.length_take, Nat.min_eq_left (length_le_of_front? h_front)]

end Segment

end ScriptLang
