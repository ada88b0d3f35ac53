import Mathlib.Data.List.Basic
import ScriptLang.Proofs.Token.Wording

/-!
# The longest match

A text is read piece by piece, each piece being the longest that any class of pieces has to offer:
runs of blanks, comments, and the lexemes of all kinds of tokens. A character is skipped only where
no class has anything to offer. This says nothing of how pieces are found, and still leaves no
choice: a text is read in one way at most, and that is how scripts are divided.

* `SegmentKind.Admits` — the texts of a kind of segment.
* `Lexing` — how a text is read by the longest match, and `Lexing.unique`: in one way at most.
* `Segment.front?_admits`, `Segment.le_of_front?` — what stands at the front of a text is of its
  kind, and nothing longer is of any kind.
* `Segment.lexing_divideFrom` — a complete division reads its text by the longest match.
* `tokenize_longest_match` — the tokens of a script are those of its longest match.
-/

namespace ScriptLang

open Recogniser Lexeme

/-! ### Reading by the longest match -/

/-- **The texts of a kind of segment.** A skipped character is of no kind that has texts. -/
def SegmentKind.Admits : SegmentKind → List Char → Prop
  | .blank, text => text ≠ [] ∧ ∀ c ∈ text, isBlank c = true
  | .comment, text => ∃ line, text = '#' :: line ∧ '\n' ∉ line
  | .token kind, text => ∃ content, Fits kind content ∧ text = spelling kind content
  | .skipped, _ => False

/-- A piece of a text, wherever it stands. -/
structure Piece where
  kind : SegmentKind
  text : List Char

/-- **How a text is read by the longest match.** The piece in front is the longest text of any kind
that stands there; a character is skipped if no text of any kind does. -/
inductive Lexing : List Char → List Piece → Prop where
  | nil : Lexing [] []
  | found {kind : SegmentKind} {text rest pieces} (admits : kind.Admits text)
      (longest : ∀ kind' : SegmentKind, ∀ text', kind'.Admits text' → text' <+: text ++ rest →
        text'.length ≤ text.length)
      (following : Lexing rest pieces) : Lexing (text ++ rest) (⟨kind, text⟩ :: pieces)
  | skipped {c rest pieces}
      (nothing : ∀ kind : SegmentKind, ∀ text, kind.Admits text → ¬text <+: c :: rest)
      (following : Lexing rest pieces) : Lexing (c :: rest) (⟨.skipped, [c]⟩ :: pieces)

/-- **Nothing is lost:** the pieces put together are the text. -/
theorem Lexing.flatMap_text {cs : List Char} {pieces : List Piece} (h : Lexing cs pieces) :
    pieces.flatMap Piece.text = cs := by
  induction h with
  | nil => rfl
  | found _ _ _ ih => rw [List.flatMap_cons, ih]
  | skipped _ _ ih =>
    rw [List.flatMap_cons, ih]
    rfl

/-! ### What the recognisers find -/

/-- The longest find is at least as long as any other. -/
theorem Recogniser.le_longest? {α : Type} {rs : List (Recogniser α)} {r : Recogniser α}
    (h_r : r ∈ rs) {cs : List Char} {m : Found α} (h : r cs = some m) :
    ∃ m', longest? rs cs = some m' ∧ m.length ≤ m'.length := by
  have h_mem : m ∈ rs.filterMap (· cs) := List.mem_filterMap.2 ⟨r, h_r, h⟩
  exact ⟨_, (Option.some_get _).symm, List.le_apply_get_maxOn?_of_mem h_mem⟩

namespace Lexeme

/-- A run is no shorter if more text follows. -/
private theorem length_takeWhile_le (p : Char → Bool) (a b : List Char) :
    (a.takeWhile p).length ≤ ((a ++ b).takeWhile p).length := by
  rw [List.takeWhile_append]
  split
  · rw [List.length_append]
    exact Nat.le_add_right_of_le (List.takeWhile_prefix p).length_le
  · exact Nat.le_refl _

private theorem runOf_append_le {α : Type} {inClass : Char → Bool} {label : List Char → α}
    {a : List Char} {m : Found α} (h : runOf inClass label a = some m) (b : List Char) :
    ∃ m', runOf inClass label (a ++ b) = some m' ∧ m.length ≤ m'.length := by
  obtain ⟨h_pos, _, h_length⟩ := runOf_eq_some.1 h
  have h_le := length_takeWhile_le inClass a b
  refine ⟨⟨_, _, Nat.lt_of_lt_of_le h_pos h_le⟩, runOf_eq_some.2 ⟨?_, rfl, rfl⟩, ?_⟩
  · exact Nat.lt_of_lt_of_le h_pos h_le
  · rw [h_length]
    exact h_le

/-- **A find is not lost if more text follows,** though it may become longer. -/
theorem find_append {r : Recogniser TokenKind} (h_r : r ∈ recognisers) {a : List Char}
    {m : Found TokenKind} (h : r a = some m) (b : List Char) :
    ∃ m', r (a ++ b) = some m' ∧ m.length ≤ m'.length := by
  rcases mem_recognisers.1 h_r with ⟨kind, h_kind, rfl⟩ | rfl | rfl | rfl
  · obtain ⟨h_begins, h_label, h_length⟩ := symbol_eq_some.1 h
    have h_begins' := h_begins.trans (List.prefix_append a b)
    exact ⟨m, symbol_eq_some.2 ⟨h_begins', h_label, h_length⟩, Nat.le_refl _⟩
  · exact runOf_append_le h b
  · -- the string is closed in front of what follows
    obtain ⟨body, rest, rfl, h_body, _, h_length⟩ := string_eq_some h
    obtain ⟨m', h_m', _, h_length'⟩ := string_quoted h_body (rest ++ b)
    refine ⟨m', ?_, Nat.le_of_eq (h_length.trans h_length'.symm)⟩
    rw [← h_m', List.cons_append, List.append_assoc, List.cons_append]
  · exact runOf_append_le h b

/-- **No lexeme in front of a text is longer than the longest find.** -/
theorem le_longest?_of_fits {kind : TokenKind} {content : String} (h : Fits kind content)
    {cs : List Char} (begins : spelling kind content <+: cs) :
    ∃ m, longest? recognisers cs = some m ∧ (spelling kind content).length ≤ m.length := by
  obtain ⟨rest, rfl⟩ := begins
  -- the lexeme is found where it stands alone, so something as long is found here
  obtain ⟨m, h_m, _, h_length⟩ := longest?_spelling_self h
  obtain ⟨r, h_r, h_found⟩ := longest?_mem h_m
  obtain ⟨m₁, h_m₁, h_le₁⟩ := find_append h_r h_found rest
  obtain ⟨m₂, h_m₂, h_le₂⟩ := le_longest? h_r h_m₁
  refine ⟨m₂, h_m₂, ?_⟩
  calc
    (spelling kind content).length = m.length := h_length.symm
    _ ≤ m₁.length := h_le₁
    _ ≤ m₂.length := h_le₂

private theorem wordKind_ne_string (w : List Char) : wordKind w ≠ .string := by
  unfold wordKind keyword
  split
  · decide
  · split <;> decide

/-- **A lexeme that is found is spelled by its text,** with quotes around it if it is a string. -/
theorem spelling_content_of_longest? {cs : List Char} {m : Found TokenKind}
    (h : longest? recognisers cs = some m) :
    spelling m.label (String.ofList (content m.label (cs.take m.length))) = cs.take m.length := by
  by_cases h_label : m.label = .string
  · -- the recogniser of strings is the only one that can have found it
    obtain ⟨r, h_r, h_found⟩ := longest?_mem h
    rcases mem_recognisers.1 h_r with ⟨kind, h_kind, rfl⟩ | rfl | rfl | rfl
    · obtain ⟨_, rfl, _⟩ := symbol_eq_some.1 h_found
      rw [h_label] at h_kind
      exact absurd h_kind (by decide)
    · rw [(runOf_eq_some.1 h_found).2.1] at h_label
      exact absurd h_label (wordKind_ne_string _)
    · obtain ⟨body, _, _, h_text⟩ := take_of_string h_found
      rw [h_text, h_label, spelling, if_pos rfl, content, if_pos rfl, List.tail_cons,
        List.dropLast_concat, String.toList_ofList]
    · rw [(runOf_eq_some.1 h_found).2.1] at h_label
      cases h_label
  · rw [spelling, if_neg h_label, content, if_neg h_label, String.toList_ofList]

end Lexeme

/-! ### What stands at the front -/

/-- The run at the front of a text, taken off it by its length. -/
private theorem take_takeWhile (p : Char → Bool) (cs : List Char) :
    cs.take (cs.takeWhile p).length = cs.takeWhile p :=
  (List.prefix_iff_eq_take.1 (List.takeWhile_prefix p)).symm

private theorem of_mem_takeWhile {p : Char → Bool} {cs : List Char} {c : Char}
    (h : c ∈ cs.takeWhile p) : p c = true := List.all_eq_true.1 List.all_takeWhile c h

namespace Segment

/-- **What stands at the front of a text is of its kind,** unless it is a single character that is
skipped. -/
theorem front?_admits {c : Char} {cs : List Char} {m : Found SegmentKind}
    (h : front? trivia recognisers c cs = some m) :
    m.label.Admits ((c :: cs).take m.length) ∨ m.label = .skipped ∧ m.length = 1 := by
  rcases front?_cases h with ⟨rfl, h_label, h_length⟩ | ⟨h_blank, h_label, h_length⟩ |
    ⟨m', h_longest, rfl⟩ | ⟨-, h_skipped⟩
  · -- a comment is a hash sign and what is up to the end of the line
    rw [h_label, h_length, List.take_succ_cons, take_takeWhile]
    refine .inl ⟨cs.takeWhile (· ≠ '\n'), rfl, fun h_mem => ?_⟩
    have h_ne := of_mem_takeWhile h_mem
    simp at h_ne
  · rw [h_label, h_length, take_takeWhile]
    refine .inl ⟨?_, fun _ => of_mem_takeWhile⟩
    rw [List.takeWhile_cons_of_pos h_blank]
    exact List.cons_ne_nil _ _
  · exact .inl ⟨_, fits_of_longest? h_longest, (spelling_content_of_longest? h_longest).symm⟩
  · exact .inr h_skipped

/-- **Nothing longer is of any kind:** if a text of some kind is in front, then what is found there
is not skipped, and is at least as long. -/
theorem le_of_admits {kind : SegmentKind} {text : List Char} (h : kind.Admits text) {c : Char}
    {cs : List Char} (begins : text <+: c :: cs) :
    ∃ m, front? trivia recognisers c cs = some m ∧ m.label ≠ .skipped ∧
      text.length ≤ m.length := by
  cases kind with
  | blank =>
    obtain ⟨h_ne, h_all⟩ := h
    obtain ⟨rest, h_text⟩ := begins
    have h_c : isBlank c = true := by
      cases text with
      | nil => exact absurd rfl h_ne
      | cons d text =>
        obtain rfl : d = c := (List.cons.inj h_text).1
        exact h_all d List.mem_cons_self
    have h_le : text.length ≤ ((c :: cs).takeWhile isBlank).length := by
      rw [← h_text, List.takeWhile_append_of_pos h_all, List.length_append]
      exact Nat.le_add_right _ _
    have h_pos := Nat.lt_of_lt_of_le (List.length_pos_iff.2 h_ne) h_le
    refine ⟨⟨.blank, _, h_pos⟩, ?_, by rintro ⟨⟩, h_le⟩
    rw [front?_blank h_c, blank, runOf_eq_some]
    exact ⟨h_pos, rfl, rfl⟩
  | comment =>
    obtain ⟨line, rfl, h_line⟩ := h
    obtain ⟨rfl, rest, rfl⟩ := List.cons_prefix_cons.1 begins
    have h_all : ∀ d ∈ line, decide (d ≠ '\n') = true := by
      intro d h_d
      rw [decide_eq_true_eq]
      rintro rfl
      exact h_line h_d
    rw [front?_comment, comment]
    refine ⟨_, rfl, by rintro ⟨⟩, Nat.succ_le_succ ?_⟩
    rw [List.takeWhile_append_of_pos h_all, List.length_append]
    exact Nat.le_add_right _ _
  | token kind =>
    obtain ⟨content, h_fits, rfl⟩ := h
    obtain ⟨m, h_m, h_le⟩ := le_longest?_of_fits h_fits begins
    exact ⟨m.map .token, front?_token h_m, by rintro ⟨⟩, h_le⟩
  | skipped => exact absurd h id

/-- **A text of a kind is found whole** where it stands alone, and so it is of one kind only. -/
theorem front?_of_admits {kind : SegmentKind} {c : Char} {cs : List Char}
    (h : kind.Admits (c :: cs)) :
    ∃ m, front? trivia recognisers c cs = some m ∧ m.label = kind := by
  cases kind with
  | blank =>
    obtain ⟨m, h_m, _⟩ := le_of_admits h List.prefix_rfl
    have h_c := h.2 c List.mem_cons_self
    refine ⟨m, h_m, ?_⟩
    rw [front?_blank h_c, blank, runOf_eq_some] at h_m
    exact h_m.2.1
  | comment =>
    obtain ⟨line, h_line, _⟩ := h
    obtain ⟨rfl, rfl⟩ := List.cons.inj h_line
    exact ⟨_, front?_comment cs, rfl⟩
  | token kind =>
    obtain ⟨content, h_fits, h_text⟩ := h
    obtain ⟨m, h_m, rfl, _⟩ := longest?_spelling_self h_fits
    rw [← h_text] at h_m
    exact ⟨m.map .token, front?_token h_m, rfl⟩
  | skipped => exact absurd h id

end Segment

/-! ### One way to read a text -/

theorem SegmentKind.Admits.ne_nil {kind : SegmentKind} {text : List Char}
    (h : kind.Admits text) : text ≠ [] := by
  cases kind with
  | blank => exact h.1
  | comment =>
    obtain ⟨line, rfl, _⟩ := h
    exact List.cons_ne_nil _ _
  | token kind =>
    obtain ⟨content, h_fits, rfl⟩ := h
    exact spelling_ne_nil h_fits
  | skipped => exact absurd h id

/-- **The kinds have no text in common.** -/
theorem SegmentKind.Admits.unique {kind kind' : SegmentKind} {text : List Char}
    (h : kind.Admits text) (h' : kind'.Admits text) : kind = kind' := by
  cases text with
  | nil => exact absurd rfl h.ne_nil
  | cons c cs =>
    obtain ⟨m, h_m, rfl⟩ := Segment.front?_of_admits h
    obtain ⟨m', h_m', rfl⟩ := Segment.front?_of_admits h'
    rw [Option.some.inj (h_m.symm.trans h_m')]

/-- **A text is read in one way at most.** -/
theorem Lexing.unique {cs : List Char} {pieces pieces' : List Piece} (h : Lexing cs pieces)
    (h' : Lexing cs pieces') : pieces = pieces' := by
  induction h generalizing pieces' with
  | nil =>
    generalize h_text : ([] : List Char) = cs at h'
    cases h' with
    | nil => rfl
    | found admits _ _ => exact absurd (List.append_eq_nil_iff.1 h_text.symm).1 admits.ne_nil
    | skipped _ _ => cases h_text
  | @found kind text rest pieces admits longest _ ih =>
    generalize h_text : text ++ rest = cs at h'
    cases h' with
    | nil => exact absurd (List.append_eq_nil_iff.1 h_text).1 admits.ne_nil
    | @found kind' text' rest' pieces' admits' longest' following' =>
      -- each of the two texts is the longest, and they begin the same text
      have h_le := longest kind' text' admits' (h_text ▸ List.prefix_append text' rest')
      have h_le' := longest' kind text admits (h_text ▸ List.prefix_append text rest)
      obtain ⟨rfl, rfl⟩ := List.append_inj h_text (Nat.le_antisymm h_le' h_le)
      rw [admits.unique admits', ih following']
    | skipped nothing _ =>
      exact absurd (h_text ▸ List.prefix_append text rest) (nothing kind text admits)
  | @skipped c rest pieces nothing _ ih =>
    generalize h_text : c :: rest = cs at h'
    cases h' with
    | nil => cases h_text
    | @found kind' text' rest' pieces' admits' _ _ =>
      exact absurd (h_text ▸ List.prefix_append text' rest') (nothing kind' text' admits')
    | skipped _ following' =>
      obtain ⟨rfl, rfl⟩ := List.cons.inj h_text
      rw [ih following']

/-! ### Scripts -/

/-- The piece of a text that a segment is. -/
def Segment.piece (s : Segment) : Piece := ⟨s.kind, s.text⟩

/-- **A complete division reads its text by the longest match.** -/
theorem Segment.lexing_divideFrom {p : Position} {cs : List Char}
    (h : (divideFrom trivia recognisers p cs).ending.isComplete = true) :
    Lexing cs ((divideFrom trivia recognisers p cs).segments.map piece) := by
  induction cs using Segment.induction generalizing p with
  | nil =>
    rw [divideFrom_nil]
    exact .nil
  | stop c cs h_front =>
    rw [divideFrom_cons, h_front] at h
    cases h
  | cons c cs m h_front ih =>
    rw [divideFrom_cons, h_front] at h ⊢
    have following := ih h
    dsimp only [List.map_cons, piece]
    rcases front?_admits h_front with admits | ⟨h_label, h_length⟩
    · conv => arg 1; rw [← List.take_append_drop m.length (c :: cs)]
      refine .found admits (fun kind' text' admits' begins => ?_) following
      rw [List.take_append_drop] at begins
      obtain ⟨m', h_m', _, h_le⟩ := le_of_admits admits' begins
      obtain rfl : m = m' := Option.some.inj (h_front.symm.trans h_m')
      rw [List.length_take, Nat.min_eq_left (length_le_of_front? h_front)]
      exact h_le
    · rw [h_label, h_length]
      rw [h_length] at following
      refine .skipped (fun kind text admits begins => ?_) following
      obtain ⟨m', h_m', h_label', _⟩ := le_of_admits admits begins
      obtain rfl : m = m' := Option.some.inj (h_front.symm.trans h_m')
      exact h_label' h_label

namespace Piece

/-- The lexeme that a piece is, if it is one. -/
def lexeme? (piece : Piece) : Option (TokenKind × List Char) :=
  match piece.kind with
  | .token kind => some (kind, piece.text)
  | _ => none

/-- What a piece skips, if it does. -/
def skipped? (piece : Piece) : Option (List Char) :=
  match piece.kind with
  | .skipped => some piece.text
  | _ => none

end Piece

/-- A piece is of its kind, or is a single character. -/
private theorem Lexing.admits {cs : List Char} {pieces : List Piece} (h : Lexing cs pieces) :
    ∀ piece ∈ pieces, piece.kind.Admits piece.text ∨
      piece.kind = .skipped ∧ ∃ c, piece.text = [c] := by
  induction h with
  | nil => exact List.forall_mem_nil _
  | found admits _ _ ih => exact List.forall_mem_cons.2 ⟨.inl admits, ih⟩
  | @skipped c _ _ _ _ ih => exact List.forall_mem_cons.2 ⟨.inr ⟨rfl, c, rfl⟩, ih⟩

/-- What a segment gives to the tokens and to what is skipped can be read off its piece. -/
theorem Segment.read_piece (s : Segment)
    (h : s.kind.Admits s.text ∨ s.kind = .skipped ∧ ∃ c, s.text = [c]) :
    s.piece.lexeme? = s.token?.map (fun t => (t.kind, spelling t.kind t.text)) ∧
      s.piece.skipped? = s.skipped?.map (fun skip => [skip.character]) ∧
      ∀ t ∈ s.token?, Fits t.kind t.text := by
  obtain ⟨kind, text, span⟩ := s
  cases kind with
  | token kind =>
    rcases h with ⟨content, h_fits, rfl⟩ | ⟨h_kind, _⟩
    · have h_token : Segment.token? ⟨.token kind, spelling kind content, span⟩ =
          some ⟨kind, content, span⟩ := by
        show some (Token.mk kind (String.ofList (Lexeme.content kind _)) span) = _
        rw [content_spelling, String.ofList_toList]
      rw [h_token]
      refine ⟨rfl, rfl, ?_⟩
      rintro t ⟨⟩
      exact h_fits
    · cases h_kind
  | skipped =>
    rcases h with h_none | ⟨_, c, rfl⟩
    · exact absurd h_none id
    · exact ⟨rfl, rfl, by rintro t ⟨⟩⟩
  | blank | comment => exact ⟨rfl, rfl, by rintro t ⟨⟩⟩

/-- **The tokens of a script are those of its longest match.** The script is read by the longest
match in exactly one way, by pieces that make it up again; the lexemes among them are, in order, the
spelled out texts of the tokens, all of them texts of their kinds' classes, behind which comes the
one token that ends the script; and the skipped characters are, in order, those that are reported
as skipped. -/
theorem tokenize_longest_match {source : String} {tokens : List Token}
    (h : tokenize source = .ok tokens) :
    ∃ pieces body p, Lexing source.toList pieces ∧
      (∀ pieces', Lexing source.toList pieces' → pieces' = pieces) ∧
      pieces.flatMap Piece.text = source.toList ∧
      tokens = body ++ [Token.endOfInput p] ∧
      (∀ t ∈ body, t.kind ≠ .endOfInput ∧ Fits t.kind t.text) ∧
      pieces.filterMap Piece.lexeme? = body.map (fun t => (t.kind, spelling t.kind t.text)) ∧
      pieces.filterMap Piece.skipped? =
        (skippedCharacters source).map fun s => [s.character] := by
  -- the division is complete, or there would be no tokens
  obtain ⟨p, h_ending, h_tokens⟩ : ∃ p, (divide source.toList).ending = .complete p ∧
      tokens = (divide source.toList).tokens ++ [.endOfInput p] := by
    change (divide source.toList).last.map _ = _ at h
    unfold Division.last at h
    cases h_ending : (divide source.toList).ending with
    | complete p =>
      rw [h_ending] at h
      cases h
      exact ⟨p, rfl, rfl⟩
    | unclosedQuote p =>
      rw [h_ending] at h
      cases h
  have lexing : Lexing source.toList ((divide source.toList).segments.map Segment.piece) :=
    Segment.lexing_divideFrom (congrArg Ending.isComplete h_ending)
  have h_segments : ∀ s ∈ (divide source.toList).segments, _ := fun s h_s =>
    s.read_piece (lexing.admits s.piece (List.mem_map_of_mem h_s))
  refine ⟨_, _, p, lexing, fun _ lexing' => lexing'.unique lexing, lexing.flatMap_text, h_tokens,
    fun t h_t => ?_, ?_, ?_⟩
  · obtain ⟨s, h_s, h_token⟩ := List.mem_filterMap.1 h_t
    have h_fits := (h_segments s h_s).2.2 t h_token
    refine ⟨fun h_kind => ?_, h_fits⟩
    rw [h_kind] at h_fits
    exact h_fits
  · rw [List.filterMap_map, Division.tokens, List.map_filterMap]
    exact List.filterMap_congr fun s h_s => (h_segments s h_s).1
  · rw [List.filterMap_map, skippedCharacters, Division.skipped, List.map_filterMap]
    exact List.filterMap_congr fun s h_s => (h_segments s h_s).2.1

/-- A word that begins like a keyword is one lexeme, and a character that begins none is skipped. -/
theorem tokenize_longest_match_of_word :
    tokenize "letter@" = .ok [⟨.identifier, "letter", .covering .start "letter".toList⟩,
        .endOfInput (Position.start.advance "letter@".toList)] ∧
      ∃ pieces, Lexing "letter@".toList pieces ∧
        pieces.flatMap Piece.text = "letter@".toList ∧
        pieces.filterMap Piece.skipped? =
          (skippedCharacters "letter@").map fun s => [s.character] := by
  have h_tokens : tokenize "letter@" = .ok [⟨.identifier, "letter",
      .covering .start "letter".toList⟩,
      .endOfInput (Position.start.advance "letter@".toList)] := by
    have h_some : (tokenize "letter@").toOption = some [⟨.identifier, "letter",
        .covering .start "letter".toList⟩,
        .endOfInput (Position.start.advance "letter@".toList)] := by decide +kernel
    cases h : tokenize "letter@" with
    | error e =>
      rw [h] at h_some
      cases h_some
    | ok tokens =>
      rw [h] at h_some
      exact congrArg Except.ok (Option.some.inj h_some)
  obtain ⟨pieces, _, _, lexing, _, whole, _, _, _, skipped⟩ := tokenize_longest_match h_tokens
  exact ⟨h_tokens, pieces, lexing, whole, skipped⟩

end ScriptLang
