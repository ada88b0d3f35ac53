import ScriptLang.Proofs.Token.Delivery

/-!
# When a script has no tokens

Whether a script is read to its end can be told without dividing it, by a scan that looks at one
character after the other and knows three states: it is among code, in a comment or in a string.
Reading stops exactly if the scan ends in a string, and it stops at the quote where the scan entered
that string; whatever is in front of that quote is read as if nothing came behind it.

The scan and the division stay in step at the ends of segments: behind every segment the scan is
among code again, or in a comment that the line break behind it will end.

* `ScanState.next`, `scan` — the scan.
* `scan_segment` — where the scan is behind a segment.
* `scan_eq_string_iff` — the scan ends in a string if and only if reading stops at a quote.
* `tokenize_fails` — when there are no tokens, why, and what comes before.
-/

namespace ScriptLang

open Recogniser Lexeme Segment

/-! ### The scan -/

/-- **Where a scan is:** among code, in a comment or in a string. -/
inductive ScanState where
  | code
  | comment
  | string
deriving DecidableEq, Repr

namespace ScanState

/-- **One step of the scan.** A hash sign among code begins a comment, which a line feed ends; a
quote among code begins a string, which the next quote ends. -/
def next : ScanState → Char → ScanState
  | code, c => if c = '#' then comment else if c = '"' then string else code
  | comment, c => if c = '\n' then code else comment
  | string, c => if c = '"' then code else string

/-- The state behind the characters `cs`. -/
def through (s : ScanState) (cs : List Char) : ScanState := cs.foldl next s

@[simp] theorem through_nil (s : ScanState) : s.through [] = s := rfl

@[simp] theorem through_cons (s : ScanState) (c : Char) (cs : List Char) :
    s.through (c :: cs) = (s.next c).through cs := rfl

@[simp] theorem through_append (s : ScanState) (cs ds : List Char) :
    s.through (cs ++ ds) = (s.through cs).through ds := List.foldl_append

/-- A state stays as long as every character leaves it as it is. -/
private theorem through_of_stays {s : ScanState} {cs : List Char} (h : ∀ c ∈ cs, s.next c = s) :
    s.through cs = s := by
  induction cs with
  | nil => rfl
  | cons c cs ih =>
    obtain ⟨h_c, h_cs⟩ := List.forall_mem_cons.1 h
    rw [through_cons, h_c, ih h_cs]

theorem code_through {cs : List Char} (h : ∀ c ∈ cs, c ≠ '#' ∧ c ≠ '"') :
    code.through cs = code := by
  refine through_of_stays fun c h_c => ?_
  rw [next, if_neg (h c h_c).1, if_neg (h c h_c).2]

theorem comment_through {cs : List Char} (h : '\n' ∉ cs) : comment.through cs = comment := by
  refine through_of_stays fun c h_c => if_neg ?_
  rintro rfl
  exact h h_c

theorem string_through {cs : List Char} (h : '"' ∉ cs) : string.through cs = string := by
  refine through_of_stays fun c h_c => if_neg ?_
  rintro rfl
  exact h h_c

/-- Without a quote no string is entered. -/
private theorem through_ne_string {s : ScanState} (h_s : s ≠ string) {cs : List Char}
    (h : '"' ∉ cs) : s.through cs ≠ string := by
  induction cs generalizing s with
  | nil => exact h_s
  | cons c cs ih =>
    obtain ⟨h_c, h_cs⟩ := not_or.1 (mt List.mem_cons.2 h)
    refine ih ?_ h_cs
    -- only a quote leads into a string, and only from code
    cases s with
    | code =>
      rw [next, if_neg (Ne.symm h_c)]
      split <;> decide
    | comment =>
      rw [next]
      split <;> decide
    | string => exact absurd rfl h_s

end ScanState

/-- **Where a scan of a text ends,** which begins among code. -/
def scan (cs : List Char) : ScanState := ScanState.code.through cs

/-- The scan of a text enters a string with the character at the offset `k`. -/
def OpensAt (cs : List Char) (k : Nat) : Prop := scan (cs.take k) = .code ∧ cs[k]? = some '"'

/-- **The last time that the scan of a text enters a string** is at the offset `k`. -/
def LastOpensAt (cs : List Char) (k : Nat) : Prop := OpensAt cs k ∧ ∀ j, OpensAt cs j → j ≤ k

/-! ### In step with the division -/

/-- **Behind a segment the scan is among code,** unless the segment is a comment. -/
private theorem scan_segment {kind : SegmentKind} {text : List Char} (h : kind.IsText text) :
    scan text = .code ∨ kind = .comment ∧ scan text = .comment := by
  cases kind with
  | blank =>
    -- neither of the two signs is a blank
    obtain ⟨-, h_all⟩ := SegmentKind.isText_blank.1 h
    refine .inl (ScanState.code_through fun c h_c => ?_)
    have h_blank := h_all c h_c
    constructor
    · rintro rfl
      cases h_blank
    · rintro rfl
      cases h_blank
  | comment =>
    obtain ⟨line, rfl, h_line⟩ := SegmentKind.isText_comment.1 h
    exact .inr ⟨rfl, ScanState.comment_through h_line⟩
  | skipped =>
    obtain ⟨c, rfl, h_c⟩ := SegmentKind.isText_skipped.1 h
    exact .inl (ScanState.code_through (List.forall_mem_singleton.2 ⟨h_c.hash, h_c.quote⟩))
  | token kind =>
    obtain ⟨content, h_fits, rfl⟩ := SegmentKind.isText_token.1 h
    left
    by_cases h_string : kind = .string
    · -- from quote to quote, with whatever is in between
      subst h_string
      show scan ('"' :: (content.toList ++ ['"'])) = .code
      calc
        scan ('"' :: (content.toList ++ ['"']))
          = (ScanState.string.through content.toList).through ['"'] :=
            ScanState.through_append _ _ _
        _ = ScanState.string.through ['"'] := by rw [ScanState.string_through h_fits]
        _ = .code := rfl
    · rw [spelling, if_neg h_string]
      exact ScanState.code_through (plain_of_fits h_fits h_string)

/-- Where a comment ends, being in it makes no difference to whether a string is entered later. -/
private theorem comment_through_iff {rest : List Char} (h : ∀ c ∈ rest.head?, ¬c ≠ '\n') :
    ScanState.comment.through rest = .string ↔ scan rest = .string := by
  cases rest with
  | nil =>
    constructor
    · rintro ⟨⟩
    · rintro ⟨⟩
  | cons c rest =>
    obtain rfl : c = '\n' := not_not.1 (h c rfl)
    exact Iff.rfl

/-- **The scan ends in a string if and only if reading stops at a quote** that is never closed. -/
theorem scan_eq_string_iff (p : Position) (cs : List Char) :
    scan cs = .string ↔ ∃ q, (deliver p cs).ending = .unclosedQuote q := by
  induction cs using Segment.text_induction generalizing p with
  | nil =>
    rw [deliver_nil]
    constructor
    · rintro ⟨⟩
    · rintro ⟨_, ⟨⟩⟩
  | unclosed cs h_open =>
    rw [deliver_unclosed p h_open]
    have h_scan : scan ('"' :: cs) = .string := ScanState.string_through h_open
    exact ⟨fun _ => ⟨p, rfl⟩, fun _ => h_scan⟩
  | segment kind text rest h_stands ih =>
    -- the segment changes neither side
    have h_rest : scan (text ++ rest) = .string ↔ scan rest = .string := by
      obtain ⟨h_text, h_ends⟩ := standsBefore_iff.1 h_stands
      rw [scan, ScanState.through_append]
      rcases scan_segment h_text with h_code | ⟨rfl, h_comment⟩
      · rw [show ScanState.code.through text = .code from h_code]
        exact Iff.rfl
      · rw [show ScanState.code.through text = .comment from h_comment]
        exact comment_through_iff h_ends
    rw [h_rest, deliver_segment p h_stands]
    exact ih _

/-- A quote behind which there is no other is the last that entered a string, if the scan ends in
one. -/
private theorem lastOpensAt_of_scan {pre rest : List Char} (h_rest : '"' ∉ rest)
    (h : scan (pre ++ '"' :: rest) = .string) : LastOpensAt (pre ++ '"' :: rest) pre.length := by
  refine ⟨⟨?_, ?_⟩, fun j h_j => ?_⟩
  · rw [List.take_left]
    rw [scan, ScanState.through_append, ScanState.through_cons] at h
    -- in a comment the quote would be ignored, and in a string it would end it
    change ((scan pre).next '"').through rest = .string at h
    cases h_pre : scan pre with
    | code => rfl
    | comment =>
      rw [h_pre] at h
      exact absurd h (ScanState.through_ne_string (by decide) h_rest)
    | string =>
      rw [h_pre] at h
      exact absurd h (ScanState.through_ne_string (by decide) h_rest)
  · rw [List.getElem?_append_right (Nat.le_refl _), Nat.sub_self]
    rfl
  · by_contra h_later
    -- a later quote would be one behind it
    obtain ⟨d, rfl⟩ := Nat.exists_eq_add_of_lt (Nat.lt_of_not_le h_later)
    have h_quote := h_j.2
    rw [List.getElem?_append_right (by omega), Nat.add_assoc, Nat.add_sub_cancel_left,
      List.getElem?_cons_succ] at h_quote
    exact h_rest (List.mem_of_getElem? h_quote)

/-! ### Scripts -/

/-- **When a script has no tokens.** Reading it fails if and only if its scan ends in a string. The
error is then at the position of the quote where the scan entered a string last; the text in front of
that quote has tokens, which are, but for the one that ends it, those that are read before the error,
and it has the same skipped characters. -/
theorem tokenize_fails (source : String) :
    ((∃ e, tokenize source = .error e) ↔ scan source.toList = .string) ∧
      ∀ e, tokenize source = .error e → ∃ k, LastOpensAt source.toList k ∧
        e = .unterminatedString (.point (.atOffset source.toList k)) ∧
        tokenize (String.ofList (source.toList.take k)) =
          .ok ((divide source.toList).tokens ++ [.endOfInput (.atOffset source.toList k)]) ∧
        skippedCharacters (String.ofList (source.toList.take k)) = skippedCharacters source := by
  refine ⟨?_, fun e h => ?_⟩
  · rw [scan_eq_string_iff .start]
    constructor
    · rintro ⟨e, h⟩
      obtain ⟨p, h_ending, -⟩ := tokenize_eq_error.1 h
      exact ⟨p, h_ending⟩
    · rintro ⟨p, h_ending⟩
      exact ⟨_, tokenize_eq_error.2 ⟨p, h_ending, rfl⟩⟩
  · -- reading stops at a quote, in front of which the text is read to its end
    obtain ⟨p, h_ending, rfl⟩ := tokenize_eq_error.1 h
    obtain ⟨pre, rest, h_text, h_open, rfl, h_pre⟩ := deliver_before_quote h_ending
    have h_scan := (scan_eq_string_iff .start source.toList).2 ⟨_, h_ending⟩
    have h_position : Position.start.advance pre = .atOffset source.toList pre.length := by
      rw [h_text, Position.advance_start_append]
    have h_take : (String.ofList (source.toList.take pre.length)).toList = pre := by
      rw [String.toList_ofList, h_text, List.take_left]
    rw [h_position] at h_pre ⊢
    refine ⟨pre.length, ?_, rfl, ?_, ?_⟩
    · rw [h_text] at h_scan ⊢
      exact lastOpensAt_of_scan h_open h_scan
    · rw [tokenize_eq_report, h_take, h_pre]
      rfl
    · rw [skippedCharacters_eq, h_take, h_pre]
      rfl

/-- A quote in a comment opens nothing, and a hash sign behind an open quote begins nothing. -/
theorem tokenize_fails_of_quote_in_comment :
    tokenize "x #\"\n@ \"#y" = .error (.unterminatedString (.point ⟨2, 3⟩)) ∧
      scan "x #\"\n@ \"#y".toList = .string ∧ ∃ k, LastOpensAt "x #\"\n@ \"#y".toList k ∧
        tokenize (String.ofList ("x #\"\n@ \"#y".toList.take k)) =
          .ok [⟨.identifier, "x", .point .start⟩,
            .endOfInput (.atOffset "x #\"\n@ \"#y".toList k)] := by
  have h_error : tokenize "x #\"\n@ \"#y" = .error (.unterminatedString (.point ⟨2, 3⟩)) := by
    decide +kernel
  have h_before : (divide "x #\"\n@ \"#y".toList).tokens =
      [⟨.identifier, "x", .point .start⟩] := by decide +kernel
  obtain ⟨h_scan, h_stop⟩ := tokenize_fails "x #\"\n@ \"#y"
  obtain ⟨k, h_k, -, h_tokens, -⟩ := h_stop _ h_error
  rw [h_before] at h_tokens
  exact ⟨h_error, h_scan.1 ⟨_, h_error⟩, k, h_k, h_tokens⟩

end ScriptLang
