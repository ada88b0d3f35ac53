import Mathlib.Data.List.DropRight
import ScriptLang.Proofs.Grammar.Placeless
import ScriptLang.Proofs.Token.Front
import ScriptLang.Script
import ScriptLang.Text.WhiteSpace

/-!
# Scripts without the white space around them

There is more white space than blanks, and at the ends of a script it can be anything but part of a
lexeme: blanks, skipped characters, the rest of a comment, or part of a string that is never closed.
None of these has a part in the words of a script, so that it says the same without it. And the words
are all that the parser looks at: of an error only the position can be different.

* `wording_append_whiteSpace`, `wording_prepend_whiteSpace` — white space around a text says nothing.
* `readProgram_congr` — scripts with the same words are read alike.
* `trimmed_alike` — so a script can be trimmed.
-/

namespace ScriptLang

open Recogniser Lexeme Segment

/-! ### White space stands in no lexeme -/

/-- Two classes have no character in common if their ranges are apart. -/
private theorem not_contains_of_apart {s t : CharClass}
    (apart : ∀ r ∈ s.ranges, ∀ r' ∈ t.ranges, r.2 < r'.1 ∨ r'.2 < r.1) {c : Char}
    (h : s.contains c = true) : t.contains c = false := by
  rw [Bool.eq_false_iff]
  intro h_contains
  obtain ⟨r, h_r, h_first, h_last⟩ := CharClass.contains_iff.1 h
  obtain ⟨r', h_r', h_first', h_last'⟩ := CharClass.contains_iff.1 h_contains
  have := apart r h_r r' h_r'
  omega

/-- White space in ASCII comes before everything that can be seen. -/
private theorem toNat_of_isWhiteSpace {c : Char} (h : isWhiteSpace c = true) :
    c.toNat ≤ 0x20 ∨ 0x80 ≤ c.toNat := by
  have h_ranges : ∀ r ∈ CharClass.whiteSpace.ranges, r.2 ≤ 0x20 ∨ 0x80 ≤ r.1 := by decide
  obtain ⟨r, h_r, h_first, h_last⟩ := CharClass.contains_iff.1 h
  have := h_ranges r h_r
  omega

/-- **No white space is alphabetic.** -/
theorem not_word_of_whiteSpace {c : Char} (h : isWhiteSpace c = true) :
    isWordCharacter c = false := by
  have h_range := toNat_of_isWhiteSpace h
  have h_beyond : CharClass.alphabeticBeyondAscii.contains c = false := by
    refine not_contains_of_apart (s := CharClass.whiteSpace) ?_ h
    -- there are few ranges of white space, and each can be held against those of the letters
    decide +kernel
  have h_alpha : c.isAlpha = false := by
    rw [Bool.eq_false_iff]
    intro h_alpha
    have h_letter := toNat_of_isAlpha h_alpha
    omega
  have h_underscore : c ≠ '_' := by
    rintro rfl
    cases h
  rw [isWordCharacter, isAlphabetic, h_alpha, h_beyond, decide_eq_false h_underscore]
  rfl

private theorem not_digit_of_whiteSpace {c : Char} (h : isWhiteSpace c = true) :
    c.isDigit = false := by
  rw [Bool.eq_false_iff]
  intro h_digit
  have h_range := toNat_of_isWhiteSpace h
  have h_ascii : 48 ≤ c.toNat ∧ c.toNat ≤ 57 := Char.isDigit_iff_toNat.1 h_digit
  omega

private theorem not_symbol_of_whiteSpace {c : Char} (h : isWhiteSpace c = true) :
    isSymbolCharacter c = false := by
  rw [Bool.eq_false_iff]
  intro h_symbol
  have h_not : isWhiteSpace c = false :=
    forall_symbolCharacter (p := fun d => isWhiteSpace d = false) (by decide +kernel) h_symbol
  rw [h_not] at h
  cases h

/-- White space that is no blank is skipped. -/
private theorem beginsNothing_of_whiteSpace {c : Char} (h : isWhiteSpace c = true)
    (h_blank : isBlank c = false) : BeginsNothing c where
  word := not_word_of_whiteSpace h
  digit := not_digit_of_whiteSpace h
  blank := h_blank
  hash := by
    rintro rfl
    cases h
  quote := by
    rintro rfl
    cases h
  symbol := .inr (not_symbol_of_whiteSpace h)

/-! ### White space says nothing -/

/-- A segment in front says the word that it is, if it is one. -/
private theorem wording_of_standsBefore {kind : SegmentKind} {text rest : List Char}
    (h : StandsBefore kind text rest) :
    wording (text ++ rest) = (wording rest).after (kind.words text) := by
  obtain ⟨c, cs, m, h_text, h_front, rfl, h_length⟩ := h
  rw [h_text, wording_cons h_front, ← h_text, h_length, List.take_left, List.drop_left]

/-- White space in front of a text says nothing, whether it is blank or skipped. -/
theorem wording_prepend_whiteSpace {space : List Char} (h : ∀ c ∈ space, isWhiteSpace c = true)
    (cs : List Char) : wording (space ++ cs) = wording cs := by
  induction space with
  | nil => rfl
  | cons c space ih =>
    obtain ⟨h_c, h_space⟩ := List.forall_mem_cons.1 h
    cases h_blank : isBlank c with
    | true => rw [List.cons_append, wording_blank h_blank, ih h_space]
    | false =>
      have h_begins := beginsNothing_of_whiteSpace h_c h_blank
      have h_stands : StandsBefore .skipped [c] (space ++ cs) := by
        refine standsBefore_iff.2 ⟨SegmentKind.isText_skipped.2 ⟨c, rfl, h_begins⟩, ?_⟩
        rintro d - ⟨h_bang, -⟩
        obtain rfl := List.singleton_inj.1 h_bang
        cases h_c
      rw [List.cons_append, ← List.singleton_append, wording_of_standsBefore h_stands, ih h_space]
      rfl

/-- White space behind a comment is part of it up to the end of the line, and says nothing either
way. -/
private theorem wording_comment_append {text space : List Char}
    (h_text : SegmentKind.IsText .comment text) (h : ∀ c ∈ space, isWhiteSpace c = true) :
    wording (text ++ space) = ⟨[], true⟩ := by
  obtain ⟨line, rfl, h_line⟩ := SegmentKind.isText_comment.1 h_text
  have h_split := List.takeWhile_append_dropWhile (p := (· ≠ '\n')) (l := space)
  have h_stands : StandsBefore .comment ('#' :: (line ++ space.takeWhile (· ≠ '\n')))
      (space.dropWhile (· ≠ '\n')) := by
    refine standsBefore_iff.2
      ⟨SegmentKind.isText_comment.2 ⟨_, rfl, fun h_mem => ?_⟩, fun c h_c h_goesOn => ?_⟩
    · rcases List.mem_append.1 h_mem with h_mem | h_mem
      · exact h_line h_mem
      · have h_ne := List.all_eq_true.1 List.all_takeWhile _ h_mem
        simp at h_ne
    · have h_stop := List.head?_dropWhile_not (· ≠ '\n') space
      rw [Option.mem_def.1 h_c] at h_stop
      exact of_decide_eq_false h_stop h_goesOn
  have h_rest : ∀ c ∈ space.dropWhile (· ≠ '\n'), isWhiteSpace c = true := fun c h_c =>
    h c ((List.dropWhile_suffix _).subset h_c)
  have h_nothing := wording_prepend_whiteSpace h_rest []
  rw [List.append_nil, wording_nil] at h_nothing
  calc
    wording ('#' :: line ++ space)
      = wording ('#' :: (line ++ space.takeWhile (· ≠ '\n')) ++ space.dropWhile (· ≠ '\n')) := by
        rw [List.cons_append, List.cons_append, List.append_assoc, h_split]
    _ = (wording (space.dropWhile (· ≠ '\n'))).after [] := wording_of_standsBefore h_stands
    _ = ⟨[], true⟩ := by
        rw [h_nothing]
        rfl

/-- Blanks in front of a text say nothing. -/
private theorem wording_blanks {blanks : List Char} (h : ∀ c ∈ blanks, isBlank c = true)
    (cs : List Char) : wording (blanks ++ cs) = wording cs := by
  induction blanks with
  | nil => rfl
  | cons c blanks ih =>
    obtain ⟨h_c, h_blanks⟩ := List.forall_mem_cons.1 h
    rw [List.cons_append, wording_blank h_c, ih h_blanks]

/-- **White space behind a text says nothing,** whatever it becomes a part of. -/
theorem wording_append_whiteSpace {space : List Char} (h : ∀ c ∈ space, isWhiteSpace c = true)
    (cs : List Char) : wording (cs ++ space) = wording cs := by
  have h_nothing := wording_prepend_whiteSpace h []
  rw [List.append_nil] at h_nothing
  induction cs using Segment.text_induction with
  | nil => rw [List.nil_append, h_nothing]
  | unclosed cs h_open =>
    -- there is no quote in white space, so the string is not closed there
    have h_open' : '"' ∉ cs ++ space := by
      intro h_mem
      rcases List.mem_append.1 h_mem with h_mem | h_mem
      · exact h_open h_mem
      · cases h _ h_mem
    rw [List.cons_append, wording_stop (front?_unclosed h_open'),
      wording_stop (front?_unclosed h_open)]
  | segment kind text rest h_stands ih =>
    obtain ⟨h_text, h_ends⟩ := standsBefore_iff.1 h_stands
    by_cases h_blank : kind = .blank
    · subst h_blank
      obtain ⟨-, h_all⟩ := SegmentKind.isText_blank.1 h_text
      rw [List.append_assoc, wording_blanks h_all, wording_blanks h_all, ih]
    · by_cases h_last : kind = .comment ∧ rest = []
      · obtain ⟨rfl, rfl⟩ := h_last
        have h_alone := wording_comment_append h_text (List.forall_mem_nil _)
        rw [h_alone, List.append_nil]
        exact wording_comment_append h_text h
      · -- white space does not go on with the segment, which says the same as before
        have h_next : kind.EndsAt text (rest ++ space) := by
          refine h_ends.append fun h_rest c h_c => ?_
          have h_space := h c (List.mem_of_mem_head? h_c)
          exact SegmentKind.not_goesOn h_blank (fun h_comment => h_last ⟨h_comment, h_rest⟩)
            (not_word_of_whiteSpace h_space) (not_digit_of_whiteSpace h_space)
            (not_symbol_of_whiteSpace h_space) text
        rw [List.append_assoc, wording_of_standsBefore (h_stands.of_endsAt h_next),
          wording_of_standsBefore h_stands, ih]

/-- What trimming takes off a text is white space. -/
private theorem exists_trimWhiteSpace (cs : List Char) :
    ∃ before after, cs = before ++ (trimWhiteSpace cs ++ after) ∧
      (∀ c ∈ before, isWhiteSpace c = true) ∧ ∀ c ∈ after, isWhiteSpace c = true := by
  refine ⟨cs.takeWhile isWhiteSpace, (cs.dropWhile isWhiteSpace).rtakeWhile isWhiteSpace, ?_,
    List.all_eq_true.1 List.all_takeWhile, fun c h_c => List.mem_rtakeWhile_imp h_c⟩
  have h_behind : trimWhiteSpace cs ++ (cs.dropWhile isWhiteSpace).rtakeWhile isWhiteSpace =
      cs.dropWhile isWhiteSpace := List.rdropWhile_append_rtakeWhile
  rw [h_behind, List.takeWhile_append_dropWhile]

theorem wording_trimWhiteSpace (cs : List Char) : wording (trimWhiteSpace cs) = wording cs := by
  obtain ⟨before, after, h_cs, h_before, h_after⟩ := exists_trimWhiteSpace cs
  conv_rhs => rw [h_cs]
  rw [wording_prepend_whiteSpace h_before, wording_append_whiteSpace h_after]

/-! ### Scripts -/

/-- The tokens of a script, as words, can be told from what it says. -/
private theorem words_tokenize (source : String) :
    ((tokenize source).map (List.map Token.word)).toOption =
      if (wording source.toList).complete then
        some ((wording source.toList).words ++ [⟨.endOfInput, ""⟩])
      else none := by
  rw [tokenize_eq, wording, Division.wording]
  cases (divide source.toList).ending with
  | complete p =>
    show some (((divide source.toList).tokens ++ [Token.endOfInput p]).map Token.word) = some _
    rw [List.map_append]
    rfl
  | unclosedQuote p => rfl

/-- **What an error says apart from positions:** of an error of form its cause and its path. -/
def ScriptError.gist : ScriptError → Option (ParseError.Cause × List Production)
  | grammatical e => some (e.cause, e.path)
  | lexical _ | execution _ => none

/-- **Scripts with the same words are read alike:** they spell the same program, or have errors of
the same sort, with the same cause and the same path if they are errors of form. -/
theorem readProgram_congr {a b : String}
    (h : ((tokenize a).map (List.map Token.word)).toOption =
      ((tokenize b).map (List.map Token.word)).toOption) :
    (readProgram a).mapError ScriptError.gist = (readProgram b).mapError ScriptError.gist := by
  have h_gist : ∀ r : Except ParseError Program,
      (r.mapError ScriptError.grammatical).mapError ScriptError.gist =
        (r.mapError ParseError.unplaced).mapError fun e => some (e.cause, e.path) := by
    intro r
    cases r <;> rfl
  rw [readProgram, readProgram]
  cases h_a : tokenize a with
  | error e =>
    cases h_b : tokenize b with
    | error e' => rfl
    | ok us =>
      rw [h_a, h_b] at h
      cases h
  | ok ts =>
    cases h_b : tokenize b with
    | error e' =>
      rw [h_a, h_b] at h
      cases h
    | ok us =>
      rw [h_a, h_b] at h
      have h_words : ts.map Token.word = us.map Token.word := Option.some.inj h
      show ((parse ts).mapError ScriptError.grammatical).mapError ScriptError.gist =
        ((parse us).mapError ScriptError.grammatical).mapError ScriptError.gist
      rw [h_gist, h_gist, parse_congr h_words]

/-- **Trimming a script does not change what it says.** Without the white space at its ends a script
has tokens if and only if it has tokens with it, and then they are of the same kinds and have the
same texts, in the same order; and it spells the same program, or has an error of the same sort, with
the same cause and the same path if it is an error of form. -/
theorem trimmed_alike (line : String) :
    (tokenize (String.ofList (trimWhiteSpace line.toList))).isOk = (tokenize line).isOk ∧
      ((tokenize (String.ofList (trimWhiteSpace line.toList))).map
          (List.map Token.word)).toOption =
        ((tokenize line).map (List.map Token.word)).toOption ∧
      (readProgram (String.ofList (trimWhiteSpace line.toList))).mapError ScriptError.gist =
        (readProgram line).mapError ScriptError.gist := by
  have h_words : ((tokenize (String.ofList (trimWhiteSpace line.toList))).map
      (List.map Token.word)).toOption = ((tokenize line).map (List.map Token.word)).toOption := by
    rw [words_tokenize, words_tokenize, String.toList_ofList, wording_trimWhiteSpace]
  refine ⟨?_, h_words, readProgram_congr h_words⟩
  have h_isOk : ∀ r : Except LexicalError (List Token),
      r.isOk = (r.map (List.map Token.word)).toOption.isSome := by
    intro r
    cases r <;> rfl
  rw [h_isOk, h_isOk, h_words]

end ScriptLang
