import Mathlib.Data.List.Chain
import ScriptLang.Proofs.Token.Front

/-!
# Words laid out as a text

Words are spelled out one behind the other with blanks in front of them, or nothing where the kinds
of two neighbours do not merge. Dividing such a text gives the words back, and it skips nothing.

* `Row`, `layOut` — words with the blanks in front of them, and their text.
* `Reads` — a text that is divided into the given words and nothing else.
* `Reads.spelling`, `Reads.blanks` — what keeps a text so when it is written in front of it.
* `tokenize_layOut` — words that are laid out are read back.
-/

namespace ScriptLang

open Recogniser Lexeme Segment

/-- A word, and the blanks in front of it. -/
structure Row where
  blanks : String
  word : Word

/-- **Words laid out as a text,** with something behind the last one. -/
def layOut : List Row → String → String
  | [], trailing => trailing
  | row :: rows, trailing => row.blanks ++ row.word.spelling ++ layOut rows trailing

/-- Nothing but characters that may stand between tokens. -/
def IsBlank (text : String) : Prop := ∀ c ∈ text.toList, isBlank c = true

/-- **Rows that can be told apart:** each word is one that its kind can have, there are only blanks
between the words, and there are some wherever the kinds of two neighbours merge. -/
structure Separated (rows : List Row) : Prop where
  fits : ∀ row ∈ rows, Fits row.word.kind row.word.text
  blank : ∀ row ∈ rows, IsBlank row.blanks
  apart : rows.IsChain fun row next => Merges row.word.kind next.word.kind → next.blanks ≠ ""

/-! ### Texts that are read -/

/-- A division into the given words, to its end and with nothing skipped. -/
structure Division.Exactly (d : Division) (ws : List Word) : Prop where
  words : d.tokens.map Token.word = ws
  skipped : d.skipped = []
  complete : d.ending.isComplete = true

/-- A segment in front adds the word it is, if it is one, and skips nothing unless it is skipped. -/
private theorem Division.Exactly.cons {s : Segment} {d : Division} {ws : List Word}
    (h : d.Exactly ws) (h_kind : s.kind ≠ .skipped) :
    Division.Exactly ⟨s :: d.segments, d.ending⟩ (s.kind.words s.text ++ ws) := by
  obtain ⟨kind, text, span⟩ := s
  cases kind with
  | blank | comment => exact ⟨h.words, h.skipped, h.complete⟩
  | skipped => exact absurd rfl h_kind
  | token kind => exact ⟨congrArg (_ :: ·) h.words, h.skipped, h.complete⟩

/-- **A text that is divided into the given words** and nothing else, wherever it begins. -/
def Reads (cs : List Char) (ws : List Word) : Prop :=
  ∀ p, (divideFrom trivia recognisers p cs).Exactly ws

namespace Reads

theorem nil : Reads [] [] := by
  intro p
  rw [divideFrom_nil]
  exact ⟨rfl, rfl, rfl⟩

/-- **A segment in front** is one word more if it is a word, and nothing otherwise. -/
private theorem segment {kind : SegmentKind} {text rest : List Char} {ws : List Word}
    (h : StandsBefore kind text rest) (h_kind : kind ≠ .skipped) (h_rest : Reads rest ws) :
    Reads (text ++ rest) (kind.words text ++ ws) := by
  intro p
  rw [divideFrom_segment p h]
  exact (h_rest (p.advance text)).cons h_kind

/-- **A spelled word in front** is one word more, if what follows does not go on with it. -/
theorem spelling {kind : TokenKind} {text : String} (h : Fits kind text) {rest : List Char}
    {ws : List Word} (h_border : ∀ c ∈ rest.head?, continues kind c = false)
    (h_rest : Reads rest ws) :
    Reads (Lexeme.spelling kind text ++ rest) (⟨kind, text⟩ :: ws) := by
  have h_stands : StandsBefore (.token kind) (Lexeme.spelling kind text) rest :=
    standsBefore_iff.2 ⟨SegmentKind.isText_token.2 ⟨text, h, rfl⟩, fun c h_c =>
      Bool.eq_false_iff.1 (h_border c h_c)⟩
  have h_word : SegmentKind.words (Lexeme.spelling kind text) (.token kind) = [⟨kind, text⟩] := by
    show [Word.mk kind (String.ofList (content kind (Lexeme.spelling kind text)))] = _
    rw [content_spelling, String.ofList_toList]
  have h_reads := segment h_stands (by rintro ⟨⟩) h_rest
  rw [h_word] at h_reads
  exact h_reads

/-- **Blanks in front of a text** that begins with none change nothing. -/
theorem blanks {a rest : List Char} {ws : List Word} (h : ∀ c ∈ a, isBlank c = true)
    (h_border : ∀ c ∈ rest.head?, isBlank c = false) (h_rest : Reads rest ws) :
    Reads (a ++ rest) ws := by
  by_cases h_none : a = []
  · subst h_none
    exact h_rest
  · -- they are one segment, which ends where the text begins
    have h_stands : StandsBefore .blank a rest :=
      standsBefore_iff.2 ⟨SegmentKind.isText_blank.2 ⟨h_none, h⟩, fun c h_c =>
        Bool.eq_false_iff.1 (h_border c h_c)⟩
    exact segment h_stands (by rintro ⟨⟩) h_rest

end Reads

/-! ### Words laid out -/

/-- No word begins with a blank. -/
private theorem not_blank_of_fits {kind : TokenKind} {text : String} (h : Fits kind text)
    {c : Char} {cs : List Char} (h_c : spelling kind text = c :: cs) : isBlank c = false := by
  obtain ⟨m, h_m, -, -⟩ := longest?_spelling_self h
  rw [Bool.eq_false_iff]
  intro h_blank
  rw [h_c, longest?_blank h_blank] at h_m
  cases h_m

private theorem toList_layOut_cons (row : Row) (rows : List Row) (trailing : String) :
    (layOut (row :: rows) trailing).toList = row.blanks.toList ++
      (spelling row.word.kind row.word.text ++ (layOut rows trailing).toList) := by
  rw [layOut, String.toList_append, String.toList_append, Word.spelling, String.toList_ofList,
    List.append_assoc]

namespace Separated

theorem tail {row : Row} {rows : List Row} (h : Separated (row :: rows)) : Separated rows where
  fits r h_r := h.fits r (List.mem_cons_of_mem row h_r)
  blank r h_r := h.blank r (List.mem_cons_of_mem row h_r)
  apart := h.apart.tail

/-- What comes behind a word does not go on with it. -/
private theorem border {row : Row} {rows : List Row} (h : Separated (row :: rows))
    {trailing : String} (h_trailing : IsBlank trailing) :
    ∀ c ∈ (layOut rows trailing).toList.head?, continues row.word.kind c = false := by
  intro c h_c
  cases rows with
  | nil => exact not_continues_of_blank _ (h_trailing c (List.mem_of_mem_head? h_c))
  | cons next rows =>
    have h_next : next ∈ row :: next :: rows := List.mem_cons_of_mem row List.mem_cons_self
    rw [toList_layOut_cons] at h_c
    cases h_blanks : next.blanks.toList with
    | cons d ds =>
      rw [h_blanks] at h_c
      obtain rfl : d = c := Option.some.inj h_c
      exact not_continues_of_blank _ (h.blank next h_next d (h_blanks ▸ List.mem_cons_self))
    | nil =>
      -- without a blank between them the kinds do not merge
      have h_fits := h.fits next h_next
      have h_empty : next.blanks = "" := String.toList_eq_nil_iff.1 h_blanks
      have h_apart := (List.isChain_cons_cons.1 h.apart).1
      have h_head : c ∈ (spelling next.word.kind next.word.text).head? := by
        rw [h_blanks, List.nil_append] at h_c
        cases h_spelling : spelling next.word.kind next.word.text with
        | nil => exact absurd h_spelling (spelling_ne_nil h_fits)
        | cons d ds =>
          rw [h_spelling] at h_c
          exact h_c
      rw [Bool.eq_false_iff]
      intro h_continues
      exact h_apart (merges_of_continues h_fits h_head h_continues) h_empty

/-- **Words that are laid out are read.** -/
theorem reads {rows : List Row} (h : Separated rows) {trailing : String}
    (h_trailing : IsBlank trailing) :
    Reads (layOut rows trailing).toList (rows.map Row.word) := by
  induction rows with
  | nil =>
    have h_reads : Reads (trailing.toList ++ []) [] :=
      Reads.nil.blanks h_trailing (by rintro _ ⟨⟩)
    rw [List.append_nil] at h_reads
    exact h_reads
  | cons row rows ih =>
    have h_fits := h.fits row List.mem_cons_self
    have h_word := (ih h.tail).spelling h_fits (h.border h_trailing)
    rw [toList_layOut_cons]
    refine Reads.blanks (h.blank row List.mem_cons_self) (fun c h_c => ?_) h_word
    cases h_spelling : spelling row.word.kind row.word.text with
    | nil => exact absurd h_spelling (spelling_ne_nil h_fits)
    | cons d ds =>
      rw [h_spelling] at h_c
      obtain rfl : d = c := Option.some.inj h_c
      exact not_blank_of_fits h_fits h_spelling

end Separated

/-- **Reading undoes writing out.** Words of their kinds' classes, each of them spelled out, with
blanks between them wherever the kinds of two neighbours merge, and anywhere else if there are any,
make up a script that is read to its end: its tokens are the words, of the same kinds and with the
same texts, in order, behind which comes the one token that ends the script; and no character is
skipped. -/
theorem tokenize_layOut {rows : List Row} (h : Separated rows) {trailing : String}
    (h_trailing : IsBlank trailing) :
    ∃ body p, tokenize (layOut rows trailing) = .ok (body ++ [Token.endOfInput p]) ∧
      body.map Token.word = rows.map Row.word ∧ skippedCharacters (layOut rows trailing) = [] := by
  obtain ⟨h_words, h_skipped, h_complete⟩ := h.reads h_trailing .start
  cases h_ending : (divide (layOut rows trailing).toList).ending with
  | unclosedQuote p =>
    change (divide _).ending.isComplete = true at h_complete
    rw [h_ending] at h_complete
    cases h_complete
  | complete p =>
    refine ⟨(divide (layOut rows trailing).toList).tokens, p, ?_, h_words, h_skipped⟩
    simp only [tokenize, Division.last, h_ending]
    rfl

/-- Words of all sorts, most of them with nothing between them. -/
private def closeRows : List Row :=
  [⟨"", .declaration, "let"⟩, ⟨" ", .identifier, "x"⟩, ⟨"", .less, "<"⟩, ⟨"\t", .equal, "="⟩,
    ⟨"", .string, "#\n="⟩, ⟨"", .number, "1"⟩, ⟨"", .identifier, "é"⟩, ⟨"", .semicolon, ";"⟩]

/-- Words next to each other, and a string with a hash sign and a line feed in it. -/
theorem tokenize_layOut_of_closeRows :
    layOut closeRows "\n" = "let x<\t=\"#\n=\"1é;\n" ∧ Separated closeRows ∧ IsBlank "\n" ∧
      ∃ body p, tokenize (layOut closeRows "\n") = .ok (body ++ [Token.endOfInput p]) ∧
        body.map Token.word = closeRows.map Row.word ∧
        skippedCharacters (layOut closeRows "\n") = [] := by
  have h_fits : ∀ row ∈ closeRows, Fits row.word.kind row.word.text := by
    simp only [closeRows, List.forall_mem_cons]
    refine ⟨.inl rfl, ?_, rfl, rfl, ?_, ⟨by decide, ?_⟩, ?_, rfl, List.forall_mem_nil _⟩
    · exact (by decide : IsName "x")
    · exact (by decide : '"' ∉ "#\n=".toList)
    · -- the characters of the text are tried, not all characters that there are
      have h_digits : "1".toList.all Char.isDigit = true := by decide
      exact List.all_eq_true.1 h_digits
    · exact (by decide +kernel : IsName "é")
  have h_blank : ∀ row ∈ closeRows, IsBlank row.blanks := by
    have h_all : ∀ row ∈ closeRows, row.blanks.toList.all isBlank = true := by decide
    exact fun row h_row => List.all_eq_true.1 (h_all row h_row)
  have h_apart : closeRows.IsChain fun row next =>
      Merges row.word.kind next.word.kind → next.blanks ≠ "" := by decide
  have h_trailing : IsBlank "\n" := List.all_eq_true.1 (by decide)
  exact ⟨by decide +kernel, ⟨h_fits, h_blank, h_apart⟩, h_trailing,
    tokenize_layOut ⟨h_fits, h_blank, h_apart⟩ h_trailing⟩

end ScriptLang
