import ScriptLang.Proofs.Token.Recogniser
import ScriptLang.Token.OfSegments

/-!
# The texts of tokens

Every kind of token has a class of texts: a symbol its spelling, a keyword its word, a name the
words that are no keywords, a number the runs of digits, a string whatever has no quote in it.
A token of a script has a text of its kind's class, and any text of the class can be spelled out
to be found again.

* `Lexeme.fits_of_longest?` — what the recognisers find is of its kind's class.
* `Lexeme.longest?_spelling_self` — a text of a kind's class is found again where it is spelled out.
* `Lexeme.longest?_append` — a character that can stand in no lexeme is a border to every find.
-/

namespace ScriptLang

namespace Lexeme

open Recogniser

/-- **A name:** word characters that make no keyword. -/
def IsName (text : String) : Prop :=
  text.toList ≠ [] ∧ (∀ c ∈ text.toList, isWordCharacter c = true) ∧ keyword text = none

-- the characters of the text are tried, not all characters that there are
instance (text : String) : Decidable (IsName text) :=
  decidable_of_iff
    (text.toList ≠ [] ∧ text.toList.all isWordCharacter = true ∧ keyword text = none) <| by
      rw [List.all_eq_true]
      exact Iff.rfl

/-- **The text is of the class** of the kind. The end of input has no text in a script. -/
def Fits : TokenKind → String → Prop
  | .identifier, text => IsName text
  | .number, text => text.toList ≠ [] ∧ ∀ c ∈ text.toList, c.isDigit = true
  | .string, text => '"' ∉ text.toList
  | .declaration, text => text = "let" ∨ text = "const"
  | .print, text => text = "print"
  | .endOfInput, _ => False
  | kind, text => text = kind.describe

/-- The lexeme of a token with the given text: a string gets its two quotes. -/
def spelling (kind : TokenKind) (text : String) : List Char :=
  if kind = .string then '"' :: (text.toList ++ ['"']) else text.toList

/-- A symbol has one text, and that is its description. -/
theorem fits_symbol {kind : TokenKind} (h : kind ∈ TokenKind.symbols) {text : String} :
    Fits kind text ↔ text = kind.describe := by
  cases kind <;> first | exact Iff.rfl | simp [TokenKind.symbols] at h

/-- A symbol is spelled as it is described. -/
theorem spelling_symbol {kind : TokenKind} (h : kind ∈ TokenKind.symbols) :
    spelling kind kind.describe = kind.describe.toList := by
  have h_string : kind ≠ .string := by
    rintro rfl
    exact absurd h (by decide)
  exact if_neg h_string

/-- The text of a spelled token is the text that was spelled. -/
theorem content_spelling (kind : TokenKind) (text : String) :
    content kind (spelling kind text) = text.toList := by
  by_cases h : kind = .string <;> simp [content, spelling, h]

/-! ### Quoted strings -/

private theorem takeWhile_quote {body : List Char} (h : '"' ∉ body) (rest : List Char) :
    (body ++ '"' :: rest).takeWhile (· ≠ '"') = body := by
  refine takeWhile_border (fun c h_c => decide_eq_true ?_) ?_
  · rintro rfl
    exact h h_c
  · rintro _ ⟨⟩
    rfl

/-- A quote, a text without quotes and another quote are found as a string. -/
theorem string_quoted {body : List Char} (h : '"' ∉ body) (rest : List Char) :
    ∃ m, string ('"' :: (body ++ '"' :: rest)) = some m ∧ m.label = .string ∧
      m.length = body.length + 2 := by
  simp only [string, takeWhile_quote h]
  rw [if_pos (by simp)]
  exact ⟨_, rfl, rfl, rfl⟩

/-- Where a string is found, there are a quote, a text without quotes and another quote. -/
private theorem quoted_of_string {cs : List Char} {m : Found TokenKind} (h : string cs = some m) :
    ∃ body rest, cs = '"' :: (body ++ '"' :: rest) ∧ '"' ∉ body := by
  rw [string.eq_def] at h
  split at h
  · next cs =>
    simp only at h
    split at h
    · next h_length =>
      -- the characters up to the closing quote, which is there because they are not all
      have h_body : '"' ∉ cs.takeWhile (· ≠ '"') := by
        intro h_mem
        simpa using List.all_eq_true.1 (List.all_takeWhile (p := (· ≠ '"'))) _ h_mem
      cases h_rest : cs.dropWhile (· ≠ '"') with
      | nil =>
        -- no quote is left, so the characters up to it would be all of them
        have h_all := List.takeWhile_append_dropWhile (p := (· ≠ '"')) (l := cs)
        rw [h_rest, List.append_nil] at h_all
        rw [h_all] at h_length
        exact absurd h_length (Nat.lt_irrefl _)
      | cons c rest =>
        have h_all := List.takeWhile_append_dropWhile (p := (· ≠ '"')) (l := cs)
        have h_c := List.head?_dropWhile_not (· ≠ '"') cs
        rw [h_rest] at h_all h_c
        obtain rfl : c = '"' := by simpa using h_c
        exact ⟨_, rest, congrArg _ h_all.symm, h_body⟩
    · cases h
  · cases h

/-- A found string is a quote, a text without quotes and another quote. -/
theorem string_eq_some {cs : List Char} {m : Found TokenKind} (h : string cs = some m) :
    ∃ body rest, cs = '"' :: (body ++ '"' :: rest) ∧ '"' ∉ body ∧ m.label = .string ∧
      m.length = body.length + 2 := by
  obtain ⟨body, rest, rfl, h_body⟩ := quoted_of_string h
  obtain ⟨m', h_m', h_label, h_length⟩ := string_quoted h_body rest
  obtain rfl : m' = m := Option.some.inj (h_m'.symm.trans h)
  exact ⟨body, rest, rfl, h_body, h_label, h_length⟩

/-! ### What is found is of its class -/

/-- What a prefix of a text takes off it is the prefix. -/
private theorem take_of_begins {u cs : List Char} {n : Nat} (h : u <+: cs) (h_n : n = u.length) :
    cs.take n = u := by
  obtain ⟨v, rfl⟩ := h
  rw [h_n, List.take_left']
  rfl

/-- What a found string takes off its text are the two quotes and what is between them. -/
theorem take_of_string {cs : List Char} {m : Found TokenKind} (h : string cs = some m) :
    ∃ body, '"' ∉ body ∧ m.label = .string ∧ cs.take m.length = '"' :: (body ++ ['"']) := by
  obtain ⟨body, rest, rfl, h_body, h_label, h_length⟩ := string_eq_some h
  refine ⟨body, h_body, h_label, take_of_begins ⟨rest, ?_⟩ ?_⟩
  · rw [List.cons_append, List.append_assoc, List.singleton_append]
  · rw [h_length, List.length_cons, List.length_append, List.length_singleton]

/-- The text of a word is of the class of the word's kind. -/
theorem fits_wordKind {w : List Char} (h : w ≠ [])
    (h_all : ∀ c ∈ w, isWordCharacter c = true) :
    wordKind w ≠ .string ∧ Fits (wordKind w) (String.ofList w) := by
  cases h_keyword : keyword (String.ofList w) with
  | none =>
    rw [wordKind, h_keyword]
    exact ⟨by decide, by rwa [String.toList_ofList], by rwa [String.toList_ofList], h_keyword⟩
  | some kind =>
    rw [wordKind, h_keyword, Option.getD_some]
    -- the texts of the keywords, one after the other
    unfold keyword at h_keyword
    split at h_keyword
    · next h_text =>
      cases h_keyword
      exact ⟨by decide, h_text⟩
    · split at h_keyword
      · next h_text =>
        cases h_keyword
        exact ⟨by decide, h_text⟩
      · cases h_keyword

/-- **What is found is of its kind's class:** the text of a lexeme is one that its kind can
have. -/
theorem fits_of_longest? {cs : List Char} {m : Found TokenKind}
    (h : longest? recognisers cs = some m) :
    Fits m.label (String.ofList (content m.label (cs.take m.length))) := by
  -- one case for every sort of recogniser: what it finds is a prefix of the text
  obtain ⟨r, h_r, h_found⟩ := longest?_mem h
  rcases mem_recognisers.1 h_r with ⟨kind, h_kind, rfl⟩ | rfl | rfl | rfl
  · obtain ⟨h_begins, rfl, h_length⟩ := symbol_eq_some.1 h_found
    have h_string : m.label ≠ .string := by
      intro e
      rw [e] at h_kind
      exact absurd h_kind (by decide)
    rw [take_of_begins h_begins (h_length.trans String.length_toList.symm), content,
      if_neg h_string, String.ofList_toList, fits_symbol h_kind]
  · obtain ⟨h_pos, h_label, h_length⟩ := runOf_eq_some.1 h_found
    have h_all : ∀ c ∈ cs.takeWhile isWordCharacter, isWordCharacter c = true :=
      List.all_eq_true.1 List.all_takeWhile
    obtain ⟨h_string, h_fits⟩ := fits_wordKind (List.length_pos_iff.1 h_pos) h_all
    rw [take_of_begins (List.takeWhile_prefix _) h_length, h_label, content, if_neg h_string]
    exact h_fits
  · -- the text of a string has no quotes around it
    obtain ⟨body, h_body, h_label, h_take⟩ := take_of_string h_found
    rw [h_take, h_label]
    simpa [content, Fits] using h_body
  · obtain ⟨h_pos, h_label, h_length⟩ := runOf_eq_some.1 h_found
    rw [take_of_begins (List.takeWhile_prefix _) h_length, h_label]
    refine ⟨?_, ?_⟩
    · rw [String.toList_ofList]
      exact List.length_pos_iff.1 h_pos
    · rw [String.toList_ofList]
      exact List.all_eq_true.1 List.all_takeWhile

/-- What a recogniser finds is no longer than the text it is found in. -/
theorem length_le_of_find {r : Recogniser TokenKind} (h_r : r ∈ recognisers) {cs : List Char}
    {m : Found TokenKind} (h_found : r cs = some m) : m.length ≤ cs.length := by
  rcases mem_recognisers.1 h_r with ⟨kind, -, rfl⟩ | rfl | rfl | rfl
  · obtain ⟨h_begins, -, h_length⟩ := symbol_eq_some.1 h_found
    rw [h_length, ← String.length_toList]
    exact h_begins.length_le
  · rw [(runOf_eq_some.1 h_found).2.2]
    exact (List.takeWhile_prefix _).length_le
  · obtain ⟨body, rest, rfl, -, -, h_length⟩ := string_eq_some h_found
    simp only [h_length, List.length_cons, List.length_append]
    omega
  · rw [(runOf_eq_some.1 h_found).2.2]
    exact (List.takeWhile_prefix _).length_le

/-- A lexeme is no longer than the text it is found in. -/
theorem length_le_of_longest? {cs : List Char} {m : Found TokenKind}
    (h : longest? recognisers cs = some m) : m.length ≤ cs.length := by
  obtain ⟨r, h_r, h_found⟩ := longest?_mem h
  exact length_le_of_find h_r h_found

/-! ### A blank is a border -/

/-- A run is found as if nothing stood behind a border of its class. -/
theorem runOf_border {α : Type} {inClass : Char → Bool} {label : List Char → α} (a : List Char)
    {rest : List Char} (h : ∀ c ∈ rest.head?, inClass c = false) :
    runOf inClass label (a ++ rest) = runOf inClass label a := by
  have h_run : (a ++ rest).takeWhile inClass = a.takeWhile inClass := by
    rw [List.takeWhile_append]
    split
    · next h_all =>
      -- all of the text is in the class, and nothing of what follows
      have h_rest : ([] ++ rest).takeWhile inClass = [] :=
        takeWhile_border (List.forall_mem_nil _) h
      rw [List.nil_append] at h_rest
      rw [h_rest, List.append_nil, (List.takeWhile_prefix _).eq_of_length h_all]
    · rfl
  simp only [runOf, h_run]

/-- A symbol ends in front of a character that stands in no symbol. -/
theorem symbol_append {kind : TokenKind} (h_kind : kind ∈ TokenKind.symbols) {c : Char}
    (h : isSymbolCharacter c = false) (a b : List Char) :
    symbol kind (a ++ c :: b) = symbol kind a := by
  have h_mem : c ∉ kind.describe.toList := by
    intro h_mem
    rw [isSymbolCharacter_of_mem h_kind c h_mem] at h
    cases h
  have h_begins : kind.describe.toList <+: a ++ c :: b ↔ kind.describe.toList <+: a := by
    constructor
    · intro h_long
      have h_border : a ++ [c] <+: a ++ c :: b := ⟨b, by simp⟩
      -- a symbol that reached over the border would have the border character in it
      rcases List.prefix_or_prefix_of_prefix h_long h_border with h_short | h_over
      · rcases List.prefix_concat_iff.1 h_short with h_eq | h_short
        · exact absurd (by rw [h_eq]; simp) h_mem
        · exact h_short
      · exact absurd (h_over.subset (by simp)) h_mem
    · intro h_short
      exact h_short.trans (List.prefix_append _ _)
  simp only [symbol, h_begins]

/-- A blank is a border to every find, unless it is inside a string that is still open. -/
theorem longest?_append {a rest : List Char} (h_rest : ∀ c ∈ rest.head?, isBlank c = true)
    (h_closed : ∀ c ∈ a.head?, c = '"' → ∃ m, string a = some m) (h : a ≠ []) :
    longest? recognisers (a ++ rest) = longest? recognisers a := by
  cases rest with
  | nil => rw [List.append_nil]
  | cons c b =>
    have h_blank : isBlank c = true := h_rest c rfl
    refine longest?_congr fun r h_r => ?_
    rcases mem_recognisers.1 h_r with ⟨kind, h_kind, rfl⟩ | rfl | rfl | rfl
    · exact symbol_append h_kind (not_symbol_of_blank h_blank) a b
    · exact runOf_border a fun d h_d => not_word_of_blank (h_rest d h_d)
    · cases a with
      | nil => exact absurd rfl h
      | cons d a =>
        by_cases h_quote : d = '"'
        · -- the string is closed in front of the border, so the same one is found beyond it
          obtain ⟨m, h_m⟩ := h_closed d rfl h_quote
          obtain ⟨body, more, h_a, h_body, h_label, h_length⟩ := string_eq_some h_m
          obtain ⟨m', h_m', h_label', h_length'⟩ := string_quoted h_body (more ++ c :: b)
          rw [h_m, h_a, show '"' :: (body ++ '"' :: more) ++ c :: b =
            '"' :: (body ++ '"' :: (more ++ c :: b)) by simp, h_m']
          exact congrArg some (Found.ext (h_label'.trans h_label.symm)
            (h_length'.trans h_length.symm))
        · rw [List.cons_append, string_eq_none h_quote, string_eq_none h_quote]
    · exact runOf_border a fun d h_d => not_digit_of_blank (h_rest d h_d)

/-! ### Spelling out -/

/-- A run that nothing ends is the whole text. -/
private theorem takeWhile_all {p : Char → Bool} {w : List Char} (h : ∀ c ∈ w, p c = true) :
    w.takeWhile p = w := by
  have h_run : (w ++ []).takeWhile p = w := takeWhile_border h nofun
  rwa [List.append_nil] at h_run

/-- A word is found whole. -/
private theorem longest?_spelling_word {kind : TokenKind} {text : String}
    (h_kind : wordKind text.toList = kind) (h_string : kind ≠ .string) (h : text.toList ≠ [])
    (h_all : ∀ c ∈ text.toList, isWordCharacter c = true) :
    ∃ m, longest? recognisers (spelling kind text) = some m ∧ m.label = kind ∧
      m.length = (spelling kind text).length := by
  rw [spelling, if_neg h_string, ← h_kind]
  generalize text.toList = w at h h_all
  cases w with
  | nil => exact absurd rfl h
  | cons c w =>
    have h_run : (c :: w).takeWhile isWordCharacter = c :: w := takeWhile_all h_all
    rw [longest?_word (h_all c List.mem_cons_self)]
    refine ⟨⟨wordKind (c :: w), (c :: w).length, Nat.succ_pos _⟩, ?_, rfl, rfl⟩
    rw [word, runOf_eq_some, h_run]
    exact ⟨Nat.succ_pos _, rfl, rfl⟩

/-- The spelling of every symbol is found whole, though a shorter symbol may begin it. -/
private theorem longest?_symbol_self {kind : TokenKind} (h : kind ∈ TokenKind.symbols) :
    ∃ m, longest? recognisers kind.describe.toList = some m ∧ m.label = kind ∧
      m.length = kind.describe.toList.length := by
  have h_find : (longest? recognisers kind.describe.toList).map (fun m => (m.label, m.length)) =
      some (kind, kind.describe.toList.length) := by
    -- there are few symbols, and what is found in front of each can be computed
    revert kind
    decide +kernel
  obtain ⟨m, h_m, h_pair⟩ := Option.map_eq_some_iff.1 h_find
  exact ⟨m, h_m, congrArg Prod.fst h_pair, congrArg Prod.snd h_pair⟩

/-- A spelled text is found again where it stands alone. -/
theorem longest?_spelling_self {kind : TokenKind} {text : String} (h : Fits kind text) :
    ∃ m, longest? recognisers (spelling kind text) = some m ∧ m.label = kind ∧
      m.length = (spelling kind text).length := by
  by_cases h_symbol : kind ∈ TokenKind.symbols
  · obtain rfl := (fits_symbol h_symbol).1 h
    rw [spelling_symbol h_symbol]
    exact longest?_symbol_self h_symbol
  · -- the kinds that are left have a recogniser of their own each, but for the end of input
    cases kind
    case identifier =>
      obtain ⟨h_nil, h_all, h_keyword⟩ := h
      have h_kind : wordKind text.toList = .identifier := by
        rw [wordKind, String.ofList_toList, h_keyword]
        rfl
      exact longest?_spelling_word h_kind (by decide) h_nil h_all
    case declaration =>
      rcases h with rfl | rfl
      · exact longest?_spelling_word rfl (by decide) (by decide) (List.all_eq_true.1 (by decide))
      · exact longest?_spelling_word rfl (by decide) (by decide) (List.all_eq_true.1 (by decide))
    case print =>
      obtain rfl := h
      exact longest?_spelling_word rfl (by decide) (by decide) (List.all_eq_true.1 (by decide))
    case string =>
      obtain ⟨m, h_m, h_label, h_length⟩ := string_quoted h []
      refine ⟨m, (longest?_string _).trans h_m, h_label, ?_⟩
      simpa [spelling] using h_length
    case number =>
      obtain ⟨h_nil, h_all⟩ := h
      cases h_text : text.toList with
      | nil => exact absurd h_text h_nil
      | cons c w =>
        rw [h_text] at h_all
        have h_run : (c :: w).takeWhile Char.isDigit = c :: w := takeWhile_all h_all
        rw [show spelling .number text = c :: w from h_text,
          longest?_number (h_all c List.mem_cons_self)]
        refine ⟨⟨.number, (c :: w).length, Nat.succ_pos _⟩, ?_, rfl, rfl⟩
        rw [number, runOf_eq_some, h_run]
        exact ⟨Nat.succ_pos _, rfl, rfl⟩
    case endOfInput => exact absurd h id
    all_goals exact absurd (by decide) h_symbol

/-- What is spelled is not empty. -/
theorem spelling_ne_nil {kind : TokenKind} {text : String} (h : Fits kind text) :
    spelling kind text ≠ [] := by
  obtain ⟨m, -, -, h_length⟩ := longest?_spelling_self h
  exact List.length_pos_iff.1 (h_length ▸ m.length_pos)

end Lexeme

end ScriptLang
