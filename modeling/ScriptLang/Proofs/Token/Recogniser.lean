import ScriptLang.Segment

/-!
# Which recogniser answers

The characters of scripts fall into classes of which no two overlap: word characters, digits, the
quote, the characters of symbols, blanks and the hash sign. The first character of a text thereby
settles which recognisers can find anything at all in front of it.

* `Lexeme.longest?_word`, `longest?_number`, `longest?_string`, `longest?_symbol` — the longest find
  among all tokens, by the class of the first character.
* `Segment.front?_blank`, `front?_comment`, `front?_lexeme` — what stands at the front of a text.
-/

namespace ScriptLang

/-! ### Letters and ASCII -/

/-- In ASCII the letters are the alphabetic characters. -/
theorem isAlphabetic_of_lt {c : Char} (h : c.toNat < 0x80) : isAlphabetic c = c.isAlpha := by
  have h_ranges : ∀ r ∈ CharClass.alphabeticBeyondAscii.ranges, 0x80 ≤ r.1 := by
    decide +kernel
  -- the ranges beyond ASCII all begin beyond ASCII
  have h_beyond : CharClass.alphabeticBeyondAscii.contains c = false := by
    rw [Bool.eq_false_iff]
    intro h_contains
    obtain ⟨r, h_r, h_first, -⟩ := CharClass.contains_iff.1 h_contains
    have := h_ranges r h_r
    omega
  rw [isAlphabetic, h_beyond, Bool.or_false]

namespace Lexeme

open Recogniser

/-- May the character stand in a symbol? -/
def isSymbolCharacter (c : Char) : Bool :=
  c ∈ ['(', ')', '[', ']', '\x7b', '\x7d', ',', ':', '.', ';', '+', '-', '*', '/', '%', '=', '!',
    '>', '<']

/-! ### The classes do not overlap -/

/-- No ASCII character but a letter and the underscore stands in words. -/
theorem not_word_of_ascii {c : Char} (h : c.toNat < 0x80) (h_alpha : c.isAlpha = false)
    (h_underscore : c ≠ '_') : isWordCharacter c = false := by
  rw [isWordCharacter, isAlphabetic_of_lt h, h_alpha, Bool.false_or]
  exact decide_eq_false h_underscore

/-- What holds of all the characters that are listed holds of whatever may stand in a symbol. The
list is run through, so that nobody tries all the characters that there are. -/
theorem forall_symbolCharacter {p : Char → Prop} [DecidablePred p]
    (h : ['(', ')', '[', ']', '\x7b', '\x7d', ',', ':', '.', ';', '+', '-', '*', '/', '%', '=', '!',
      '>', '<'].all (fun c => decide (p c)) = true) {c : Char} (h_c : isSymbolCharacter c = true) :
    p c :=
  of_decide_eq_true (List.all_eq_true.1 h c (of_decide_eq_true h_c))

theorem not_word_of_symbol {c : Char} (h : isSymbolCharacter c = true) :
    isWordCharacter c = false := by
  obtain ⟨h_ascii, h_alpha, h_underscore⟩ :=
    forall_symbolCharacter (p := fun c => c.toNat < 0x80 ∧ c.isAlpha = false ∧ c ≠ '_')
      (by decide) h
  exact not_word_of_ascii h_ascii h_alpha h_underscore

/-- Where the letters of ASCII are. -/
theorem toNat_of_isAlpha {c : Char} (h : c.isAlpha = true) :
    65 ≤ c.toNat ∧ c.toNat ≤ 90 ∨ 97 ≤ c.toNat ∧ c.toNat ≤ 122 := by
  -- the ranges are opened by hand so that the bounds can be compared as numbers
  change (decide (65 ≤ c.val ∧ c.val ≤ 90) ||
    (decide (97 ≤ c.val) && decide (c.val ≤ 122))) = true at h
  rw [Bool.or_eq_true, Bool.and_eq_true, decide_eq_true_eq, decide_eq_true_eq, decide_eq_true_eq,
    UInt32.le_iff_toNat_le, UInt32.le_iff_toNat_le, UInt32.le_iff_toNat_le,
    UInt32.le_iff_toNat_le] at h
  exact h

theorem not_word_of_digit {c : Char} (h : c.isDigit = true) : isWordCharacter c = false := by
  have h_range : 48 ≤ c.toNat ∧ c.toNat ≤ 57 := Char.isDigit_iff_toNat.1 h
  refine not_word_of_ascii (by omega) ?_ ?_
  · rw [Bool.eq_false_iff]
    intro h_alpha
    have h_letter := toNat_of_isAlpha h_alpha
    omega
  · rintro rfl
    cases h

theorem not_word_of_blank {c : Char} (h : isBlank c = true) : isWordCharacter c = false := by
  simp only [isBlank, Bool.or_eq_true, decide_eq_true_eq] at h
  rcases h with ((rfl | rfl) | rfl) | rfl <;>
    exact not_word_of_ascii (by decide) (by decide) (by decide)

theorem not_symbol_of_word {c : Char} (h : isWordCharacter c = true) :
    isSymbolCharacter c = false := by
  cases h_symbol : isSymbolCharacter c with
  | false => rfl
  | true => rw [not_word_of_symbol h_symbol] at h; cases h

theorem not_digit_of_symbol {c : Char} (h : isSymbolCharacter c = true) : c.isDigit = false :=
  forall_symbolCharacter (p := fun c => c.isDigit = false) (by decide) h

theorem not_symbol_of_digit {c : Char} (h : c.isDigit = true) : isSymbolCharacter c = false := by
  rw [Bool.eq_false_iff]
  intro h_symbol
  rw [not_digit_of_symbol h_symbol] at h
  cases h

theorem not_symbol_of_blank {c : Char} (h : isBlank c = true) : isSymbolCharacter c = false := by
  simp only [isBlank, Bool.or_eq_true, decide_eq_true_eq] at h
  rcases h with ((rfl | rfl) | rfl) | rfl <;> rfl

theorem not_digit_of_blank {c : Char} (h : isBlank c = true) : c.isDigit = false := by
  simp only [isBlank, Bool.or_eq_true, decide_eq_true_eq] at h
  rcases h with ((rfl | rfl) | rfl) | rfl <;> rfl

/-! ### Finds of one recogniser -/

/-- A find is what it is and how long it is. -/
theorem Found.ext {α : Type} {m m' : Found α} (h_label : m.label = m'.label)
    (h_length : m.length = m'.length) : m = m' := by
  cases m
  cases m'
  cases h_label
  cases h_length
  rfl

/-- A symbol is found where its spelling stands. -/
theorem symbol_eq_some {kind : TokenKind} {cs : List Char} {m : Found TokenKind} :
    symbol kind cs = some m ↔
      kind.describe.toList <+: cs ∧ m.label = kind ∧ m.length = kind.describe.length := by
  have h_pos : 0 < kind.describe.length := by
    rw [← String.length_toList]
    exact List.length_pos_iff.2 kind.describe_ne_nil
  obtain ⟨label, length, length_pos⟩ := m
  simp only [symbol, found?, dif_pos h_pos]
  by_cases h : kind.describe.toList <+: cs
  · simp [h, eq_comm]
  · simp [h]

/-- **A run ends** in front of a character outside of the class, or where nothing stands behind
it. -/
theorem takeWhile_border {p : Char → Bool} {run rest : List Char}
    (inside : ∀ c ∈ run, p c = true) (border : ∀ c ∈ rest.head?, p c = false) :
    (run ++ rest).takeWhile p = run := by
  rw [List.takeWhile_append_of_pos inside]
  cases rest with
  | nil => rw [List.takeWhile_nil, List.append_nil]
  | cons c rest =>
    have h_c : ¬p c = true := Bool.eq_false_iff.1 (border c rfl)
    rw [List.takeWhile_cons_of_neg h_c, List.append_nil]

/-- A run is found where it is not empty. -/
theorem runOf_eq_some {α : Type} {inClass : Char → Bool} {label : List Char → α} {cs : List Char}
    {m : Found α} :
    runOf inClass label cs = some m ↔
      0 < (cs.takeWhile inClass).length ∧ m.label = label (cs.takeWhile inClass) ∧
        m.length = (cs.takeWhile inClass).length := by
  obtain ⟨l, length, length_pos⟩ := m
  by_cases h : 0 < (cs.takeWhile inClass).length
  · simp [runOf, found?, h, eq_comm]
  · simp only [runOf, found?, dif_neg h, reduceCtorEq, false_iff]
    exact fun h' => h h'.1

/-- No run begins with a character outside of the class. -/
theorem runOf_eq_none {α : Type} {inClass : Char → Bool} {label : List Char → α} {c : Char}
    {cs : List Char} (h : inClass c = false) : runOf inClass label (c :: cs) = none := by
  simp [runOf, found?, h]

/-- The spellings of symbols are made of symbol characters. -/
theorem isSymbolCharacter_of_mem {kind : TokenKind} (h : kind ∈ TokenKind.symbols) :
    ∀ c ∈ kind.describe.toList, isSymbolCharacter c = true := by
  have h_symbols : TokenKind.symbols.all
      (fun kind => kind.describe.toList.all isSymbolCharacter) = true := by decide
  exact List.all_eq_true.1 (List.all_eq_true.1 h_symbols kind h)

/-- No symbol begins with a character that stands in no symbol. -/
theorem symbol_eq_none {kind : TokenKind} (h_kind : kind ∈ TokenKind.symbols) {c : Char}
    {cs : List Char} (h : isSymbolCharacter c = false) : symbol kind (c :: cs) = none := by
  -- a symbol in front would begin with this character
  have h_not : ¬kind.describe.toList <+: c :: cs := by
    intro h_begins
    cases h_spelling : kind.describe.toList with
    | nil => exact kind.describe_ne_nil h_spelling
    | cons d ds =>
      rw [h_spelling, List.cons_prefix_cons] at h_begins
      have h_d := isSymbolCharacter_of_mem h_kind d (by rw [h_spelling]; exact List.mem_cons_self)
      rw [h_begins.1, h] at h_d
      cases h_d
  simp only [symbol, if_neg h_not]

theorem string_eq_none {c : Char} {cs : List Char} (h : c ≠ '"') : string (c :: cs) = none := by
  rw [string]
  rintro cs' ⟨⟩
  exact h rfl

/-- A recogniser of the language is one of a symbol, or it is that of words, strings or numbers. -/
theorem mem_recognisers {r : Recogniser TokenKind} :
    r ∈ recognisers ↔
      (∃ kind ∈ TokenKind.symbols, symbol kind = r) ∨ r = word ∨ r = string ∨ r = number := by
  rw [recognisers, List.mem_append, List.mem_map]
  simp only [List.mem_cons, List.not_mem_nil, or_false]

/-! ### The longest find -/

/-- What recognisers find that all find nothing. -/
private theorem finds_eq_nil {α : Type} {rs : List (Recogniser α)} {cs : List Char}
    (h : ∀ r ∈ rs, r cs = none) : rs.filterMap (· cs) = [] :=
  List.filterMap_eq_nil_iff.2 h

/-- **If only one recogniser can find anything,** its find is the longest one. -/
theorem longest?_alone {α : Type} {rs rs' : List (Recogniser α)} (r : Recogniser α)
    {cs : List Char} (h : ∀ q ∈ rs, q cs = none) (h' : ∀ q ∈ rs', q cs = none) :
    longest? (rs ++ r :: rs') cs = r cs := by
  -- the others drop out of the list of finds, whether `r` finds something or not
  have h_cons : (r :: rs').filterMap (· cs) = (r cs).toList := by
    cases h_r : r cs with
    | none => rw [List.filterMap_cons_none (by exact h_r), finds_eq_nil h']; rfl
    | some m => rw [List.filterMap_cons_some (by exact h_r), finds_eq_nil h']; rfl
  rw [longest?, List.filterMap_append, finds_eq_nil h, List.nil_append, h_cons]
  cases r cs with
  | none => rfl
  | some m => exact List.maxOn?_singleton

/-- Recognisers at the end that find nothing do not count. -/
theorem longest?_append_left {α : Type} {rs rs' : List (Recogniser α)} {cs : List Char}
    (h : ∀ q ∈ rs', q cs = none) : longest? (rs ++ rs') cs = longest? rs cs := by
  rw [longest?, List.filterMap_append, finds_eq_nil h, List.append_nil, longest?]

/-- Recognisers that all find nothing have no longest find. -/
theorem longest?_eq_none {α : Type} {rs : List (Recogniser α)} {cs : List Char}
    (h : ∀ r ∈ rs, r cs = none) : longest? rs cs = none := by
  rw [longest?, finds_eq_nil h]
  rfl

/-- Recognisers that find the same in two texts have the same longest find in both. -/
theorem longest?_congr {α : Type} {rs : List (Recogniser α)} {cs ds : List Char}
    (h : ∀ r ∈ rs, r cs = r ds) : longest? rs cs = longest? rs ds := by
  have h_finds : rs.filterMap (· cs) = rs.filterMap (· ds) := by
    induction rs with
    | nil => rfl
    | cons r rs ih =>
      obtain ⟨h_r, h_rs⟩ := List.forall_mem_cons.1 h
      simp only [List.filterMap_cons, h_r, ih h_rs]
  rw [longest?, longest?, h_finds]

/-- No symbol stands in front of a text that begins with no symbol character. -/
private theorem symbols_eq_none {c : Char} {cs : List Char} (h : isSymbolCharacter c = false) :
    ∀ r ∈ TokenKind.symbols.map symbol, r (c :: cs) = none := by
  intro r h_r
  obtain ⟨kind, h_kind, rfl⟩ := List.mem_map.1 h_r
  exact symbol_eq_none h_kind h

/-- **In front of a word character** the longest find is a word. -/
theorem longest?_word {c : Char} {cs : List Char} (h : isWordCharacter c = true) :
    longest? recognisers (c :: cs) = word (c :: cs) := by
  have h_digit : c.isDigit = false := by
    cases h_digit : c.isDigit with
    | false => rfl
    | true => rw [not_word_of_digit h_digit] at h; cases h
  have h_quote : c ≠ '"' := by
    rintro rfl
    rw [not_word_of_ascii (by decide) (by decide) (by decide)] at h
    cases h
  refine longest?_alone word (symbols_eq_none (not_symbol_of_word h)) ?_
  intro r h_r
  simp only [List.mem_cons, List.not_mem_nil, or_false] at h_r
  rcases h_r with rfl | rfl
  · exact string_eq_none h_quote
  · exact runOf_eq_none h_digit

/-- **In front of a digit** the longest find is a number. -/
theorem longest?_number {c : Char} {cs : List Char} (h : c.isDigit = true) :
    longest? recognisers (c :: cs) = number (c :: cs) := by
  have h_quote : c ≠ '"' := by
    rintro rfl
    cases h
  -- split the list at the one recogniser that can find something
  have h_recognisers :
      recognisers = (TokenKind.symbols.map symbol ++ [word, string]) ++ number :: [] := by
    rw [recognisers, List.append_assoc]
    rfl
  rw [h_recognisers]
  refine longest?_alone number ?_ (List.forall_mem_nil _)
  intro r h_r
  rcases List.mem_append.1 h_r with h_r | h_r
  · exact symbols_eq_none (not_symbol_of_digit h) r h_r
  · simp only [List.mem_cons, List.not_mem_nil, or_false] at h_r
    rcases h_r with rfl | rfl
    · exact runOf_eq_none (not_word_of_digit h)
    · exact string_eq_none h_quote

/-- **In front of a quote** the longest find is a string. -/
theorem longest?_string (cs : List Char) :
    longest? recognisers ('"' :: cs) = string ('"' :: cs) := by
  have h_recognisers :
      recognisers = (TokenKind.symbols.map symbol ++ [word]) ++ string :: [number] := by
    rw [recognisers, List.append_assoc]
    rfl
  rw [h_recognisers]
  refine longest?_alone string ?_ ?_
  · intro r h_r
    rcases List.mem_append.1 h_r with h_r | h_r
    · exact symbols_eq_none (by decide) r h_r
    · obtain rfl := List.mem_singleton.1 h_r
      exact runOf_eq_none (not_word_of_ascii (by decide) (by decide) (by decide))
  · intro r h_r
    obtain rfl := List.mem_singleton.1 h_r
    exact runOf_eq_none (by decide)

/-- **In front of any other character** the longest find is a symbol. -/
theorem longest?_symbol {c : Char} {cs : List Char} (h_word : isWordCharacter c = false)
    (h_digit : c.isDigit = false) (h_quote : c ≠ '"') :
    longest? recognisers (c :: cs) = longest? (TokenKind.symbols.map symbol) (c :: cs) := by
  -- words, strings and numbers come behind the symbols and find nothing
  refine longest?_append_left ?_
  intro r h_r
  simp only [List.mem_cons, List.not_mem_nil, or_false] at h_r
  rcases h_r with rfl | rfl | rfl
  · exact runOf_eq_none h_word
  · exact string_eq_none h_quote
  · exact runOf_eq_none h_digit

/-- No lexeme begins with a character that belongs to no class. -/
theorem longest?_none {c : Char} {cs : List Char} (h_word : isWordCharacter c = false)
    (h_digit : c.isDigit = false) (h_quote : c ≠ '"') (h_symbol : isSymbolCharacter c = false) :
    longest? recognisers (c :: cs) = none := by
  rw [longest?_symbol h_word h_digit h_quote]
  exact longest?_eq_none (symbols_eq_none h_symbol)

theorem longest?_blank {c : Char} {cs : List Char} (h : isBlank c = true) :
    longest? recognisers (c :: cs) = none := by
  refine longest?_none (not_word_of_blank h) (not_digit_of_blank h) ?_ (not_symbol_of_blank h)
  rintro rfl
  cases h

theorem longest?_hash (cs : List Char) : longest? recognisers ('#' :: cs) = none :=
  longest?_none (not_word_of_ascii (by decide) (by decide) (by decide)) rfl (by decide) rfl

end Lexeme

/-! ### The front of a text -/

namespace Segment

open Recogniser Lexeme

/-- No comment stands in front of any character but the hash sign. -/
theorem comment_eq_none {c : Char} {cs : List Char} (h : c ≠ '#') : comment (c :: cs) = none := by
  rw [comment]
  rintro cs' ⟨⟩
  exact h rfl

/-- **A blank in front** begins a blank run. -/
theorem front?_blank {c : Char} {cs : List Char} (h : isBlank c = true) :
    front? trivia recognisers c cs = blank (c :: cs) := by
  have h_comment : ∀ r ∈ [comment], r (c :: cs) = none := by
    intro r h_r
    obtain rfl := List.mem_singleton.1 h_r
    refine comment_eq_none ?_
    rintro rfl
    cases h
  have h_none : ∀ r ∈ ([] : List (Recogniser SegmentKind)), r (c :: cs) = none :=
    List.forall_mem_nil _
  have h_longest : longest? trivia (c :: cs) = blank (c :: cs) :=
    longest?_alone blank h_none h_comment
  have h_run : 0 < ((c :: cs).takeWhile isBlank).length := by
    rw [List.takeWhile_cons_of_pos h]
    exact Nat.succ_pos _
  rw [front?, h_longest, blank, runOf, found?, dif_pos h_run]
  rfl

/-- **A hash sign in front** begins a comment. -/
theorem front?_comment (cs : List Char) :
    front? trivia recognisers '#' cs = comment ('#' :: cs) := by
  have h_blank : ∀ r ∈ [blank], r ('#' :: cs) = none := by
    intro r h_r
    obtain rfl := List.mem_singleton.1 h_r
    exact runOf_eq_none (by decide)
  have h_none : ∀ r ∈ ([] : List (Recogniser SegmentKind)), r ('#' :: cs) = none :=
    List.forall_mem_nil _
  have h_longest : longest? trivia ('#' :: cs) = comment ('#' :: cs) :=
    longest?_alone comment h_blank h_none
  rw [front?, h_longest, comment]
  rfl

/-- **Anything else in front** begins a token, or is skipped, unless it is a quote. -/
theorem front?_lexeme {c : Char} {cs : List Char} (h : isBlank c = false) (h_hash : c ≠ '#') :
    front? trivia recognisers c cs =
      ((longest? recognisers (c :: cs)).map (Found.map SegmentKind.token)).or
        (if c = '"' then none else some ⟨.skipped, 1, Nat.one_pos⟩) := by
  have h_longest : longest? trivia (c :: cs) = none := by
    refine longest?_eq_none ?_
    intro r h_r
    simp only [trivia, List.mem_cons, List.not_mem_nil, or_false] at h_r
    rcases h_r with rfl | rfl
    · exact runOf_eq_none h
    · exact comment_eq_none h_hash
  rw [front?, h_longest]
  rfl

end Segment

end ScriptLang
