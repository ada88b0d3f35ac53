import ScriptLang.Proofs.Token.Class

/-!
# Where a lexeme ends

Of the characters that can stand behind a lexeme only few would be read along with it: word
characters behind a word, digits behind a number, and an equals sign behind the three symbols that
begin another symbol with one. In front of any other character the lexeme ends, whatever comes
later, and is found just as if it stood alone. So two lexemes can be written next to each other
without anything between them unless their kinds merge, of which there are three ways.

* `Lexeme.continues` — the characters that are read along with a lexeme.
* `Lexeme.longest?_border`, `longest?_spelling` — in front of any other character a lexeme ends, and
  a text that is spelled out is found again.
* `Lexeme.exists_fits_of_continues` — what goes on with a lexeme makes a longer one of it.
* `Lexeme.Merges`, `Lexeme.merges_of_continues` — the kinds that need something between them.
-/

namespace ScriptLang

namespace Lexeme

open Recogniser

/-! ### What goes on with a lexeme -/

/-- Are the texts of the kind words? -/
def isWordKind : TokenKind → Bool
  | .identifier | .declaration | .print => true
  | _ => false

/-- **The characters that go on with a lexeme** of the kind when they stand behind it. -/
def continues (kind : TokenKind) (c : Char) : Bool :=
  if isWordKind kind then isWordCharacter c
  else if kind = .number then c.isDigit
  else if kind ∈ [.equal, .less, .greater] then c = '='
  else false

/-- A character goes on with no lexeme unless it stands in words or in numbers, or is an equals
sign. -/
theorem not_continues (kind : TokenKind) {c : Char} (h_word : isWordCharacter c = false)
    (h_digit : c.isDigit = false) (h_equals : c ≠ '=') : continues kind c = false := by
  unfold continues
  rw [h_word, h_digit, decide_eq_false h_equals]
  simp only [ite_self]

/-- **A blank goes on with no lexeme.** -/
theorem not_continues_of_blank (kind : TokenKind) {c : Char} (h : isBlank c = true) :
    continues kind c = false := by
  refine not_continues kind (not_word_of_blank h) (not_digit_of_blank h) ?_
  rintro rfl
  cases h

/-- A word is spelled as it is. -/
theorem spelling_word {kind : TokenKind} (h : isWordKind kind = true) (text : String) :
    spelling kind text = text.toList := by
  have h_string : kind ≠ .string := by
    rintro rfl
    cases h
  exact if_neg h_string

/-- **What lexemes are made of:** symbols are spelled in one way, words and numbers are runs of a
class of characters, and in strings there is no quote. -/
private inductive MadeOf : TokenKind → String → Prop where
  | symbol {kind} (h : kind ∈ TokenKind.symbols) : MadeOf kind kind.describe
  | word {kind text} (h : isWordKind kind = true) (nonempty : text.toList ≠ [])
      (all : ∀ c ∈ text.toList, isWordCharacter c = true) : MadeOf kind text
  | number {text} (nonempty : text.toList ≠ []) (all : ∀ c ∈ text.toList, c.isDigit = true) :
      MadeOf .number text
  | string {text} (h : '"' ∉ text.toList) : MadeOf .string text

private theorem madeOf_of_fits {kind : TokenKind} {text : String} (h : Fits kind text) :
    MadeOf kind text := by
  cases kind
  case identifier => exact .word rfl h.1 h.2.1
  case declaration =>
    rcases h with rfl | rfl
    · exact .word rfl (by decide) (List.all_eq_true.1 (by decide))
    · exact .word rfl (by decide) (List.all_eq_true.1 (by decide))
  case print =>
    obtain rfl : text = "print" := h
    exact .word rfl (by decide) (List.all_eq_true.1 (by decide))
  case number => exact .number h.1 h.2
  case string => exact .string h
  case endOfInput => exact absurd h id
  all_goals
    -- the symbols are left
    obtain rfl : text = TokenKind.describe _ := h
    exact .symbol (by decide)

/-! ### Borders -/

/-- One symbol begins another only if an equals sign makes the one into the other. -/
private theorem symbol_begins {kind kind' : TokenKind} (h : kind ∈ TokenKind.symbols)
    (h' : kind' ∈ TokenKind.symbols) (begins : kind.describe.toList <+: kind'.describe.toList) :
    kind = kind' ∨ kind'.describe.toList = kind.describe.toList ++ ['='] ∧
      continues kind '=' = true := by
  have h_all : ∀ k ∈ TokenKind.symbols, ∀ k' ∈ TokenKind.symbols,
      k.describe.toList <+: k'.describe.toList →
        k = k' ∨ k'.describe.toList = k.describe.toList ++ ['='] ∧ continues k '=' = true := by
    -- there are few symbols, and each can be held against each
    decide +kernel
  exact h_all kind h kind' h' begins

/-- A symbol reaches over a border only with an equals sign. -/
private theorem symbol_border {kind kind' : TokenKind} (h : kind ∈ TokenKind.symbols)
    (h' : kind' ∈ TokenKind.symbols) {rest : List Char}
    (h_rest : ∀ c ∈ rest.head?, continues kind c = false) :
    symbol kind' (kind.describe.toList ++ rest) = symbol kind' kind.describe.toList := by
  have h_begins : kind'.describe.toList <+: kind.describe.toList ++ rest ↔
      kind'.describe.toList <+: kind.describe.toList := by
    constructor
    · intro h_long
      rcases List.prefix_or_prefix_of_prefix h_long (List.prefix_append _ rest) with
        h_short | h_over
      · exact h_short
      · rcases symbol_begins h h' h_over with rfl | ⟨h_equals, h_continues⟩
        · exact List.prefix_refl _
        · -- the equals sign would be the first character behind the border
          rw [h_equals, List.prefix_append_right_inj] at h_long
          obtain ⟨more, rfl⟩ := h_long
          rw [h_rest '=' rfl] at h_continues
          cases h_continues
    · intro h_short
      exact h_short.trans (List.prefix_append _ _)
  unfold symbol
  simp only [h_begins]

/-- What stands in front of the first character of a symbol is looked for among the symbols. -/
private theorem longest?_describe {kind : TokenKind} (h : kind ∈ TokenKind.symbols)
    (rest : List Char) :
    longest? recognisers (kind.describe.toList ++ rest) =
      longest? (TokenKind.symbols.map symbol) (kind.describe.toList ++ rest) := by
  cases h_spelling : kind.describe.toList with
  | nil => exact absurd h_spelling kind.describe_ne_nil
  | cons c cs =>
    have h_symbol : isSymbolCharacter c = true :=
      isSymbolCharacter_of_mem h c (h_spelling ▸ List.mem_cons_self)
    have h_quote : c ≠ '"' := by
      rintro rfl
      cases h_symbol
    exact longest?_symbol (not_word_of_symbol h_symbol) (not_digit_of_symbol h_symbol) h_quote

/-- **A lexeme ends** in front of a character that does not go on with it: it is found there as if
nothing stood behind it. -/
theorem longest?_border {kind : TokenKind} {text : String} (h : Fits kind text)
    {rest : List Char} (h_rest : ∀ c ∈ rest.head?, continues kind c = false) :
    longest? recognisers (spelling kind text ++ rest) =
      longest? recognisers (spelling kind text) := by
  cases madeOf_of_fits h with
  | symbol h_symbol =>
    have h_alone := longest?_describe h_symbol []
    rw [List.append_nil] at h_alone
    rw [spelling_symbol h_symbol, longest?_describe h_symbol, h_alone]
    -- the same symbols are found, whatever stands behind the border
    refine longest?_congr fun r h_r => ?_
    obtain ⟨kind', h_kind', rfl⟩ := List.mem_map.1 h_r
    exact symbol_border h_symbol h_kind' h_rest
  | word h_word nonempty all =>
    have h_end : ∀ c ∈ rest.head?, isWordCharacter c = false := by
      intro c h_c
      rw [← h_rest c h_c, continues, if_pos h_word]
    rw [spelling_word h_word]
    cases h_text : text.toList with
    | nil => exact absurd h_text nonempty
    | cons c w =>
      have h_c : isWordCharacter c = true := all c (h_text ▸ List.mem_cons_self)
      rw [List.cons_append, longest?_word h_c, longest?_word h_c, ← List.cons_append]
      exact runOf_border (c :: w) h_end
  | number nonempty all =>
    show longest? recognisers (text.toList ++ rest) = longest? recognisers text.toList
    cases h_text : text.toList with
    | nil => exact absurd h_text nonempty
    | cons c w =>
      have h_c : c.isDigit = true := all c (h_text ▸ List.mem_cons_self)
      rw [List.cons_append, longest?_number h_c, longest?_number h_c, ← List.cons_append]
      exact runOf_border (c :: w) h_rest
  | string h_quote =>
    -- the closing quote ends it, whatever comes behind
    obtain ⟨m, h_m, h_label, h_length⟩ := string_quoted h_quote []
    obtain ⟨m', h_m', h_label', h_length'⟩ := string_quoted h_quote rest
    show longest? recognisers ('"' :: (text.toList ++ ['"']) ++ rest) =
      longest? recognisers ('"' :: (text.toList ++ ['"']))
    rw [List.cons_append, longest?_string, longest?_string, h_m, List.append_assoc]
    refine h_m'.trans (congrArg some (Found.ext ?_ ?_))
    · rw [h_label', h_label]
    · rw [h_length', h_length]

/-- **A spelled text is found again** in front of any character that does not go on with it. -/
theorem longest?_spelling {kind : TokenKind} {text : String} (h : Fits kind text)
    {rest : List Char} (h_rest : ∀ c ∈ rest.head?, continues kind c = false) :
    ∃ m, longest? recognisers (spelling kind text ++ rest) = some m ∧ m.label = kind ∧
      m.length = (spelling kind text).length := by
  rw [longest?_border h h_rest]
  exact longest?_spelling_self h

/-! ### Kinds that merge -/

/-- **Kinds that merge:** of two lexemes of these kinds next to each other the first one might go on
into the second. -/
def Merges (kind kind' : TokenKind) : Prop :=
  isWordKind kind = true ∧ isWordKind kind' = true ∨ kind = .number ∧ kind' = .number ∨
    kind ∈ [.equal, .less, .greater] ∧ kind' ∈ [.equal, .equalEqual]

instance (kind kind' : TokenKind) : Decidable (Merges kind kind') :=
  inferInstanceAs (Decidable (_ ∨ _ ∨ _))

/-- The class of characters that a lexeme begins with. -/
private inductive Begins : TokenKind → Char → Prop where
  | word {kind c} (h : isWordKind kind = true) (h_c : isWordCharacter c = true) : Begins kind c
  | number {c} (h_c : c.isDigit = true) : Begins .number c
  | string : Begins .string '"'
  | symbol {kind c} (h : kind ∈ TokenKind.symbols) (h_c : kind.describe.toList.head? = some c) :
      Begins kind c

private theorem begins_of_fits {kind : TokenKind} {text : String} (h : Fits kind text) {c : Char}
    (h_c : c ∈ (spelling kind text).head?) : Begins kind c := by
  cases madeOf_of_fits h with
  | symbol h_symbol =>
    rw [spelling_symbol h_symbol] at h_c
    exact .symbol h_symbol h_c
  | word h_word nonempty all =>
    rw [spelling_word h_word] at h_c
    exact .word h_word (all c (List.mem_of_mem_head? h_c))
  | number nonempty all =>
    have h_head : c ∈ text.toList.head? := h_c
    exact .number (all c (List.mem_of_mem_head? h_head))
  | string h_quote =>
    obtain rfl : '"' = c := Option.some.inj h_c
    exact .string

private theorem continues_cases {kind : TokenKind} {c : Char} (h : continues kind c = true) :
    isWordKind kind = true ∧ isWordCharacter c = true ∨ kind = .number ∧ c.isDigit = true ∨
      kind ∈ [.equal, .less, .greater] ∧ c = '=' := by
  unfold continues at h
  split at h
  · next h_word => exact .inl ⟨h_word, h⟩
  · split at h
    · next h_number => exact .inr (.inl ⟨h_number, h⟩)
    · split at h
      · next h_symbol => exact .inr (.inr ⟨h_symbol, of_decide_eq_true h⟩)
      · cases h

/-- The texts of words are runs of word characters. -/
private theorem word_of_fits {kind : TokenKind} {text : String} (h : Fits kind text)
    (h_word : isWordKind kind = true) :
    text.toList ≠ [] ∧ ∀ c ∈ text.toList, isWordCharacter c = true := by
  cases madeOf_of_fits h with
  | word _ nonempty all => exact ⟨nonempty, all⟩
  | symbol h_symbol =>
    have h_symbols : ∀ k ∈ TokenKind.symbols, isWordKind k = false := by decide
    rw [h_symbols kind h_symbol] at h_word
    cases h_word
  | number _ _ => cases h_word
  | string _ => cases h_word

/-- **No lexeme but a string has a hash sign or a quote in it.** -/
theorem plain_of_fits {kind : TokenKind} {text : String} (h : Fits kind text)
    (h_string : kind ≠ .string) : ∀ c ∈ text.toList, c ≠ '#' ∧ c ≠ '"' := by
  have h_hash : isWordCharacter '#' = false :=
    not_word_of_ascii (by decide) (by decide) (by decide)
  have h_quote : isWordCharacter '"' = false :=
    not_word_of_ascii (by decide) (by decide) (by decide)
  intro c h_c
  constructor
  · rintro rfl
    cases madeOf_of_fits h with
    | symbol h_symbol => cases isSymbolCharacter_of_mem h_symbol _ h_c
    | word _ _ all => exact Bool.eq_false_iff.1 h_hash (all _ h_c)
    | number _ all => cases all _ h_c
    | string _ => exact h_string rfl
  · rintro rfl
    cases madeOf_of_fits h with
    | symbol h_symbol => cases isSymbolCharacter_of_mem h_symbol _ h_c
    | word _ _ all => exact Bool.eq_false_iff.1 h_quote (all _ h_c)
    | number _ all => cases all _ h_c
    | string _ => exact h_string rfl

/-- **What goes on with a lexeme makes a longer lexeme of it,** though perhaps one of another
kind. -/
theorem exists_fits_of_continues {kind : TokenKind} {text : String} (h : Fits kind text) {c : Char}
    (h_continues : continues kind c = true) :
    ∃ kind' text', Fits kind' text' ∧ spelling kind' text' = spelling kind text ++ [c] := by
  rcases continues_cases h_continues with ⟨h_word, h_c⟩ | ⟨rfl, h_c⟩ | ⟨h_symbol, rfl⟩
  · -- a longer word, which may have become a keyword or no longer be one
    obtain ⟨h_nil, h_all⟩ := word_of_fits h h_word
    have h_longer : ∀ d ∈ text.toList ++ [c], isWordCharacter d = true :=
      List.forall_mem_append.2 ⟨h_all, List.forall_mem_singleton.2 h_c⟩
    obtain ⟨h_string, h_fits⟩ := fits_wordKind (List.concat_ne_nil c text.toList) h_longer
    refine ⟨_, _, h_fits, ?_⟩
    rw [spelling, if_neg h_string, String.toList_ofList, spelling_word h_word]
  · -- a longer number
    refine ⟨.number, String.ofList (text.toList ++ [c]), ?_, String.toList_ofList⟩
    rw [Fits, String.toList_ofList]
    exact ⟨List.concat_ne_nil c text.toList,
      List.forall_mem_append.2 ⟨h.2, List.forall_mem_singleton.2 h_c⟩⟩
  · -- one of the three symbols that an equals sign makes into another
    simp only [List.mem_cons, List.not_mem_nil, or_false] at h_symbol
    rcases h_symbol with rfl | rfl | rfl
    · obtain rfl : text = "=" := h
      exact ⟨.equalEqual, "==", rfl, by decide⟩
    · obtain rfl : text = "<" := h
      exact ⟨.lessEqual, "<=", rfl, by decide⟩
    · obtain rfl : text = ">" := h
      exact ⟨.greaterEqual, ">=", rfl, by decide⟩

/-- **Only kinds that merge go on into each other,** since the classes of characters that lexemes
begin with do not overlap. -/
theorem merges_of_continues {kind kind' : TokenKind} {text : String} (h : Fits kind' text)
    {c : Char} (h_c : c ∈ (spelling kind' text).head?) (h_continues : continues kind c = true) :
    Merges kind kind' := by
  have h_equals : isWordCharacter '=' = false := not_word_of_symbol rfl
  have h_quote : isWordCharacter '"' = false :=
    not_word_of_ascii (by decide) (by decide) (by decide)
  rcases begins_of_fits h h_c with ⟨h_kind', h_word⟩ | h_digit | _ | ⟨h_symbol, h_head⟩
  · rcases continues_cases h_continues with ⟨h_kind, -⟩ | ⟨-, h_digit⟩ | ⟨-, rfl⟩
    · exact .inl ⟨h_kind, h_kind'⟩
    · rw [not_word_of_digit h_digit] at h_word
      cases h_word
    · rw [h_equals] at h_word
      cases h_word
  · rcases continues_cases h_continues with ⟨-, h_word⟩ | ⟨h_kind, -⟩ | ⟨-, rfl⟩
    · rw [not_word_of_digit h_digit] at h_word
      cases h_word
    · exact .inr (.inl ⟨h_kind, rfl⟩)
    · cases h_digit
  · rcases continues_cases h_continues with ⟨-, h_word⟩ | ⟨-, h_digit⟩ | ⟨-, h_equal⟩
    · rw [h_quote] at h_word
      cases h_word
    · cases h_digit
    · cases h_equal
  · have h_character : isSymbolCharacter c = true :=
      isSymbolCharacter_of_mem h_symbol c (List.mem_of_mem_head? h_head)
    rcases continues_cases h_continues with ⟨-, h_word⟩ | ⟨-, h_digit⟩ | ⟨h_kind, rfl⟩
    · rw [not_word_of_symbol h_character] at h_word
      cases h_word
    · rw [not_symbol_of_digit h_digit] at h_character
      cases h_character
    · -- two symbols begin with an equals sign
      have h_two : ∀ k ∈ TokenKind.symbols, k.describe.toList.head? = some '=' →
          k ∈ [TokenKind.equal, .equalEqual] := by decide
      exact .inr (.inr ⟨h_kind, h_two kind' h_symbol h_head⟩)

end Lexeme

end ScriptLang
