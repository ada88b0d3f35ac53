import ScriptLang.Program.Printer
import ScriptLang.Proofs.Grammar.Earliest
import ScriptLang.Proofs.Grammar.Number
import ScriptLang.Proofs.Script.Rendering
import ScriptLang.Proofs.Token.Placement

/-!
# Numbers in scripts

In a script a number is written as digits, so what it denotes is their value, and it is read if that
is no more than the largest integer of 64 bits. One number that is larger and the script spells no
program.

* `isDigits_of_mem_tokens` — how the numbers of a script are written.
* `placeValue_le_of_readProgram` — none of them is too large in what is read.
* `exceeds_of_numberOutOfRange` — one of them is where a script is refused for it.
* `readProgram_digits` — digits as a whole script.
* `number_tokens_read_exactly` — number tokens, from a script or not.
-/

namespace ScriptLang

open Grammar Lexeme Numeral

section

variable {source : String} {tokens : List Token} (h_tokens : tokenize source = .ok tokens)

include h_tokens

/-- The tokens of a script are those of its division and an end of input. -/
private theorem mem_division_of_number {t : Token} (h_t : t ∈ tokens) (h_kind : t.kind = .number) :
    t ∈ (divide source.toList).tokens := by
  rw [tokenize_eq] at h_tokens
  split at h_tokens
  · cases h_tokens
    refine (List.mem_append.1 h_t).resolve_right fun h_end => ?_
    rw [List.mem_singleton.1 h_end] at h_kind
    cases h_kind
  · cases h_tokens

/-- **The numbers of a script are written as digits.** -/
theorem isDigits_of_mem_tokens {t : Token} (h_t : t ∈ tokens) (h_kind : t.kind = .number) :
    IsDigits t.text.toList := by
  have h_word : t.word ∈ (wording source.toList).words :=
    List.mem_map_of_mem (mem_division_of_number h_tokens h_t h_kind)
  have h_fits : Fits t.kind t.text := fits_of_mem_wording source.toList t.word h_word
  rw [h_kind] at h_fits
  exact h_fits

/-- A number of a script is refused if its value does not have 64 bits. -/
private theorem int64?_eq_none_of_mem_tokens {t : Token} (h_t : t ∈ tokens)
    (h_kind : t.kind = .number) :
    int64? t.text = none ↔ 2 ^ 63 - 1 < placeValue t.text.toList :=
  int64?_eq_none_of_digits (isDigits_of_mem_tokens h_tokens h_t h_kind)

/-- **No number of a script that is read is too large.** -/
theorem placeValue_le_of_readProgram {p : Program} (h : readProgram source = .ok p) {t : Token}
    (h_t : t ∈ tokens) (h_kind : t.kind = .number) :
    placeValue t.text.toList ≤ 2 ^ 63 - 1 := by
  obtain ⟨body, h_wording, h_body⟩ := readProgram_eq_ok.1 h
  have h_words : (divide source.toList).tokens.map Token.word = body.map Token.word :=
    congrArg Wording.words h_wording
  obtain ⟨n, h_n⟩ := h_body.numbersRead.of_words h_words t
    (mem_division_of_number h_tokens h_t h_kind) h_kind
  refine Nat.le_of_not_lt fun h_large => ?_
  cases h_n.symm.trans ((int64?_eq_none_of_mem_tokens h_tokens h_t h_kind).2 h_large)

/-- **A script that is refused for a number** has that number among its tokens, where the error is
reported, and it is too large. -/
theorem exceeds_of_numberOutOfRange {e : ParseError} {text : String}
    (h : readProgram source = .error (.grammatical e))
    (h_cause : e.cause = .numberOutOfRange text) :
    ∃ t ∈ tokens, e.found = some t ∧ t.kind = .number ∧ t.text = text ∧
      2 ^ 63 - 1 < placeValue t.text.toList := by
  obtain ⟨ts, last, h_source, -, -, h_parse⟩ := exists_tokens_of_grammatical h
  obtain rfl : tokens = ts ++ [last] := Except.ok.inj (h_tokens.symm.trans h_source)
  obtain ⟨t, h_found, h_kind, h_text, h_none⟩ :=
    ParseError.namesNumber_of_parse h_parse text h_cause
  -- what an error is reported at stands among the tokens that were read
  obtain ⟨pre, post, h_eq, h_head, -⟩ := early_program maxNesting (parse_eq_error.1 h_parse)
  have h_t : t ∈ ts ++ [last] := by
    rw [h_eq]
    exact List.mem_append_right pre (List.mem_of_mem_head? (h_head.symm.trans h_found))
  have h_large := (int64?_eq_none_of_mem_tokens h_tokens h_t h_kind).1 h_none
  exact ⟨t, h_t, h_found, h_kind, h_text, h_large⟩

end

/-! ### Digits as a script -/

/-- A literal and a semicolon are a program. -/
private theorem derivesProgram_number {n : Int64} {text : String} (h : int64? text = some n) :
    DerivesProgram maxNesting ([⟨.number, text⟩, Word.symbol .semicolon].map Word.token)
      [.expression (.literal (.number n))] := by
  have h_primary : Derives .primary 0 [Word.token ⟨.number, text⟩] (.literal (.number n)) :=
    .number rfl h
  have h_expression : Derives .expression 1 [Word.token ⟨.number, text⟩] (.literal (.number n)) :=
    .expression (.comparisonOperation (.comparison (.term (.factor (.member h_primary)))))
  exact .cons (.expression (h_expression.mono (by decide)) rfl) .nil

section

variable {ds : List Char} (h : IsDigits ds)

include h

/-- Digits and a semicolon say these two words. -/
private theorem wording_digits : wording (String.ofList (ds ++ [';'])).toList =
    ⟨[⟨.number, String.ofList ds⟩, Word.symbol .semicolon], true⟩ := by
  have h_fits : Fits .number (String.ofList ds) := by
    rw [← String.toList_ofList (l := ds)] at h
    exact h
  have h_border : IsBorder [';'] := isBorder_symbol rfl (by decide) []
  have h_spelling : spelling .number (String.ofList ds) = ds := String.toList_ofList
  rw [String.toList_ofList, ← h_spelling, wording_border h_fits h_border,
    wording_sign .semicolon ';' rfl (by decide) (by decide), wording_nil, h_spelling]
  rfl

private theorem int64?_digits {n : Int64} :
    int64? (String.ofList ds) = some n ↔ n.toInt = placeValue ds := by
  rw [int64?_eq_some, String.toList_ofList, denotes_digits h]

/-- **Digits and a semicolon** spell the number of that value, if there is one. -/
theorem readProgram_digits {p : Program} :
    readProgram (String.ofList (ds ++ [';'])) = .ok p ↔
      ∃ n : Int64, n.toInt = placeValue ds ∧ p = [.expression (.literal (.number n))] := by
  have h_read {n : Int64} (h_n : n.toInt = placeValue ds) :
      readProgram (String.ofList (ds ++ [';'])) = .ok [.expression (.literal (.number n))] := by
    refine readProgram_eq_ok.2 ⟨_, ?_, derivesProgram_number ((int64?_digits h).2 h_n)⟩
    rw [map_word_token]
    exact wording_digits h
  constructor
  · intro h_p
    obtain ⟨body, h_body, h_derives⟩ := readProgram_eq_ok.1 h_p
    -- the digits are one of the words that were read
    have h_words : ([⟨.number, String.ofList ds⟩, Word.symbol .semicolon].map Word.token).map
        Token.word = body.map Token.word := by
      rw [map_word_token]
      exact congrArg Wording.words ((wording_digits h).symm.trans h_body)
    obtain ⟨n, h_n⟩ := h_derives.numbersRead.of_words h_words _ List.mem_cons_self rfl
    have h_n := (int64?_digits h).1 h_n
    exact ⟨n, h_n, Except.ok.inj (h_p.symm.trans (h_read h_n))⟩
  · rintro ⟨n, h_n, rfl⟩
    exact h_read h_n

/-- Else they are refused for the number. -/
theorem readProgram_digits_of_large (h_large : 2 ^ 63 - 1 < placeValue ds) :
    ∃ e, readProgram (String.ofList (ds ++ [';'])) = .error (.grammatical e) ∧
      e.cause = .numberOutOfRange (String.ofList ds) := by
  have h_none : int64? (String.ofList ds) = none := by
    rw [← String.toList_ofList (l := ds)] at h h_large
    exact (int64?_eq_none_of_digits h).2 h_large
  obtain ⟨last, -, h_read⟩ := readProgram_of_complete (congrArg Wording.complete (wording_digits h))
  -- the token of the digits comes first
  obtain ⟨t, ts, h_tokens, h_t, -⟩ := List.map_eq_cons_iff.1
    (congrArg Wording.words (wording_digits h))
  have h_kind : t.kind = .number := congrArg Word.kind h_t
  have h_text : t.text = String.ofList ds := congrArg Word.text h_t
  rw [← h_text] at h_none ⊢
  rw [h_read, h_tokens, List.cons_append, parse_number_of_none h_kind _ h_none]
  exact ⟨_, rfl, rfl⟩

end

/-! ### Number tokens in general -/

/-- **Number tokens are read exactly,** whatever their text, be it one that a script has or not.

* A number token is read as the 64-bit integer that its text denotes, if it denotes one, and nothing
  behind the token is taken. Otherwise it is refused, at the token and with its text.
* The text by which a number is shown is read back as that number.
* The numbers of a script are written as digits, so they are refused if their value is too large and
  for nothing else. No program is read off a script that has one of these, and where a script is
  refused for a number, it is one of these that the error names and carries.
* Digits and a semicolon are a script that spells the number of that value if it is not too large,
  and that is refused for it if it is. -/
theorem number_tokens_read_exactly :
    (∀ (nested : Parser Expr) (t : Token) (ts : List Token), t.kind = .number →
      (∀ e rest, (primary nested).read (t :: ts) = .ok (e, rest) ↔
        rest = ts ∧ ∃ n : Int64, e = .literal (.number n) ∧ Denotes t.text.toList n.toInt) ∧
      ∀ e, (primary nested).read (t :: ts) = .error e ↔
        e = ⟨.numberOutOfRange t.text, [.primary], some t⟩ ∧
          ∀ i, Denotes t.text.toList i → i < -2 ^ 63 ∨ 2 ^ 63 - 1 < i) ∧
    (∀ (nested : Parser Expr) (n : Int64) (t : Token) (ts : List Token), t.kind = .number →
      t.text = (Literal.number n).render →
        (primary nested).read (t :: ts) = .ok (.literal (.number n), ts)) ∧
    (∀ source tokens, tokenize source = .ok tokens →
      (∀ t ∈ tokens, t.kind = .number → IsDigits t.text.toList ∧
        ∀ nested ts, (∃ e, (primary nested).read (t :: ts) = .error e) ↔
          2 ^ 63 - 1 < placeValue t.text.toList) ∧
      (∀ p, readProgram source = .ok p →
        ∀ t ∈ tokens, t.kind = .number → placeValue t.text.toList ≤ 2 ^ 63 - 1) ∧
      ∀ e text, readProgram source = .error (.grammatical e) →
        e.cause = .numberOutOfRange text →
          ∃ t ∈ tokens, e.found = some t ∧ t.kind = .number ∧ t.text = text ∧
            2 ^ 63 - 1 < placeValue t.text.toList) ∧
    ∀ ds, IsDigits ds →
      (∀ p, readProgram (String.ofList (ds ++ [';'])) = .ok p ↔
        ∃ n : Int64, n.toInt = placeValue ds ∧ p = [.expression (.literal (.number n))]) ∧
      (2 ^ 63 - 1 < placeValue ds →
        ∃ e, readProgram (String.ofList (ds ++ [';'])) = .error (.grammatical e) ∧
          e.cause = .numberOutOfRange (String.ofList ds)) := by
  refine ⟨fun nested t ts h => ⟨fun e rest => primary_number_eq_ok nested h ts,
    fun e => primary_number_eq_error nested h ts⟩, fun nested n t ts h h_text => ?_,
    fun source tokens h_tokens => ⟨fun t h_t h => ?_, ?_, ?_⟩,
    fun ds h => ⟨fun p => readProgram_digits h, readProgram_digits_of_large h⟩⟩
  · refine (primary_number_eq_ok nested h ts).2 ⟨rfl, n, rfl, ?_⟩
    rw [h_text]
    exact denotes_toString n.toInt
  · refine ⟨isDigits_of_mem_tokens h_tokens h_t h, fun nested ts => ?_⟩
    simp only [primary_number_eq_error nested h ts, exists_eq_left, ← int64?_eq_none]
    exact int64?_eq_none_of_mem_tokens h_tokens h_t h
  · intro p h t h_t h_kind
    exact placeValue_le_of_readProgram h_tokens h h_t h_kind
  · intro e text h h_cause
    exact exceeds_of_numberOutOfRange h_tokens h h_cause

/-- The least number, with zeros between its sign and its digits. -/
private def leastWithZeros : Token := ⟨.number, "-0009223372036854775808", .point .start⟩

/-- One more than the largest number. -/
private def tooLarge : Token :=
  ⟨.number, "9223372036854775808", .covering .start "9223372036854775808".toList⟩

/-- The tokens of the script in which it stands alone. -/
private def tooLargeTokens : List Token :=
  let stop := Position.start.advance "9223372036854775808".toList
  [tooLarge, ⟨.semicolon, ";", .covering stop [';']⟩, .endOfInput (stop.advance [';'])]

/-- The least number can be given with zeros in front, and is read back from what it is shown as.
The largest one is read off a script, and the next one is refused, there and at its token. -/
theorem number_tokens_read_exactly_of_limits :
    (leastWithZeros.kind = .number ∧ (primary (expression maxNesting)).read [leastWithZeros] =
        .ok (.literal (.number Int64.minValue), [])) ∧
      (primary (expression maxNesting)).read
          [⟨.number, (Literal.number Int64.minValue).render, .point .start⟩] =
        .ok (.literal (.number Int64.minValue), []) ∧
      (tokenize "9223372036854775808;" = .ok tooLargeTokens ∧
        (∃ e, (primary (expression maxNesting)).read [tooLarge] = .error e) ∧
        ∃ e, readProgram "9223372036854775808;" = .error (.grammatical e) ∧
          e.cause = .numberOutOfRange "9223372036854775808" ∧
          ∃ t ∈ tooLargeTokens, e.found = some t ∧ t.text = "9223372036854775808") ∧
      readProgram "9223372036854775807;" =
        .ok [.expression (.literal (.number Int64.maxValue))] := by
  obtain ⟨h_token, h_shown, h_script, h_digits⟩ := number_tokens_read_exactly
  have h_tokens : tokenize "9223372036854775808;" = .ok tooLargeTokens :=
    eq_ok_of_toOption (by decide +kernel)
  obtain ⟨h_numbers, -, h_refused⟩ := h_script _ _ h_tokens
  have h_least : Denotes leastWithZeros.text.toList Int64.minValue.toInt :=
    int64?_eq_some.1 (by decide +kernel)
  have h_digits_large : IsDigits "9223372036854775808".toList := by decide +kernel
  have h_large : 2 ^ 63 - 1 < placeValue "9223372036854775808".toList := by decide +kernel
  have h_digits_largest : IsDigits "9223372036854775807".toList := by decide +kernel
  have h_largest : Int64.maxValue.toInt = placeValue "9223372036854775807".toList := by
    decide +kernel
  refine ⟨⟨rfl, ((h_token _ _ _ rfl).1 _ _).2 ⟨rfl, _, rfl, h_least⟩⟩, h_shown _ _ _ _ rfl rfl,
    ⟨h_tokens, ?_, ?_⟩, ?_⟩
  · exact ((h_numbers tooLarge List.mem_cons_self rfl).2 _ _).2 h_large
  · obtain ⟨e, h_e, h_cause⟩ := (h_digits _ h_digits_large).2 h_large
    obtain ⟨t, h_t, h_found, -, h_text, -⟩ := h_refused e _ h_e h_cause
    exact ⟨e, h_e, h_cause, t, h_t, h_found, h_text⟩
  · exact ((h_digits _ h_digits_largest).1 _).2 ⟨Int64.maxValue, h_largest, rfl⟩

end ScriptLang
