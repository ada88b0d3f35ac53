import ScriptLang.Proofs.Grammar.Acceptance
import ScriptLang.Proofs.Token.Wording
import ScriptLang.Script

/-!
# Which script spells which program

From characters to programs in one step: a script is read by its wording and the grammar, and the
positions of its tokens, its blanks and its comments have no part in it.

* `readProgram_of_complete` — unless something in a script is left open, it is read by the tokens of
  its division and an end of input, which is nowhere else among them.
* `exists_tokens_of_grammatical` — where the error is one of form, there are such tokens, and it is
  their error.
* `readProgram_eq_ok` — a script spells a program exactly if nothing in it is left open and its
  words derive the program.
-/

namespace ScriptLang

open Grammar

/-- No word of a text is an end of input. -/
private theorem kind_ne_endOfInput {source : String} {t : Token}
    (h : t ∈ (divide source.toList).tokens) : t.kind ≠ .endOfInput := by
  -- no text is of the class of that kind
  have h_fits := fits_of_mem_wording source.toList t.word (List.mem_map_of_mem h)
  intro h_kind
  rw [show t.word.kind = .endOfInput from h_kind] at h_fits
  exact h_fits

/-- **A script in which nothing is left open** is read by its tokens and an end of input. -/
theorem readProgram_of_complete {source : String}
    (h : (wording source.toList).complete = true) :
    ∃ last : Token, last.kind = .endOfInput ∧ readProgram source =
      (parse ((divide source.toList).tokens ++ [last])).mapError .grammatical := by
  cases h_ending : (divide source.toList).ending with
  | unclosedQuote p =>
    rw [wording, Division.wording, h_ending] at h
    cases h
  | complete p =>
    refine ⟨.endOfInput p, rfl, ?_⟩
    simp only [readProgram, tokenize, Division.last, h_ending]
    rfl

/-- A script in which something is left open has no tokens. -/
private theorem tokenize_of_incomplete {source : String}
    (h : (wording source.toList).complete = false) : ∃ e, tokenize source = .error e := by
  cases h_ending : (divide source.toList).ending with
  | complete p =>
    rw [wording, Division.wording, h_ending] at h
    cases h
  | unclosedQuote p =>
    refine ⟨.unterminatedString (.point p), ?_⟩
    simp only [tokenize, Division.last, h_ending]
    rfl

/-- A script that is refused by the grammar has tokens, only the last of which is an end of input. -/
theorem exists_tokens_of_grammatical {source : String} {e : ParseError}
    (h : readProgram source = .error (.grammatical e)) :
    ∃ (ts : List Token) (last : Token), tokenize source = .ok (ts ++ [last]) ∧
      (∀ t ∈ ts, t.kind ≠ .endOfInput) ∧ last.kind = .endOfInput ∧
      parse (ts ++ [last]) = .error e := by
  cases h_ending : (divide source.toList).ending with
  | unclosedQuote p =>
    have h_tokens : tokenize source = .error (.unterminatedString (.point p)) := by
      simp only [tokenize, Division.last, h_ending]
      rfl
    rw [readProgram, h_tokens] at h
    cases h
  | complete p =>
    have h_tokens : tokenize source =
        .ok ((divide source.toList).tokens ++ [.endOfInput p]) := by
      simp only [tokenize, Division.last, h_ending]
      rfl
    refine ⟨_, .endOfInput p, h_tokens, fun t => kind_ne_endOfInput, rfl, ?_⟩
    rw [readProgram, h_tokens] at h
    change (parse _).mapError ScriptError.grammatical = _ at h
    cases h_parse : parse ((divide source.toList).tokens ++ [.endOfInput p]) with
    | ok program => rw [h_parse] at h; cases h
    | error e' => rw [h_parse] at h; cases h; rfl

/-- Tokens without an end of input, in front of one, are what stands before the first one. -/
private theorem eq_of_append_endOfInput {ts body tail : List Token} {last stop : Token}
    (h : ∀ t ∈ ts, t.kind ≠ .endOfInput) (h_stop : stop.kind = .endOfInput)
    (h_eq : ts ++ [last] = body ++ stop :: tail) : ts = body := by
  -- one of the two stretches begins the other, and what it lacks is empty
  rcases List.append_eq_append_iff.1 h_eq with ⟨as, h_body, h_last⟩ | ⟨bs, h_ts, h_tail⟩
  · cases as with
    | nil => rw [h_body, List.append_nil]
    | cons a as => simp at h_last
  · cases bs with
    | nil => rw [h_ts, List.append_nil]
    | cons b bs =>
      -- the stop would be one of the tokens
      have h_b : b = stop := by simpa using (List.cons_eq_cons.1 h_tail).1.symm
      exact absurd h_stop (h stop (by rw [h_ts, h_b]; simp))

/-- **A script spells a program** if and only if nothing in it is left open and its words derive the
program. -/
theorem readProgram_eq_ok {source : String} {p : Program} :
    readProgram source = .ok p ↔ ∃ body : List Token,
      wording source.toList = ⟨body.map Token.word, true⟩ ∧ DerivesProgram maxNesting body p := by
  cases h_complete : (wording source.toList).complete with
  | false =>
    obtain ⟨e, h_error⟩ := tokenize_of_incomplete h_complete
    constructor
    · intro h
      rw [readProgram, h_error] at h
      cases h
    · rintro ⟨body, h_wording, -⟩
      rw [h_wording] at h_complete
      cases h_complete
  | true =>
    obtain ⟨last, h_last, h_read⟩ := readProgram_of_complete h_complete
    have h_parse : readProgram source = .ok p ↔
        parse ((divide source.toList).tokens ++ [last]) = .ok p := by
      rw [h_read]
      generalize parse ((divide source.toList).tokens ++ [last]) = r
      cases r with
      | ok p' =>
        constructor
        · rintro ⟨⟩
          rfl
        · rintro ⟨⟩
          rfl
      | error e => constructor <;> rintro ⟨⟩
    rw [h_parse, parse_eq_ok]
    constructor
    · rintro ⟨body, stop, tail, h_eq, h_stop, h_body⟩
      obtain rfl := eq_of_append_endOfInput (fun t => kind_ne_endOfInput) h_stop h_eq
      refine ⟨_, ?_, h_body⟩
      rw [← h_complete]
      rfl
    · -- the tokens of the script have the words of `body`, whatever their positions
      rintro ⟨body, h_wording, h_body⟩
      refine ⟨(divide source.toList).tokens, last, [], rfl, h_last, h_body.of_words ?_⟩
      exact congrArg Wording.words h_wording

end ScriptLang
