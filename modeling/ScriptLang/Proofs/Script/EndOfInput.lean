import ScriptLang.Proofs.Grammar.EndOfInput
import ScriptLang.Proofs.Script.Reading

/-!
# Nothing is read past the end of input

Every script has an end of input behind its tokens, and lists of tokens are read up to the first
one. So tokens never run out: where a list is refused, there is a token that it is refused at, and
it is the end of input at the latest.

* `parse_stops_at_end` — of lists of tokens, and of scripts.
-/

namespace ScriptLang

open Grammar Reader

/-- In front of its first end of input a list of tokens is a program, or it is refused at one of
these tokens or at the end, whatever stands behind. -/
private theorem parse_of_endless {body : List Token} {stop : Token} (h : Endless body)
    (h_stop : stop.kind = .endOfInput) :
    (∃ p, ∀ tail, parse (body ++ stop :: tail) = .ok p) ∨
      ∃ e : ParseError, e.cause ≠ .expected .endOfInput ∧ (∃ t ∈ body ++ [stop], e.found = some t) ∧
        ∀ tail, parse (body ++ stop :: tail) = .error e := by
  cases confined_program maxNesting h h_stop with
  | takes p w rest _ h_read =>
    refine .inl ⟨p, fun tail => ?_⟩
    rw [parse, h_read tail]
    rfl
  | fails e h_cause h_found h_read =>
    exact .inr ⟨e, h_cause, h_found, fun tail => parse_eq_error.2 (h_read tail)⟩

/-- **Nothing is read past the end of input.** What a list of tokens is read as, or how it is
refused, does not depend on what stands behind its first end of input, and the error carries a token
that is not behind it either. So does every error of form of a script, one of its tokens with its
place. An end of input is never missed: where the readers have nothing left to look at, which is
when they would miss it, they fail without a token. -/
theorem parse_stops_at_end :
    (∀ (body : List Token) (stop : Token), (∀ t ∈ body, t.kind ≠ .endOfInput) →
      stop.kind = .endOfInput →
        (∀ tail tail', parse (body ++ stop :: tail) = parse (body ++ stop :: tail')) ∧
        ∀ tail e, parse (body ++ stop :: tail) = .error e →
          e.cause ≠ .expected .endOfInput ∧ ∃ t ∈ body ++ [stop], e.found = some t) ∧
    (∀ source e, readProgram source = .error (.grammatical e) →
      e.cause ≠ .expected .endOfInput ∧
        ∃ ts, tokenize source = .ok ts ∧ ∃ t ∈ ts, e.found = some t) ∧
    ∀ (nested : Parser Expr) (kind : TokenKind),
      (programStatement nested).read [] = .error ⟨.expected .endOfInput, [], none⟩ ∧
      primaryRead nested [] = .error ⟨.unexpected .endOfInput, [], none⟩ ∧
      expect kind [] = .error ⟨.expected kind, [], none⟩ ∧
      identifier [] = .error ⟨.expectedIdentifier, [], none⟩ := by
  have h_tokens : ∀ (body : List Token) (stop : Token), Endless body → stop.kind = .endOfInput →
      ∀ tail e, parse (body ++ stop :: tail) = .error e →
        e.cause ≠ .expected .endOfInput ∧ ∃ t ∈ body ++ [stop], e.found = some t := by
    intro body stop h h_stop tail e h_error
    rcases parse_of_endless h h_stop with ⟨p, h_ok⟩ | ⟨e', h_cause, h_found, h_error'⟩
    · cases (h_ok tail).symm.trans h_error
    · cases (h_error' tail).symm.trans h_error
      exact ⟨h_cause, h_found⟩
  refine ⟨fun body stop h h_stop => ⟨fun tail tail' => ?_, h_tokens body stop h h_stop⟩, ?_,
    fun _ _ => ⟨rfl, rfl, rfl, rfl⟩⟩
  · rcases parse_of_endless h h_stop with ⟨p, h_ok⟩ | ⟨e, -, -, h_error⟩
    · rw [h_ok tail, h_ok tail']
    · rw [h_error tail, h_error tail']
  · intro source e h
    obtain ⟨ts, last, h_source, h_ts, h_last, h_parse⟩ := exists_tokens_of_grammatical h
    obtain ⟨h_cause, h_found⟩ := h_tokens ts last h_ts h_last [] e h_parse
    exact ⟨h_cause, ts ++ [last], h_source, h_found⟩

/-- The digit one, at the start of a script. -/
private def digitOne : Token := ⟨.number, "1", .covering .start ['1']⟩

/-- The end of input behind it. -/
private def endBehindOne : Token := .endOfInput (Position.start.advance ['1'])

/-- What that end is refused with, since a semicolon is missing. -/
private def missingSemicolon : ParseError where
  cause := .expected .semicolon
  path := [.program, .statement]
  found := some endBehindOne

/-- A number that no semicolon follows. One behind the end of input does not help it, and the end
itself is not missed. -/
theorem parse_stops_at_end_of_unfinished :
    ((∀ t ∈ [digitOne], t.kind ≠ .endOfInput) ∧ endBehindOne.kind = .endOfInput ∧
        parse ([digitOne] ++ [endBehindOne]) = .error missingSemicolon ∧
        parse ([digitOne] ++ endBehindOne :: [⟨.semicolon, ";", .point .start⟩]) =
          .error missingSemicolon ∧
        missingSemicolon.cause ≠ .expected .endOfInput ∧
        ∃ t ∈ [digitOne] ++ [endBehindOne], missingSemicolon.found = some t) ∧
      readProgram "1" = .error (.grammatical missingSemicolon) ∧
      ∃ ts, tokenize "1" = .ok ts ∧ ∃ t ∈ ts, missingSemicolon.found = some t := by
  have h_endless : ∀ t ∈ [digitOne], t.kind ≠ .endOfInput := by decide
  have h_parse : parse ([digitOne] ++ [endBehindOne]) = .error missingSemicolon :=
    eq_error_of_some (by decide +kernel)
  have h_tokens : tokenize "1" = .ok [digitOne, endBehindOne] :=
    eq_ok_of_toOption (by decide +kernel)
  have h_read : readProgram "1" = .error (.grammatical missingSemicolon) := by
    rw [readProgram, h_tokens]
    exact congrArg (Except.mapError _) h_parse
  obtain ⟨h_lists, h_scripts, -⟩ := parse_stops_at_end
  obtain ⟨h_same, h_found⟩ := h_lists [digitOne] endBehindOne h_endless rfl
  exact ⟨⟨h_endless, rfl, h_parse, (h_same _ []).trans h_parse, h_found [] _ h_parse⟩,
    h_read, (h_scripts "1" _ h_read).2⟩

end ScriptLang
