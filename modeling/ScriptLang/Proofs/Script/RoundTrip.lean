import ScriptLang.Proofs.Grammar.Depth
import ScriptLang.Proofs.Grammar.Infix
import ScriptLang.Proofs.Script.Reading

/-!
# Which programs have a script

The programs that scripts spell are those whose names and literals can be spelled and whose infix
form nests expressions no deeper than the parser reads. Each of them is spelled by its infix form.
The infix form of a program that nests deeper is refused for its depth, and since no other way to
write the program nests less deeply, no script spells it.

* `readProgram_unparse` — the infix form is read back.
* `readProgram_unparse_tooDeep` — the infix form that nests too deeply is refused for that.
* `wellSpelled_of_readProgram` — whatever is read can be spelled and does not nest too deeply.
* `readProgram_unparse_and_converse` — the three together.
-/

namespace ScriptLang

open Grammar

/-- The infix form says its words. -/
private theorem wording_unparse {p : Program} (h : Program.WellSpelled p) :
    wording (Program.unparse p).toList = ⟨Program.words p, true⟩ :=
  wording_words (Program.fits_words h)

/-- **The infix form is read back.** -/
theorem readProgram_unparse {p : Program} (h : Program.WellSpelled p)
    (h_levels : Program.levels p ≤ maxNesting) : readProgram (Program.unparse p) = .ok p := by
  refine readProgram_eq_ok.2 ⟨(Program.words p).map Word.token, ?_, derivesProgram_words h h_levels⟩
  rw [map_word_token]
  exact wording_unparse h

/-- **The infix form that nests too deeply** is refused for that. With levels enough it would be
read, so with the levels there are it is read as well, which no derivation allows, or it is refused
for its depth. -/
private theorem readProgram_unparse_tooDeep {p : Program} (h : Program.WellSpelled p)
    (h_levels : maxNesting < Program.levels p) :
    ∃ e, readProgram (Program.unparse p) = .error (.grammatical e) ∧ e.cause = .tooDeep := by
  have h_wording := wording_unparse h
  obtain ⟨last, h_last, h_read⟩ := readProgram_of_complete (congrArg Wording.complete h_wording)
  rw [h_read, parse]
  -- the tokens of the script differ from those of the infix form in their positions only
  generalize h_tokens : (divide (Program.unparse p).toList).tokens = tokens
  have h_words : tokens.map Token.word = ((Program.words p).map Word.token).map Token.word := by
    rw [map_word_token, ← h_tokens]
    exact congrArg Wording.words h_wording
  have h_derives : DerivesProgram (Program.levels p) tokens p :=
    (derivesProgram_words h (Nat.le_refl _)).of_words h_words
  have h_deep : program (expression (Program.levels p)) (tokens ++ [last]) = .ok (p, [last]) :=
    program_of_derives h_derives h_last
  rcases below_program (Nat.le_of_lt h_levels) (tokens ++ [last]) with
    h_same | ⟨e, h_error, h_cause⟩
  · obtain ⟨body, -, -, -, -, h_body⟩ := program_eq_ok_iff.1 ⟨[last], h_same.trans h_deep⟩
    have h_le := h_body.levels_le (by decide)
    omega
  · refine ⟨e, ?_, h_cause⟩
    rw [h_error]
    rfl

/-- **Whatever is read** can be spelled and does not nest too deeply. -/
theorem wellSpelled_of_readProgram {source : String} {p : Program}
    (h : readProgram source = .ok p) :
    Program.WellSpelled p ∧ Program.levels p ≤ maxNesting := by
  obtain ⟨body, h_wording, h_body⟩ := readProgram_eq_ok.1 h
  have h_fit : AllFit body := by
    intro t h_t
    have h_word : t.word ∈ (wording source.toList).words := by
      rw [h_wording]
      exact List.mem_map_of_mem h_t
    exact fits_of_mem_wording source.toList t.word h_word
  exact ⟨h_body.wellSpelled h_fit, h_body.levels_le (by decide)⟩

/-- **Which programs scripts spell.** A program whose names and literals can be spelled is read back
from its infix form if that nests at most `maxNesting` expressions inside one another, and otherwise
its infix form is refused for its depth. Conversely, whatever program any script spells can be
spelled and nests no more expressions in its infix form. -/
theorem readProgram_unparse_and_converse :
    (∀ p : Program, Program.WellSpelled p →
      (Program.levels p ≤ maxNesting → readProgram (Program.unparse p) = .ok p) ∧
      (maxNesting < Program.levels p → ∃ e,
        readProgram (Program.unparse p) = .error (.grammatical e) ∧ e.cause = .tooDeep)) ∧
    (∀ (source : String) (p : Program), readProgram source = .ok p →
      Program.WellSpelled p ∧ Program.levels p ≤ maxNesting) := by
  refine ⟨fun p h => ⟨readProgram_unparse h, readProgram_unparse_tooDeep h⟩, ?_⟩
  intro source p h
  exact wellSpelled_of_readProgram h

/-- Object literals, so many inside one another. -/
private def nestedObjects : Nat → Expr
  | 0 => .identifier "x"
  | n + 1 => .object [("a", nestedObjects n)]

private theorem isName_x : Lexeme.IsName "x" := by decide

private theorem isName_a : Lexeme.IsName "a" := by decide

private theorem wellSpelled_nestedObjects (n : Nat) : (nestedObjects n).WellSpelled := by
  induction n with
  | zero => exact .identifier isName_x
  | succ n ih =>
    exact .object (List.forall_mem_singleton.2 isName_a) (List.forall_mem_singleton.2 ih)

private theorem levels_nestedObjects (n : Nat) : (nestedObjects n).levels 0 = n + 1 := by
  induction n with
  | zero => rfl
  | succ n ih =>
    rw [nestedObjects, Expr.levels, Expr.propertyLevels, Expr.propertyLevels, ih, Nat.max_zero]
    rfl

/-- A sum as a factor keeps its parentheses, and object literals that are nested once too often are
refused. -/
theorem readProgram_unparse_and_converse_of_sum :
    (readProgram "x . a = ( 1 + 2 ) * x ;" = .ok [.expression (.assign
        (.member (.identifier "x") "a") (.binary .times
          (.binary .plus (.literal (.number 1)) (.literal (.number 2))) (.identifier "x")))]) ∧
      (Program.levels [.expression (.assign (.member (.identifier "x") "a") (.binary .times
        (.binary .plus (.literal (.number 1)) (.literal (.number 2))) (.identifier "x")))] ≤ 128) ∧
      ∃ e, readProgram (Program.unparse [.expression (nestedObjects 128)]) =
        .error (.grammatical e) ∧ e.cause = .tooDeep := by
  obtain ⟨h_unparse, h_converse⟩ := readProgram_unparse_and_converse
  have h_spelled : Program.WellSpelled [.expression (.assign (.member (.identifier "x") "a")
      (.binary .times (.binary .plus (.literal (.number 1)) (.literal (.number 2)))
        (.identifier "x")))] := by
    refine List.forall_mem_singleton.2 (.assign (.member (.identifier isName_x) isName_a) ?_)
    have h_one : (Literal.number 1).WellSpelled := show (0 : Int64) ≤ 1 by decide
    have h_two : (Literal.number 2).WellSpelled := show (0 : Int64) ≤ 2 by decide
    exact .binary (.binary (.literal h_one) (.literal h_two)) (.identifier isName_x)
  have h_read := (h_unparse _ h_spelled).1 (by decide)
  refine ⟨?_, (h_converse _ _ h_read).2, ?_⟩
  · -- the script is the infix form, letter by letter
    rw [← h_read]
    exact congrArg readProgram (by decide +kernel)
  · have h_nested : Program.WellSpelled [.expression (nestedObjects 128)] :=
      List.forall_mem_singleton.2 (show Stmt.WellSpelled (.expression _) from
        wellSpelled_nestedObjects 128)
    refine (h_unparse _ h_nested).2 ?_
    show maxNesting < max ((nestedObjects 128).levels 0) 0
    rw [levels_nestedObjects]
    decide

end ScriptLang
