import ScriptLang.Proofs.Grammar.Derivation
import ScriptLang.Proofs.Grammar.ErrorPath
import ScriptLang.Proofs.Grammar.Numeral

/-!
# Number tokens

A number token is a primary expression if its text denotes an integer of 64 bits, and is refused
otherwise. It can stand nowhere else, so all the number tokens of a program have been read, and
where tokens are refused for a number, it is the one that the error is reported at.

* `Grammar.primary_number_eq_ok`, `Grammar.primary_number_eq_error` — how a number token is read.
* `Grammar.parse_number_of_none` — what tokens that begin with a number are refused for.
* `Grammar.DerivesProgram.numbersRead` — the number tokens of a program.
* `ParseError.namesNumber_of_parse` — errors that are about a number.
-/

namespace ScriptLang

namespace Grammar

open Numeral Reader

/-! ### A number token as an expression -/

section Primary

variable (nested : Parser Expr) {t : Token} (h : t.kind = .number) (ts : List Token)

include h

private theorem primary_number_of_some {n : Int64} (h_n : int64? t.text = some n) :
    (primary nested).read (t :: ts) = .ok (.literal (.number n), ts) := by
  simp only [primary, primaryRead, h, h_n, within]
  rfl

private theorem primary_number_of_none (h_none : int64? t.text = none) :
    (primary nested).read (t :: ts) =
      .error ⟨.numberOutOfRange t.text, [.primary], some t⟩ := by
  simp only [primary, primaryRead, h, h_none, within]
  rfl

/-- **A number token is read** as the 64-bit integer that its text denotes, and nothing else is
taken with it. -/
theorem primary_number_eq_ok {e : Expr} {rest : List Token} :
    (primary nested).read (t :: ts) = .ok (e, rest) ↔
      rest = ts ∧ ∃ n : Int64, e = .literal (.number n) ∧ Denotes t.text.toList n.toInt := by
  simp only [← int64?_eq_some]
  cases h_value : int64? t.text with
  | none =>
    rw [primary_number_of_none nested h ts h_value]
    constructor
    · rintro ⟨⟩
    · rintro ⟨-, n, -, ⟨⟩⟩
  | some n =>
    rw [primary_number_of_some nested h ts h_value]
    constructor
    · rintro ⟨⟩
      exact ⟨rfl, n, rfl, rfl⟩
    · rintro ⟨rfl, n', rfl, ⟨⟩⟩
      rfl

/-- **A number token is refused** if its text denotes no integer of 64 bits. -/
theorem primary_number_eq_error {e : ParseError} :
    (primary nested).read (t :: ts) = .error e ↔
      e = ⟨.numberOutOfRange t.text, [.primary], some t⟩ ∧
        ∀ i, Denotes t.text.toList i → i < -2 ^ 63 ∨ 2 ^ 63 - 1 < i := by
  rw [← int64?_eq_none]
  cases h_value : int64? t.text with
  | none =>
    rw [primary_number_of_none nested h ts h_value, Except.error.injEq, eq_comm]
    exact (and_iff_left rfl).symm
  | some n =>
    rw [primary_number_of_some nested h ts h_value]
    constructor
    · rintro ⟨⟩
    · rintro ⟨-, ⟨⟩⟩

end Primary

/-- The productions from an expression down to what stands first in it. -/
def primaryPath : List Production :=
  [.expression, .assignment, .comparison, .term, .factor, .member, .primary]

/-- Where an expression is asked for and a number token comes first, it is refused if it cannot be
read, before anything behind it is looked at. -/
private theorem expression_number_of_none {t : Token} (h : t.kind = .number) (ts : List Token)
    (n : Nat) (h_none : int64? t.text = none) :
    (expression (n + 1)).read (t :: ts) =
      .error ⟨.numberOutOfRange t.text, primaryPath, some t⟩ := by
  have h_brace : ¬(t :: ts).head?.map Token.kind = some .leftBrace := by
    rw [List.head?_cons, Option.map_some, h]
    decide
  -- every production down to the primary expression begins with the next one
  have h_primary := primary_number_of_none (expression n) h ts h_none
  have h_member : (member (expression n)).read (t :: ts) =
      .error ⟨_, [.member, .primary], _⟩ :=
    within_of_error (bind_of_error h_primary _) .member
  have h_factor : (factor (expression n)).read (t :: ts) =
      .error ⟨_, [.factor, .member, .primary], _⟩ :=
    within_of_error (bind_of_error h_member _) .factor
  have h_term : (term (expression n)).read (t :: ts) =
      .error ⟨_, [.term, .factor, .member, .primary], _⟩ :=
    within_of_error (bind_of_error h_factor _) .term
  have h_operation : (operation (expression n)).read (t :: ts) =
      .error ⟨_, [.comparison, .term, .factor, .member, .primary], _⟩ :=
    (if_neg h_brace).trans (within_of_error (bind_of_error h_term _) .comparison)
  exact within_of_error (within_of_error (bind_of_error h_operation _) .assignment) .expression

/-- **Tokens that begin with a number** are refused for it if it cannot be read. -/
theorem parse_number_of_none {t : Token} (h : t.kind = .number) (ts : List Token)
    (h_none : int64? t.text = none) :
    parse (t :: ts) =
      .error ⟨.numberOutOfRange t.text, .program :: .statement :: primaryPath, some t⟩ := by
  have h_end : ¬(t :: ts).head?.map Token.kind = some .endOfInput := by
    rw [List.head?_cons, Option.map_some, h]
    decide
  have h_expression : (expression maxNesting).read (t :: ts) = _ :=
    expression_number_of_none h ts (maxNesting - 1) h_none
  have h_read : statementRead (expression maxNesting) (t :: ts) =
      .error ⟨.numberOutOfRange t.text, primaryPath, some t⟩ := by
    rw [statementRead, if_neg (by rw [h]; decide), if_neg (by rw [h]; decide)]
    exact bind_of_error h_expression _
  have h_statement : (programStatement (expression maxNesting)).read (t :: ts) =
      .error ⟨.numberOutOfRange t.text, .statement :: primaryPath, some t⟩ :=
    within_of_error (bind_of_error h_read _) .statement
  exact parse_eq_error.2 (within_of_error (itemsBefore_error h_end h_statement) .program)

/-! ### The numbers of a program -/

/-- **All number tokens can be read.** -/
def NumbersRead (w : List Token) : Prop :=
  ∀ t ∈ w, t.kind = .number → ∃ n, int64? t.text = some n

namespace NumbersRead

theorem nil : NumbersRead [] := List.forall_mem_nil _

/-- A token of another kind makes no difference. -/
theorem cons {t : Token} {kind : TokenKind} {w : List Token} (h : NumbersRead w)
    (h_t : t.kind = kind) (h_kind : kind ≠ .number) : NumbersRead (t :: w) :=
  List.forall_mem_cons.2 ⟨fun h_number => absurd (h_t.symm.trans h_number) h_kind, h⟩

theorem singleton {t : Token} {kind : TokenKind} (h_t : t.kind = kind) (h_kind : kind ≠ .number) :
    NumbersRead [t] := nil.cons h_t h_kind

theorem append {u v : List Token} (h : NumbersRead u) (h' : NumbersRead v) :
    NumbersRead (u ++ v) :=
  List.forall_mem_append.2 ⟨h, h'⟩

/-- Tokens of the same words can be read alike. -/
theorem of_words {w w' : List Token} (h : NumbersRead w)
    (same : w'.map Token.word = w.map Token.word) : NumbersRead w' := by
  intro t h_t h_kind
  obtain ⟨t', h_t', h_word⟩ := List.mem_map.1 (same ▸ List.mem_map_of_mem h_t)
  have h_text : t'.text = t.text := congrArg Word.text h_word
  rw [← h_text]
  exact h t' h_t' ((congrArg Word.kind h_word).trans h_kind)

end NumbersRead

private theorem comparator_ne_number (c : Comparator) : c.kind ≠ .number := by
  cases c <;> decide

private theorem operator_ne_number (o : Operator) : o.kind ≠ .number := by
  cases o <;> decide

/-- **A number token is derived as the number that it is read as,** and no other phrase has one. -/
theorem Derives.numbersRead {phrase : Phrase} {n : Nat} {w : List Token} {e : Expr}
    (h : Derives phrase n w e) : NumbersRead w := by
  induction h with
  | expression _ ih | objectOperation _ ih | comparisonOperation _ ih | comparison _ ih
  | term _ ih | factor _ ih | member _ ih => exact ih
  | assign _ h_sign _ ih₁ ih₂ => exact ih₁.append (ih₂.cons h_sign (by decide))
  | compare c _ h_sign _ ih₁ ih₂ => exact ih₁.append (ih₂.cons h_sign (comparator_ne_number c))
  | sum o _ _ h_sign _ ih₁ ih₂ | product o _ _ h_sign _ ih₁ ih₂ =>
    exact ih₁.append (ih₂.cons h_sign (operator_ne_number o))
  | openBrace h_brace => exact .singleton h_brace (by decide)
  | property _ h_key h_colon _ h_comma ih₁ ih₂ =>
    have h_value := ih₂.append (.singleton h_comma (by decide))
    exact ih₁.append ((h_value.cons h_colon (by decide)).cons h_key (by decide))
  | closeBrace _ h_brace ih => exact ih.append (.singleton h_brace (by decide))
  | objectMember _ h_dot h_name ih | access _ h_dot h_name ih =>
    have h_member := NumbersRead.singleton h_name (by decide)
    exact ih.append (h_member.cons h_dot (by decide))
  | identifier h_name => exact .singleton h_name (by decide)
  | number _ h_value => exact List.forall_mem_singleton.2 fun _ => ⟨_, h_value⟩
  | string h_text => exact .singleton h_text (by decide)
  | parentheses h_opening _ h_closing ih =>
    exact (ih.append (.singleton h_closing (by decide))).cons h_opening (by decide)

theorem DerivesStatement.numbersRead {n : Nat} {w : List Token} {s : Stmt}
    (h : DerivesStatement n w s) : NumbersRead w := by
  cases h with
  | declare h_keyword h_name h_sign right h_semicolon =>
    have h_value := right.numbersRead.append (.singleton h_semicolon (by decide))
    exact ((h_value.cons h_sign (by decide)).cons h_name (by decide)).cons h_keyword (by decide)
  | declareNull h_keyword _ h_name h_semicolon =>
    have h_end := NumbersRead.singleton h_semicolon (by decide)
    exact (h_end.cons h_name (by decide)).cons h_keyword (by decide)
  | print h_keyword h_opening argument h_closing h_semicolon =>
    have h_end := NumbersRead.singleton h_semicolon (by decide)
    have h_value := argument.numbersRead.append (h_end.cons h_closing (by decide))
    exact (h_value.cons h_opening (by decide)).cons h_keyword (by decide)
  | expression whole h_semicolon =>
    exact whole.numbersRead.append (.singleton h_semicolon (by decide))

/-- **All number tokens of a program have been read.** -/
theorem DerivesProgram.numbersRead {n : Nat} {w : List Token} {p : Program}
    (h : DerivesProgram n w p) : NumbersRead w := by
  induction h with
  | nil => exact .nil
  | cons first _ ih => exact first.numbersRead.append ih

end Grammar

/-! ### Errors that are about a number -/

namespace ParseError

/-- **An error that is about a number names the token** that it is reported at. -/
def NamesNumber (e : ParseError) : Prop :=
  ∀ text, e.cause = .numberOutOfRange text →
    ∃ t, e.found = some t ∧ t.kind = .number ∧ t.text = text ∧ Numeral.int64? t.text = none

/-- Naming the token is a law of errors, since a path has no part in it. -/
private def namesNumberLaw : ErrorLaw where
  Holds _ _ e := e.NamesNumber
  here _ h_cause := fun text h_text => absurd h_text (h_cause.2 text)
  number := by
    rintro - t h_kind h_none text ⟨⟩
    exact ⟨t, rfl, h_kind, rfl, h_none⟩
  call _ _ h := h
  callExpression _ h := h
  callTooDeep _ := nofun

/-- **Whatever is refused for a number names it.** -/
theorem namesNumber_of_parse {ts : List Token} {e : ParseError} (h : parse ts = .error e) :
    e.NamesNumber := by
  obtain ⟨_, -, h_names⟩ := namesNumberLaw.program maxNesting (parse_eq_error.1 h)
  exact h_names

end ParseError

end ScriptLang
