import ScriptLang.Grammar.Parser
import ScriptLang.Proofs.Grammar.Lookahead

/-!
# Laws of readers

The parsers are built from a few elementary readers: by sequencing, by two loops, by naming the
production and by choices that the next token makes. So whatever property of readers the elementary
ones have, and these ways of building keep, all parsers have. What a choice does where there is no
token to make it does not matter, as long as it makes up none.

* `primaryRead_of_head`, `operation_of_head`, `statementRead_of_head`, `programStatement_of_head` —
  the choices.
* `ReaderLaw` — a property of readers, with what has to be shown of the elementary ones.
* `ReaderLaw.expression`, `ReaderLaw.program` — the parsers have the property, by induction on the
  levels of nesting.
-/

namespace ScriptLang

namespace Grammar

open Reader

/-! ### The first token decides -/

/-- An expression in parentheses, with both of them. -/
def inParentheses (nested : Parser Expr) : Reader Expr := do
  expect .leftParen
  let e ← nested.read
  expect .rightParen
  return e

/-- **What a primary expression is shows in its first token:** there is none or it cannot begin one,
it is one all by itself, or it is an opening parenthesis. -/
theorem primaryRead_of_head (nested : Parser Expr) (ts : List Token) :
    (∃ cause, cause ≠ .expected .endOfInput ∧ SameAt ts (primaryRead nested) (fail cause)) ∨
      (∃ kind e, kind ≠ .endOfInput ∧
        SameAt ts (primaryRead nested) (do expect kind; return e)) ∨
      SameAt ts (primaryRead nested) (inParentheses nested) := by
  cases ts with
  | nil => exact .inl ⟨.unexpected .endOfInput, by simp, sameAt_nil rfl⟩
  | cons t ts =>
    cases h_kind : t.kind
    case identifier =>
      refine .inr (.inl ⟨.identifier, .identifier t.text, by simp, sameAt_cons (fun ts => ?_) ts⟩)
      rw [expect_bind h_kind]
      simp only [primaryRead, h_kind]
      rfl
    case string =>
      refine .inr (.inl ⟨.string, .literal (.string t.text), by simp,
        sameAt_cons (fun ts => ?_) ts⟩)
      rw [expect_bind h_kind]
      simp only [primaryRead, h_kind]
      rfl
    case number =>
      cases h_value : Numeral.int64? t.text with
      | none =>
        refine .inl ⟨.numberOutOfRange t.text, by simp, sameAt_cons (fun ts => ?_) ts⟩
        simp only [primaryRead, h_kind, h_value]
      | some value =>
        refine .inr (.inl ⟨.number, .literal (.number value), by simp,
          sameAt_cons (fun ts => ?_) ts⟩)
        rw [expect_bind h_kind]
        simp only [primaryRead, h_kind, h_value]
        rfl
    case leftParen =>
      refine .inr (.inr (sameAt_cons (fun ts => ?_) ts))
      rw [inParentheses, expect_bind h_kind]
      simp only [primaryRead, h_kind]
    all_goals
      refine .inl ⟨.unexpected t.kind, by simp, sameAt_cons (fun ts => ?_) ts⟩
      simp only [primaryRead, h_kind]

/-- **What an operation is shows in its first token.** -/
theorem operation_of_head (nested : Parser Expr) (ts : List Token) :
    SameAt ts (operation nested).read (object nested).read ∨
      SameAt ts (operation nested).read (comparison nested).read := by
  by_cases h_brace : ts.head?.map Token.kind = some .leftBrace
  · refine .inl fun ts' h_head => ?_
    simp only [operation, h_head, if_pos h_brace]
  · refine .inr fun ts' h_head => ?_
    simp only [operation, h_head, if_neg h_brace]

/-- **What a statement is shows in its first token.** -/
theorem statementRead_of_head (nested : Parser Expr) (ts : List Token) :
    (∃ constant, SameAt ts (statementRead nested)
        (do expect .declaration; declaration nested constant)) ∨
      SameAt ts (statementRead nested) (do expect .print; printStatement nested) ∨
      SameAt ts (statementRead nested) (expressionStatement nested) := by
  cases ts with
  | nil => exact .inr (.inr (sameAt_nil rfl))
  | cons t ts =>
    by_cases h_declaration : t.kind = .declaration
    · refine .inl ⟨t.text = "const", sameAt_cons (fun ts => ?_) ts⟩
      rw [expect_bind h_declaration, statementRead, if_pos h_declaration]
    · by_cases h_print : t.kind = .print
      · refine .inr (.inl (sameAt_cons (fun ts => ?_) ts))
        rw [expect_bind h_print, statementRead, if_neg h_declaration, if_pos h_print]
      · refine .inr (.inr (sameAt_cons (fun ts => ?_) ts))
        rw [statementRead, if_neg h_declaration, if_neg h_print]

/-- A statement of a program is a statement, unless there is nothing left. -/
theorem programStatement_of_head (nested : Parser Expr) (ts : List Token) :
    SameAt ts (programStatement nested).read (fail (.expected .endOfInput)) ∨
      SameAt ts (programStatement nested).read (statement nested).read := by
  cases ts with
  | nil => exact .inl (sameAt_nil rfl)
  | cons t ts =>
    refine .inr (sameAt_cons (fun ts => ?_) ts)
    rw [programStatement]

end Grammar

/-! ### Laws -/

/-- **A law of readers:** a property that the elementary readers have and that building parsers
keeps. No parser asks for an end of input, or goes on over one. -/
structure ReaderLaw where
  Holds : ∀ {α : Type}, Reader α → Prop
  pure : ∀ {α : Type} (a : α), Holds (pure a : Reader α)
  fail : ∀ {α : Type} {cause : ParseError.Cause}, cause ≠ .expected .endOfInput →
    Holds (Reader.fail cause : Reader α)
  expect : ∀ {kind : TokenKind}, kind ≠ .endOfInput → Holds (Reader.expect kind)
  accept : ∀ {kind : TokenKind}, kind ≠ .endOfInput → Holds (Reader.accept kind)
  identifier : Holds Reader.identifier
  within : ∀ {α : Type} {r : Reader α}, Holds r → ∀ p, Holds (r.within p)
  bind : ∀ {α β : Type} {r : Reader α} {f : α → Reader β},
    Holds r → (∀ a, Holds (f a)) → Holds (r >>= f)
  chain : ∀ {α ω : Type} {operator : TokenKind → Option (α → ω → α)} {operand : Parser ω},
    operator .endOfInput = none → Holds operand.read →
      ∀ left, Holds (Reader.chain operator operand left)
  itemsBefore : ∀ {α : Type} {item : Parser α}, Holds item.read →
    ∀ stop, Holds (Reader.itemsBefore stop item)
  /-- What the next token chooses. -/
  of_head : ∀ {α : Type} {r : Reader α}, r.Keeps →
    (∀ t ts, ∃ r' : Reader α, Holds r' ∧ Reader.SameAt (t :: ts) r r') → Holds r

namespace ReaderLaw

variable (law : ReaderLaw)

private theorem members (base : Expr) : law.Holds (Grammar.members base) :=
  law.chain rfl law.identifier base

private theorem operands {operator : TokenKind → Option (Expr → Expr → Expr)}
    {operand : Parser Expr} (h_operator : operator .endOfInput = none)
    (h : law.Holds operand.read) : law.Holds (Grammar.operands operator operand) :=
  law.bind h fun first => law.chain h_operator h first

section Level

variable {nested : Parser Expr} (h : law.Holds nested.read)

include h

private theorem inParentheses : law.Holds (Grammar.inParentheses nested) :=
  law.bind (law.expect (by decide)) fun _ => law.bind h fun _ =>
    law.bind (law.expect (by decide)) fun _ => law.pure _

theorem primary : law.Holds (Grammar.primary nested).read := by
  refine law.within (law.of_head (Grammar.shortens_primaryRead nested).keeps fun t ts => ?_) _
  rcases Grammar.primaryRead_of_head nested (t :: ts) with
    ⟨cause, h_cause, h_same⟩ | ⟨kind, e, h_kind, h_same⟩ | h_same
  · exact ⟨_, law.fail h_cause, h_same⟩
  · exact ⟨_, law.bind (law.expect h_kind) fun _ => law.pure e, h_same⟩
  · exact ⟨_, law.inParentheses h, h_same⟩

theorem member : law.Holds (Grammar.member nested).read :=
  law.within (law.bind (law.primary h) law.members) _

theorem factor : law.Holds (Grammar.factor nested).read :=
  law.within (law.operands rfl (law.member h)) _

theorem term : law.Holds (Grammar.term nested).read :=
  law.within (law.operands rfl (law.factor h)) _

theorem comparison : law.Holds (Grammar.comparison nested).read :=
  law.within (law.operands rfl (law.term h)) _

theorem property : law.Holds (Grammar.property nested).read :=
  law.bind law.identifier fun _ => law.bind (law.expect (by decide)) fun _ => law.bind h fun _ =>
    law.bind (law.expect (by decide)) fun _ => law.pure _

theorem object : law.Holds (Grammar.object nested).read :=
  law.within (law.bind (law.expect (by decide)) fun _ =>
    law.bind (law.itemsBefore (law.property h) _) fun _ =>
      law.bind (law.expect (by decide)) fun _ => law.members _) _

theorem operation : law.Holds (Grammar.operation nested).read := by
  refine law.of_head (Grammar.operation nested).shortens.keeps fun t ts => ?_
  rcases Grammar.operation_of_head nested (t :: ts) with h_same | h_same
  · exact ⟨_, law.object h, h_same⟩
  · exact ⟨_, law.comparison h, h_same⟩

theorem assignment : law.Holds (Grammar.assignment nested).read := by
  refine law.within (law.bind (law.operation h) fun target =>
    law.bind (law.accept (by decide)) fun b => ?_) _
  cases b with
  | true => exact law.bind h fun _ => law.pure _
  | false => exact law.pure _

private theorem declaration (constant : Bool) :
    law.Holds (Grammar.declaration nested constant) := by
  refine law.within (law.bind law.identifier fun name =>
    law.bind (law.accept (by decide)) fun b => ?_) _
  cases b with
  | true => exact law.bind h fun _ => law.pure _
  | false =>
    cases constant with
    | true => exact law.fail (by simp)
    | false => exact law.pure _

private theorem printStatement : law.Holds (Grammar.printStatement nested) :=
  law.within (law.bind (law.expect (by decide)) fun _ => law.bind h fun _ =>
    law.bind (law.expect (by decide)) fun _ => law.pure _) _

theorem statementRead : law.Holds (Grammar.statementRead nested) := by
  refine law.of_head (Grammar.keeps_statementRead nested) fun t ts => ?_
  rcases Grammar.statementRead_of_head nested (t :: ts) with ⟨constant, h_same⟩ | h_same | h_same
  · exact ⟨_, law.bind (law.expect (by decide)) fun _ => law.declaration h constant, h_same⟩
  · exact ⟨_, law.bind (law.expect (by decide)) fun _ => law.printStatement h, h_same⟩
  · exact ⟨_, law.bind h fun _ => law.pure _, h_same⟩

theorem programStatement : law.Holds (Grammar.programStatement nested).read := by
  refine law.of_head (Grammar.programStatement nested).shortens.keeps fun t ts => ?_
  have h_statement : law.Holds (Grammar.statement nested).read :=
    law.within (law.bind (law.statementRead h) fun _ => law.bind (law.expect (by decide)) fun _ =>
      law.pure _) _
  -- there is a token, so a statement has to be read
  refine ⟨_, h_statement, Reader.sameAt_cons (fun ts => ?_) ts⟩
  rw [Grammar.programStatement]

end Level

/-- **Expressions obey the law,** by induction on the levels of nesting. -/
theorem expression (n : Nat) : law.Holds (Grammar.expression n).read := by
  induction n with
  | zero => exact law.within (law.fail (by simp)) _
  | succ n ih => exact law.within (law.assignment ih) _

/-- **Programs obey the law.** -/
theorem program (n : Nat) : law.Holds (Grammar.program (Grammar.expression n)) :=
  law.within (law.itemsBefore (law.programStatement (law.expression n)) _) _

end ReaderLaw

end ScriptLang
