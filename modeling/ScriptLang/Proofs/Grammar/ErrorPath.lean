import Mathlib.Data.List.Chain
import ScriptLang.Grammar.Parser
import ScriptLang.Proofs.Grammar.Readers

/-!
# The paths of errors

An error names the productions that were being read when it arose. A production puts its name in
front of the errors of what it reads and of nothing else, so what has been read to its end leaves no
trace: each production of a path was called by the one in front of it, and the last one is that in
which the error arose. The path also shows how deeply expressions were nested, since each of them is
read by the production that counts them.

* `Production.Calls`, `ParseError.Cause.places` — which production reads which others, and in which
  ones a cause can arise.
* `ParseError.Cause.ArisesBelow` — a path that such calls lead along to such a place.
* `ErrorIn` — an error inside a production with so many levels of nesting left.
* `Reader.FailsWith` — a reader all of whose errors have a property, closed under sequencing and
  both loops.
* `ErrorLaw` — a property of errors, with what has to be shown of the places where they arise and of
  the calls that they are passed through.
* `ErrorLaw.expression`, `ErrorLaw.program` — the errors of the parsers have the property, by
  induction on the levels.
* `parse_error_path` — the path of an error of form.
-/

namespace ScriptLang

/-! ### Which paths there can be -/

/-- The productions that a production calls, from the inside of its own. -/
def Production.callees : Production → List Production
  | program => [statement]
  | statement => [declaration, printStatement, expression]
  | declaration | printStatement | object | primary => [expression]
  | expression => [assignment]
  | assignment => [object, comparison, expression]
  | comparison => [term]
  | term => [factor]
  | factor => [member]
  | member => [primary]

/-- **One production can call another.** -/
def Production.Calls (p q : Production) : Prop := q ∈ p.callees

instance : DecidableRel Production.Calls := fun p q => inferInstanceAs (Decidable (q ∈ p.callees))

namespace ParseError.Cause

/-- **The productions in which a cause can arise.** No other kinds of tokens are ever expected. -/
def places : Cause → List Production
  | expected .endOfInput => [.program]
  | expected .semicolon => [.statement]
  | expected .leftParen => [.printStatement]
  | expected .rightParen => [.printStatement, .primary]
  | expected .colon | expected .comma => [.object]
  | expected _ => []
  | unexpected _ | numberOutOfRange _ => [.primary]
  | expectedIdentifier => [.declaration, .object, .member]
  | missingConstInitializer _ => [.declaration]
  | tooDeep => [.expression]

/-- **A cause arises inside a production:** in its own place, or below a production that it calls.
The list is the path from there on. -/
inductive ArisesBelow (c : Cause) : Production → List Production → Prop
  | here {p : Production} (h : p ∈ c.places) : ArisesBelow c p []
  | call {p q : Production} {path : List Production} (h : p.Calls q)
    (below : ArisesBelow c q path) : ArisesBelow c p (q :: path)

/-- The whole path is one of calls, and its last production is a place of the cause. -/
theorem ArisesBelow.isChain {c : Cause} {p : Production} {path : List Production}
    (h : c.ArisesBelow p path) :
    (p :: path).IsChain Production.Calls ∧ ∃ q, (p :: path).getLast? = some q ∧ q ∈ c.places := by
  induction h with
  | here h => exact ⟨List.isChain_singleton _, _, rfl, h⟩
  | call h below ih =>
    obtain ⟨h_chain, q, h_last, h_place⟩ := ih
    refine ⟨List.isChain_cons_cons.2 ⟨h, h_chain⟩, q, ?_, h_place⟩
    rw [List.getLast?_cons_cons]
    exact h_last

end ParseError.Cause

/-- **An error inside a production,** the path being that of the productions below, where so many
expressions may be nested. It is refused for its depth where one expression more is nested. -/
structure ErrorIn (levels : Nat) (p : Production) (e : ParseError) : Prop where
  arises : e.cause.ArisesBelow p e.path
  nesting : e.cause = .tooDeep ∧ e.path.count .expression = levels + 1 ∨
    e.cause ≠ .tooDeep ∧ e.path.count .expression ≤ levels

namespace ErrorIn

variable {levels : Nat} {p q : Production} {e : ParseError}

/-- An error of the production itself. -/
theorem here {c : ParseError.Cause} {found : Option Token} (h : p ∈ c.places)
    (h_cause : c ≠ .tooDeep) : ErrorIn levels p ⟨c, [], found⟩ :=
  ⟨.here h, .inr ⟨h_cause, Nat.zero_le _⟩⟩

/-- An error of a production that this one calls. -/
theorem call (h_calls : p.Calls q) (h_expression : q ≠ .expression) (h : ErrorIn levels q e) :
    ErrorIn levels p { e with path := q :: e.path } := by
  refine ⟨.call h_calls h.arises, ?_⟩
  show _ ∧ (q :: e.path).count .expression = _ ∨ _ ∧ (q :: e.path).count .expression ≤ _
  rw [List.count_cons_of_ne h_expression]
  exact h.nesting

/-- An error of an expression that this production calls, on a level of its own. -/
theorem callExpression (h_calls : p.Calls .expression) (h : ErrorIn levels .expression e) :
    ErrorIn (levels + 1) p { e with path := .expression :: e.path } := by
  refine ⟨.call h_calls h.arises, ?_⟩
  show _ ∧ (_ :: e.path).count .expression = _ ∨ _ ∧ (_ :: e.path).count .expression ≤ _
  rw [List.count_cons_self]
  exact h.nesting.imp (fun ⟨h_cause, h_count⟩ => ⟨h_cause, congrArg (· + 1) h_count⟩)
    fun ⟨h_cause, h_count⟩ => ⟨h_cause, Nat.succ_le_succ h_count⟩

/-- An expression for which there is no level left. -/
theorem callTooDeep {found : Option Token} (h_calls : p.Calls .expression) :
    ErrorIn 0 p ⟨.tooDeep, [.expression], found⟩ :=
  ⟨.call h_calls (.here (List.mem_singleton_self _)), .inl ⟨rfl, rfl⟩⟩

end ErrorIn

/-! ### Readers and their errors -/

namespace Reader

variable {α β ω : Type} {E : ParseError → Prop}

/-- **All errors of a reader have a property.** -/
def FailsWith (r : Reader α) (E : ParseError → Prop) : Prop := ∀ ⦃ts e⦄, r ts = .error e → E e

theorem failsWith_pure (a : α) : (pure a : Reader α).FailsWith E := by
  rintro ts e ⟨⟩

theorem failsWith_fail {c : ParseError.Cause} (h : ∀ found, E ⟨c, [], found⟩) :
    (fail c : Reader α).FailsWith E := by
  rintro ts e ⟨⟩
  exact h _

theorem failsWith_accept (kind : TokenKind) : (accept kind).FailsWith E := by
  intro ts e h
  cases ts with
  | nil => cases h
  | cons t ts =>
    rw [accept] at h
    split at h <;> cases h

theorem failsWith_expect {kind : TokenKind} (h : ∀ found, E ⟨.expected kind, [], found⟩) :
    (expect kind).FailsWith E := by
  intro ts e h_error
  cases ts with
  | nil =>
    cases h_error
    exact h _
  | cons t ts =>
    rw [expect] at h_error
    split at h_error <;> cases h_error
    exact h _

theorem failsWith_identifier (h : ∀ found, E ⟨.expectedIdentifier, [], found⟩) :
    identifier.FailsWith E := by
  intro ts e h_error
  cases ts with
  | nil =>
    cases h_error
    exact h _
  | cons t ts =>
    rw [identifier] at h_error
    split at h_error <;> cases h_error
    exact h _

/-- Inside a production the errors get its name in front. -/
theorem FailsWith.within {r : Reader α} {F : ParseError → Prop} {p : Production}
    (h : r.FailsWith E) (h_path : ∀ e, E e → F { e with path := p :: e.path }) :
    (r.within p).FailsWith F := by
  intro ts e h_error
  unfold Reader.within at h_error
  cases h_read : r ts with
  | ok result => rw [h_read] at h_error; cases h_error
  | error e' =>
    rw [h_read] at h_error
    cases h_error
    exact h_path e' (h h_read)

/-- One reader after another, the second of which may count on what the first has read. -/
theorem FailsWith.bind_of_ok {r : Reader α} {f : α → Reader β} (h : r.FailsWith E)
    (h_f : ∀ {ts a rest e}, r ts = .ok (a, rest) → f a rest = .error e → E e) :
    (r >>= f).FailsWith E := by
  intro ts e h_error
  cases h_read : r ts with
  | error e' =>
    rw [bind_of_error h_read] at h_error
    cases h_error
    exact h h_read
  | ok result =>
    rw [Reader.bind_of_ok h_read] at h_error
    exact h_f h_read h_error

theorem FailsWith.bind {r : Reader α} {f : α → Reader β} (h : r.FailsWith E)
    (h_f : ∀ a, (f a).FailsWith E) : (r >>= f).FailsWith E :=
  h.bind_of_ok fun _ h_error => h_f _ h_error

/-- A chain has no errors but those of its operands. -/
theorem FailsWith.chain {operator : TokenKind → Option (α → ω → α)} {operand : Parser ω}
    (h : operand.read.FailsWith E) (left : α) : FailsWith (chain operator operand left) E := by
  intro ts
  fun_induction Reader.chain operator operand left ts with
  | case1 => rintro e ⟨⟩
  | case2 => rintro e ⟨⟩
  | case3 left t rest combine h_some e read =>
    rintro e' ⟨⟩
    exact h read
  | case4 left t rest combine h_some right mid read ih => exact ih

/-- A row has no errors but those of its items. -/
theorem FailsWith.itemsBefore {stop : TokenKind} {item : Parser α} (h : item.read.FailsWith E) :
    FailsWith (itemsBefore stop item) E := by
  intro ts
  fun_induction Reader.itemsBefore stop item ts with
  | case1 => rintro e ⟨⟩
  | case2 ts h_next e read =>
    rintro e' ⟨⟩
    exact h read
  | case3 ts h_next a mid read ih =>
    -- the item has been read, so the error is one of the rest of the row
    intro e h_error
    cases h_rest : Reader.itemsBefore stop item mid with
    | ok r => rw [h_rest] at h_error; cases h_error
    | error e' =>
      rw [h_rest] at h_error
      cases h_error
      exact ih h_rest

end Reader

/-! ### The parsers -/

/-- **A law of errors:** a property of the errors inside a production with so many levels of nesting
left, which those have that arise there, and which naming a production keeps when they are passed on
to the one that has called it. -/
structure ErrorLaw where
  Holds : Nat → Production → ParseError → Prop
  /-- An error of the production itself. -/
  here : ∀ {levels p c found}, p ∈ c.places →
    c ≠ .tooDeep ∧ (∀ text, c ≠ .numberOutOfRange text) → Holds levels p ⟨c, [], found⟩
  /-- A number that is refused, which is the token that the error is reported at. -/
  number : ∀ {levels} {t : Token}, t.kind = .number → Numeral.int64? t.text = none →
    Holds levels .primary ⟨.numberOutOfRange t.text, [], some t⟩
  /-- An error of a production that this one calls. -/
  call : ∀ {levels p q e}, p.Calls q → q ≠ .expression → Holds levels q e →
    Holds levels p { e with path := q :: e.path }
  /-- An error of an expression that this production calls, on a level of its own. -/
  callExpression : ∀ {levels p e}, p.Calls .expression → Holds levels .expression e →
    Holds (levels + 1) p { e with path := .expression :: e.path }
  /-- An expression for which there is no level left. -/
  callTooDeep : ∀ {p found}, p.Calls .expression → Holds 0 p ⟨.tooDeep, [.expression], found⟩

namespace ErrorLaw

open Reader Grammar ParseError

variable (law : ErrorLaw) {levels : Nat} {p : Production}

private theorem expect {kind : TokenKind} (h : p ∈ (Cause.expected kind).places) :
    (Reader.expect kind).FailsWith (law.Holds levels p) :=
  failsWith_expect fun _ => law.here h (by simp)

private theorem identifier (h : p ∈ Cause.expectedIdentifier.places) :
    Reader.identifier.FailsWith (law.Holds levels p) :=
  failsWith_identifier fun _ => law.here h (by simp)

private theorem members (base : Expr) (h : p ∈ Cause.expectedIdentifier.places) :
    (Grammar.members base).FailsWith (law.Holds levels p) :=
  FailsWith.chain (law.identifier h) base

omit law in
private theorem operands {E : ParseError → Prop}
    {operator : TokenKind → Option (Expr → Expr → Expr)} {operand : Parser Expr}
    (h : operand.read.FailsWith E) : (Grammar.operands operator operand).FailsWith E :=
  h.bind fun first => FailsWith.chain h first

/-- A production below another one, unless it is that of expressions. -/
private theorem within {α : Type} {r : Reader α} {q : Production} (h_calls : p.Calls q)
    (h_expression : q ≠ .expression) (h : r.FailsWith (law.Holds levels q)) :
    (r.within q).FailsWith (law.Holds levels p) :=
  h.within fun _ h_e => law.call h_calls h_expression h_e

/-- An object literal behind its opening brace. -/
private def objectRest (nested : Parser Expr) : Reader Expr := do
  let properties ← itemsBefore .rightBrace (Grammar.property nested)
  Reader.expect .rightBrace
  Grammar.members (.object properties)

/-- The opening brace of an object literal is there, if that is what the literal is known by. -/
private theorem read_object_cons {nested : Parser Expr} {t : Token} (h_t : t.kind = .leftBrace)
    (ts : List Token) :
    (Grammar.object nested).read (t :: ts) = Reader.within .object (objectRest nested) ts := by
  show ((do Reader.expect .leftBrace; objectRest nested : Reader Expr) (t :: ts)).mapError _ = _
  rw [expect_bind h_t]
  rfl

section Level

variable {nested : Parser Expr}
  (h : ∀ p : Production, p.Calls .expression → nested.read.FailsWith (law.Holds levels p))

include h

private theorem primaryRead :
    (Grammar.primaryRead nested).FailsWith (law.Holds levels .primary) := by
  have h_inner : (do
      let e ← nested.read; Reader.expect .rightParen; return e : Reader Expr).FailsWith
      (law.Holds levels .primary) :=
    (h .primary (by decide)).bind fun _ => (law.expect (by decide)).bind fun _ =>
      failsWith_pure _
  intro ts e h_error
  cases ts with
  | nil =>
    cases h_error
    exact law.here (List.mem_singleton_self _) (by simp)
  | cons t ts =>
    -- only a number, an opening parenthesis and what begins nothing can be refused
    simp only [Grammar.primaryRead] at h_error
    split at h_error
    · cases h_error
    · cases h_error
    · next h_kind =>
        split at h_error
        · cases h_error
        · next h_none =>
          cases h_error
          exact law.number h_kind h_none
    · exact h_inner h_error
    · cases h_error
      exact law.here (List.mem_singleton_self _) (by simp)

private theorem comparison :
    (Grammar.comparison nested).read.FailsWith (law.Holds levels .assignment) := by
  have h_primary : (Grammar.primary nested).read.FailsWith (law.Holds levels .member) :=
    law.within (by decide) (by decide) (law.primaryRead h)
  have h_member : (Grammar.member nested).read.FailsWith (law.Holds levels .factor) :=
    law.within (by decide) (by decide)
      (h_primary.bind fun base => law.members base (by decide))
  have h_factor : (Grammar.factor nested).read.FailsWith (law.Holds levels .term) :=
    law.within (by decide) (by decide) (operands h_member)
  have h_term : (Grammar.term nested).read.FailsWith (law.Holds levels .comparison) :=
    law.within (by decide) (by decide) (operands h_factor)
  exact law.within (by decide) (by decide) (operands h_term)

private theorem property :
    (Grammar.property nested).read.FailsWith (law.Holds levels .object) :=
  (law.identifier (by decide)).bind fun _ => (law.expect (by decide)).bind fun _ =>
    (h .object (by decide)).bind fun _ => (law.expect (by decide)).bind fun _ => failsWith_pure _

/-- The closing brace is not missed either, since it is what ends the properties. -/
private theorem objectRest_failsWith :
    (objectRest nested).FailsWith (law.Holds levels .object) := by
  refine (FailsWith.itemsBefore (law.property h)).bind_of_ok fun h_properties h_error => ?_
  obtain ⟨closing, tail, rfl, h_closing⟩ := itemsBefore_head h_properties
  rw [expect_bind h_closing] at h_error
  exact law.members _ (by decide) h_error

private theorem operation :
    (Grammar.operation nested).read.FailsWith (law.Holds levels .assignment) := by
  intro ts e h_error
  simp only [Grammar.operation] at h_error
  split at h_error
  · next h_head =>
      -- the brace that an object literal is known by is the one that it takes
      obtain ⟨opening, h_t, h_opening⟩ := Option.map_eq_some_iff.1 h_head
      obtain ⟨tail, rfl⟩ := List.head?_eq_some_iff.1 h_t
      have h_object :
          ((objectRest nested).within .object).FailsWith (law.Holds levels .assignment) :=
        law.within (by decide) (by decide) (law.objectRest_failsWith h)
      rw [read_object_cons h_opening] at h_error
      exact h_object h_error
  · exact law.comparison h h_error

private theorem assignment :
    (Grammar.assignment nested).read.FailsWith (law.Holds levels .expression) := by
  refine law.within (by decide) (by decide) ((law.operation h).bind fun target =>
    (failsWith_accept _).bind fun b => ?_)
  cases b with
  | true => exact (h .assignment (by decide)).bind fun _ => failsWith_pure _
  | false => exact failsWith_pure _

private theorem declaration (constant : Bool) :
    (Grammar.declaration nested constant).FailsWith (law.Holds levels .statement) := by
  refine law.within (by decide) (by decide)
    ((law.identifier (by decide)).bind fun name => (failsWith_accept _).bind fun b => ?_)
  cases b with
  | true => exact (h .declaration (by decide)).bind fun _ => failsWith_pure _
  | false =>
    cases constant with
    | true => exact failsWith_fail fun _ => law.here (List.mem_singleton_self _) (by simp)
    | false => exact failsWith_pure _

private theorem printStatement :
    (Grammar.printStatement nested).FailsWith (law.Holds levels .statement) :=
  law.within (by decide) (by decide)
    ((law.expect (by decide)).bind fun _ => (h .printStatement (by decide)).bind fun _ =>
      (law.expect (by decide)).bind fun _ => failsWith_pure _)

private theorem statement :
    (Grammar.statement nested).read.FailsWith (law.Holds levels .program) := by
  have h_expression : (expressionStatement nested).FailsWith (law.Holds levels .statement) :=
    (h .statement (by decide)).bind fun _ => failsWith_pure _
  have h_read : (statementRead nested).FailsWith (law.Holds levels .statement) := by
    intro ts e h_error
    cases ts with
    | nil =>
      -- where there is no token to choose by, an expression is tried
      exact h_expression h_error
    | cons t ts =>
      rw [statementRead] at h_error
      split at h_error
      · exact law.declaration h _ h_error
      · split at h_error
        · exact law.printStatement h h_error
        · exact h_expression h_error
  exact law.within (by decide) (by decide)
    (h_read.bind fun _ => (law.expect (by decide)).bind fun _ => failsWith_pure _)

end Level

/-- **The errors of expressions obey the law,** wherever they are called, by induction on the levels
of nesting that are left. -/
theorem expression (n : Nat) (p : Production) (h_calls : p.Calls .expression) :
    (Grammar.expression n).read.FailsWith (law.Holds n p) := by
  induction n generalizing p with
  | zero =>
    -- whatever the tokens are, this expression is the one too many
    intro ts e h_error
    cases h_error
    exact law.callTooDeep h_calls
  | succ n ih =>
    exact (law.assignment ih).within fun _ h_e => law.callExpression h_calls h_e

/-- **The errors of programs obey the law,** inside the program. -/
theorem program (n : Nat) :
    (Grammar.program (Grammar.expression n)).FailsWith fun e =>
      ∃ below, e.path = .program :: below ∧ law.Holds n .program { e with path := below } := by
  have h_statement :
      (programStatement (Grammar.expression n)).read.FailsWith (law.Holds n .program) := by
    intro ts e h_error
    cases ts with
    | nil =>
      cases h_error
      exact law.here (List.mem_singleton_self _) (by simp)
    | cons t ts => exact law.statement (law.expression n) h_error
  exact (FailsWith.itemsBefore h_statement).within fun e h_e => ⟨e.path, rfl, h_e⟩

end ErrorLaw

namespace Grammar

/-- Being an error inside a production is a law of errors. -/
private def errorInLaw : ErrorLaw where
  Holds := ErrorIn
  here h h_cause := .here h h_cause.1
  number _ _ := .here (List.mem_singleton_self _) (by simp)
  call := .call
  callExpression := .callExpression
  callTooDeep := .callTooDeep

/-- **The errors of programs.** -/
theorem failsWith_program (n : Nat) :
    (program (expression n)).FailsWith fun e =>
      ∃ below, e.path = .program :: below ∧ ErrorIn n .program { e with path := below } :=
  errorInLaw.program n

end Grammar

/-- **The path of an error of form is one of calls.** It starts with the program, every production
in it can call the next one, and its last one is one in which the cause can arise. Expressions are
refused for their depth exactly if one more of them is in the path than may be nested, and no error
of another kind has so many. -/
theorem parse_error_path {ts : List Token} {e : ParseError} (h : parse ts = .error e) :
    e.path.head? = some .program ∧ e.path.IsChain Production.Calls ∧
      (∃ p, e.path.getLast? = some p ∧ p ∈ e.cause.places) ∧
      (e.cause = .tooDeep ↔ e.path.count .expression = maxNesting + 1) ∧
      (e.cause ≠ .tooDeep → e.path.count .expression ≤ maxNesting) := by
  obtain ⟨below, h_path, arises, nesting⟩ :=
    Grammar.failsWith_program maxNesting (parse_eq_error.1 h)
  obtain ⟨h_chain, h_last⟩ := arises.isChain
  -- the program itself is no expression
  have h_count : e.path.count .expression = below.count .expression := by
    rw [h_path, List.count_cons_of_ne (show Production.program ≠ .expression by decide)]
  change e.cause = _ ∧ below.count _ = _ ∨ e.cause ≠ _ ∧ below.count _ ≤ _ at nesting
  rw [← h_count] at nesting
  rw [← h_path] at h_chain h_last
  refine ⟨by rw [h_path]; rfl, h_chain, h_last, ?_⟩
  -- either cause comes with its own number of expressions, and the two numbers differ
  rcases nesting with ⟨h_cause, h_nested⟩ | ⟨h_cause, h_nested⟩
  · exact ⟨iff_of_true h_cause h_nested, fun h_other => absurd h_cause h_other⟩
  · have h_fewer : e.path.count .expression ≠ maxNesting + 1 := by omega
    exact ⟨iff_of_false h_cause h_fewer, fun _ => h_nested⟩

/-- A symbol, wherever it stands. -/
private def symbolToken (kind : TokenKind) : Token := ⟨kind, kind.describe, .point .start⟩

/-- An assignment of an object literal, the second property of which opens a parenthesis that is not
closed in front of the comma. -/
private def unclosedProperty : List Token :=
  [⟨.identifier, "x", .point .start⟩, symbolToken .equal, symbolToken .leftBrace,
    ⟨.identifier, "a", .point .start⟩, symbolToken .colon, ⟨.number, "1", .point .start⟩,
    symbolToken .comma, ⟨.identifier, "b", .point .start⟩, symbolToken .colon,
    symbolToken .leftParen, ⟨.number, "2", .point .start⟩, symbolToken .comma,
    symbolToken .rightBrace, symbolToken .semicolon, .endOfInput .start]

/-- What its comma is refused with. Of the target and of the first property the path says nothing.
-/
private def missingInProperty : ParseError where
  cause := .expected .rightParen
  path := [.program, .statement, .expression, .assignment, .expression, .assignment, .object,
    .expression, .assignment, .comparison, .term, .factor, .member, .primary]
  found := some (symbolToken .comma)

/-- The path leads through the property that is open to the parenthesis. -/
theorem parse_error_path_of_unclosedProperty :
    parse unclosedProperty = .error missingInProperty ∧
      missingInProperty.path.head? = some .program ∧
      missingInProperty.path.IsChain Production.Calls ∧
      (∃ p, missingInProperty.path.getLast? = some p ∧ p ∈ missingInProperty.cause.places) ∧
      (missingInProperty.cause = .tooDeep ↔
        missingInProperty.path.count .expression = maxNesting + 1) ∧
      missingInProperty.cause ≠ .tooDeep ∧
      missingInProperty.path.count .expression ≤ maxNesting := by
  have h_parse : parse unclosedProperty = .error missingInProperty :=
    eq_error_of_some (by decide +kernel)
  have h_cause : missingInProperty.cause ≠ .tooDeep := by decide
  obtain ⟨h_head, h_chain, h_last, h_deep, h_nested⟩ := parse_error_path h_parse
  exact ⟨h_parse, h_head, h_chain, h_last, h_deep, h_cause, h_nested h_cause⟩

end ScriptLang
