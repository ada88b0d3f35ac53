import ScriptLang.Proofs.Grammar.Soundness

/-!
# Beginnings of programs

Tokens are *viable* as a phrase if they can be completed to one, however deeply expressions nest in
it. Everything that is derived is viable, so is whatever stands in front of something viable, and
behind a sign what is viable as an operand is viable as the phrase that the sign goes on with.

* `Phrase.Viable`, `PropertyViable`, `StatementViable` — the beginnings of phrases, of properties
  and of statements.
* `Accepted` — the tokens that the grammar accepts as a program, without a limit on nesting.
* `exists_accepted` — the beginning of a statement behind a program can be completed to a program.
-/

namespace ScriptLang.Grammar

/-- A token of a kind, to complete something with. -/
private def filler (kind : TokenKind) : Token := ⟨kind, "", .point .start⟩

private theorem kind_filler (kind : TokenKind) : (filler kind).kind = kind := rfl

/-! ### Expressions -/

/-- **The beginnings of a phrase:** tokens that can be completed to such a phrase. -/
def Phrase.Viable (phrase : Phrase) (pre : List Token) : Prop :=
  ∃ ext n e, Derives phrase n (pre ++ ext) e

section Expressions

variable {phrase phrase' : Phrase} {n : Nat} {u pre more : List Token} {e : Expr} {t : Token}

theorem Derives.viable (h : Derives phrase n u e) : phrase.Viable u := by
  refine ⟨[], n, e, ?_⟩
  rw [List.append_nil]
  exact h

/-- The beginning of a beginning is one. -/
theorem Phrase.Viable.of_append (h : phrase.Viable (pre ++ more)) : phrase.Viable pre := by
  obtain ⟨ext, n, e, h_e⟩ := h
  refine ⟨more ++ ext, n, e, ?_⟩
  rw [← List.append_assoc]
  exact h_e

theorem Phrase.Viable.nil (h : phrase.Viable pre) : phrase.Viable [] :=
  of_append h

/-- If phrases of one sort are phrases of another, then beginnings are. -/
theorem Phrase.Viable.loosen (h : phrase.Viable pre)
    (le : ∀ n w e, Derives phrase n w e → ∃ n', Derives phrase' n' w e) : phrase'.Viable pre := by
  obtain ⟨ext, n, e, h_e⟩ := h
  obtain ⟨n', h_e'⟩ := le n _ e h_e
  exact ⟨ext, n', e, h_e'⟩

/-- **Behind a sign:** what can be completed to an operand of it can be completed to the phrase that
the sign goes on with. -/
theorem Phrase.Viable.after {whole : Phrase} (front : Derives phrase n u e)
    (h : phrase'.Viable pre) (join : ∀ m v right, Derives phrase m u e →
      Derives phrase' m v right → ∃ m' e', Derives whole m' (u ++ t :: v) e') :
    whole.Viable (u ++ t :: pre) := by
  obtain ⟨ext, m, right, h_right⟩ := h
  obtain ⟨m', e', h_whole⟩ := join (max n m) (pre ++ ext) right
    (front.mono (Nat.le_max_left n m)) (h_right.mono (Nat.le_max_right n m))
  refine ⟨ext, m', e', ?_⟩
  rw [List.append_assoc, List.cons_append]
  exact h_whole

theorem viable_primary_nil : Phrase.primary.Viable [] := by
  have h_name : Derives .primary 0 [filler .identifier] (.identifier "") := .identifier rfl
  exact h_name.viable.nil

theorem Phrase.Viable.member (h : Phrase.primary.Viable pre) : Phrase.member.Viable pre :=
  h.loosen fun n _ _ h => ⟨n, .member h⟩

theorem Phrase.Viable.factor (h : Phrase.member.Viable pre) : Phrase.factor.Viable pre :=
  h.loosen fun n _ _ h => ⟨n, .factor h⟩

theorem Phrase.Viable.term (h : Phrase.factor.Viable pre) : Phrase.term.Viable pre :=
  h.loosen fun n _ _ h => ⟨n, .term h⟩

theorem Phrase.Viable.comparison (h : Phrase.term.Viable pre) : Phrase.comparison.Viable pre :=
  h.loosen fun n _ _ h => ⟨n, .comparison h⟩

theorem Phrase.Viable.expression (h : Phrase.operation.Viable pre) :
    Phrase.expression.Viable pre :=
  h.loosen fun n _ _ h => ⟨n + 1, .expression h⟩

theorem viable_expression_nil : Phrase.expression.Viable [] :=
  (viable_primary_nil.member.factor.term.comparison.loosen fun n _ _ h =>
    ⟨n, .comparisonOperation h⟩).expression

/-- An expression that is begun in parentheses is a primary expression that is begun. -/
theorem Phrase.Viable.parentheses (h : Phrase.expression.Viable pre)
    (h_opening : t.kind = .leftParen) : Phrase.primary.Viable (t :: pre) := by
  obtain ⟨ext, n, e, h_e⟩ := h
  refine ⟨ext ++ [filler .rightParen], n, e, ?_⟩
  rw [List.cons_append, ← List.append_assoc]
  exact .parentheses h_opening h_e rfl

/-- Behind a dot comes a name. -/
theorem viable_access (base : Derives .member n u e) (h_dot : t.kind = .dot) :
    Phrase.member.Viable (u ++ [t]) := by
  refine ⟨[filler .identifier], n, .member e "", ?_⟩
  rw [List.append_assoc, List.singleton_append]
  exact .access base h_dot rfl

theorem viable_objectMember (base : Derives .object n u e) (h_dot : t.kind = .dot) :
    Phrase.object.Viable (u ++ [t]) := by
  refine ⟨[filler .identifier], n, .member e "", ?_⟩
  rw [List.append_assoc, List.singleton_append]
  exact .objectMember base h_dot rfl

/-- An object literal that is open can be closed. -/
theorem viable_openObject (front : Derives .openObject n u e) : Phrase.object.Viable u :=
  ⟨[filler .rightBrace], n, e, .closeBrace front rfl⟩

theorem viable_object_nil : Phrase.object.Viable [] := by
  have h_open : Derives .openObject 0 [filler .leftBrace] (.object []) := .openBrace rfl
  exact (viable_openObject h_open).nil

end Expressions

/-! ### Properties -/

/-- **The beginnings of a property:** behind any front of an object literal they can be completed to
an object literal. -/
def PropertyViable (pre : List Token) : Prop := ∀ n u properties,
  Derives .openObject n u (.object properties) → Phrase.object.Viable (u ++ pre)

theorem PropertyViable.of_append {pre more : List Token} (h : PropertyViable (pre ++ more)) :
    PropertyViable pre := by
  intro n u properties front
  have h_more := h n u properties front
  rw [← List.append_assoc] at h_more
  exact h_more.of_append

theorem propertyViable_nil : PropertyViable [] := by
  intro n u properties front
  rw [List.append_nil]
  exact viable_openObject front

/-- The value of a property that is begun. -/
theorem Phrase.Viable.property {pre : List Token} {key colon : Token}
    (h : Phrase.expression.Viable pre) (h_key : key.kind = .identifier)
    (h_colon : colon.kind = .colon) : PropertyViable (key :: colon :: pre) := by
  intro n u properties front
  obtain ⟨ext, m, value, h_value⟩ := h
  have h_front := Derives.property (front.mono (Nat.le_max_left n m)) h_key h_colon
    (h_value.mono (Nat.le_max_right n m)) (kind_filler .comma)
  have h_object := viable_openObject h_front
  have h_split : u ++ key :: colon :: (pre ++ ext ++ [filler .comma]) =
      u ++ key :: colon :: pre ++ (ext ++ [filler .comma]) := by
    simp only [List.append_assoc, List.cons_append]
  rw [h_split] at h_object
  exact h_object.of_append

theorem propertyViable_key {key : Token} (h_key : key.kind = .identifier) :
    PropertyViable [key] := by
  have h_colon : PropertyViable ([key] ++ [filler .colon]) :=
    viable_expression_nil.property h_key rfl
  exact h_colon.of_append

/-! ### Statements -/

/-- **The beginnings of a statement.** -/
def StatementViable (pre : List Token) : Prop := ∃ ext n s, DerivesStatement n (pre ++ ext) s

section Statements

variable {n : Nat} {pre more : List Token} {s : Stmt} {keyword : Token}

theorem DerivesStatement.viable_of_append (h : DerivesStatement n (pre ++ more) s) :
    StatementViable pre := ⟨more, n, s, h⟩

theorem StatementViable.of_append (h : StatementViable (pre ++ more)) : StatementViable pre := by
  obtain ⟨ext, n, s, h_s⟩ := h
  refine ⟨more ++ ext, n, s, ?_⟩
  rw [← List.append_assoc]
  exact h_s

/-- The semicolon that a statement is read up to by `takes_statement` and its like. -/
def semicolon : Token := filler .semicolon

theorem kind_semicolon : semicolon.kind = .semicolon := rfl

theorem Phrase.Viable.statement (h : Phrase.expression.Viable pre) : StatementViable pre := by
  obtain ⟨ext, n, e, h_e⟩ := h
  refine ⟨ext ++ [semicolon], n, .expression e, ?_⟩
  rw [← List.append_assoc]
  exact .expression h_e rfl

theorem Phrase.Viable.declare {name sign : Token} (h : Phrase.expression.Viable pre)
    (h_keyword : keyword.kind = .declaration) (h_name : name.kind = .identifier)
    (h_sign : sign.kind = .equal) : StatementViable (keyword :: name :: sign :: pre) := by
  obtain ⟨ext, n, e, h_e⟩ := h
  have h_declare := DerivesStatement.declare h_keyword h_name h_sign h_e kind_semicolon
  rw [List.append_assoc] at h_declare
  exact ⟨_, _, _, h_declare⟩

theorem statementViable_nil : StatementViable [] := viable_expression_nil.statement

/-- A name behind the keyword of a declaration can always be given a value. -/
theorem viable_declare_name {name : Token} (h_keyword : keyword.kind = .declaration)
    (h_name : name.kind = .identifier) : StatementViable [keyword, name] := by
  have h_sign : StatementViable ([keyword, name] ++ [filler .equal]) :=
    viable_expression_nil.declare h_keyword h_name rfl
  exact h_sign.of_append

theorem viable_declare (h_keyword : keyword.kind = .declaration) : StatementViable [keyword] := by
  have h_name : StatementViable ([keyword] ++ [filler .identifier]) :=
    viable_declare_name h_keyword rfl
  exact h_name.of_append

theorem Phrase.Viable.print {opening : Token} (h : Phrase.expression.Viable pre)
    (h_keyword : keyword.kind = .print) (h_opening : opening.kind = .leftParen) :
    StatementViable (keyword :: opening :: pre) := by
  obtain ⟨ext, n, e, h_e⟩ := h
  have h_print := DerivesStatement.print h_keyword h_opening h_e (kind_filler .rightParen)
    kind_semicolon
  rw [List.append_assoc] at h_print
  exact ⟨_, _, _, h_print⟩

theorem viable_print (h_keyword : keyword.kind = .print) : StatementViable [keyword] := by
  have h_opening : StatementViable ([keyword] ++ [filler .leftParen]) :=
    viable_expression_nil.print h_keyword rfl
  exact h_opening.of_append

end Statements

/-! ### Programs -/

/-- **The tokens that the grammar accepts:** those in front of some end of input derive a program,
however deeply expressions nest in it. -/
def Accepted (ts : List Token) : Prop := ∃ n p body stop tail,
  ts = body ++ stop :: tail ∧ stop.kind = .endOfInput ∧ DerivesProgram n body p

/-- **A statement that is begun behind a program** can be completed to something accepted. -/
theorem exists_accepted {n : Nat} {u pre : List Token} {p : Program} (h : DerivesProgram n u p)
    (h_pre : StatementViable pre) : ∃ ext, Accepted (u ++ pre ++ ext) := by
  obtain ⟨ext, m, s, h_s⟩ := h_pre
  have h_all := (h.mono (Nat.le_max_left n m)).concat (h_s.mono (Nat.le_max_right n m))
  refine ⟨ext ++ [filler .endOfInput], _, _, _, filler .endOfInput, [], ?_, rfl, h_all⟩
  rw [List.append_assoc, List.append_assoc, List.append_assoc]

end ScriptLang.Grammar
