import ScriptLang.Proofs.Grammar.Derivation
import ScriptLang.Proofs.Grammar.Readers

/-!
# Whatever is read is derived

Every parser of the grammar takes a stretch of tokens that its phrase derives, and the tree it
gives is the tree that is derived. The parsers of one level are treated in the order in which they
are built, given that the parser for nested expressions is sound; the levels are then an induction.

* `takes_expression` — the parser with so many levels takes what is derived within so many levels.
* `takes_program` — the same of whole programs, up to their end of input.
-/

namespace ScriptLang.Grammar

open Reader

/-! ### Operators -/

theorem memberOperator_eq_some {kind : TokenKind} {combine : Expr → String → Expr}
    (h : memberOperator kind = some combine) : kind = .dot ∧ combine = .member := by
  cases kind <;> cases h
  exact ⟨rfl, rfl⟩

theorem comparisonOperator_eq_some {kind : TokenKind} {combine : Expr → Expr → Expr}
    (h : comparisonOperator kind = some combine) :
    ∃ c : Comparator, kind = c.kind ∧ combine = .compare c := by
  cases kind <;> cases h
  · exact ⟨.greater, rfl, rfl⟩
  · exact ⟨.less, rfl, rfl⟩
  · exact ⟨.equal, rfl, rfl⟩
  · exact ⟨.notEqual, rfl, rfl⟩
  · exact ⟨.greaterEqual, rfl, rfl⟩
  · exact ⟨.lessEqual, rfl, rfl⟩

theorem termOperator_eq_some {kind : TokenKind} {combine : Expr → Expr → Expr}
    (h : termOperator kind = some combine) :
    ∃ o : Operator, o.isSum = true ∧ kind = o.kind ∧ combine = .binary o := by
  cases kind <;> cases h
  · exact ⟨.plus, rfl, rfl, rfl⟩
  · exact ⟨.minus, rfl, rfl, rfl⟩

theorem factorOperator_eq_some {kind : TokenKind} {combine : Expr → Expr → Expr}
    (h : factorOperator kind = some combine) :
    ∃ o : Operator, o.isSum = false ∧ kind = o.kind ∧ combine = .binary o := by
  cases kind <;> cases h
  · exact ⟨.times, rfl, rfl, rfl⟩
  · exact ⟨.divide, rfl, rfl, rfl⟩
  · exact ⟨.modulo, rfl, rfl, rfl⟩

/-! ### One operand more

What the chains make of one more operand, whichever of their operators it stands behind. -/

section Operand

variable {n : Nat} {u v : List Token} {left right : Expr} {t : Token}
  {combine : Expr → Expr → Expr}

theorem Derives.compare_operand (h_left : Derives .comparison n u left)
    (h_sign : comparisonOperator t.kind = some combine) (h_right : Derives .term n v right) :
    Derives .comparison n (u ++ t :: v) (combine left right) := by
  obtain ⟨c, h_kind, rfl⟩ := comparisonOperator_eq_some h_sign
  exact .compare c h_left h_kind h_right

theorem Derives.sum_operand (h_left : Derives .term n u left)
    (h_sign : termOperator t.kind = some combine) (h_right : Derives .factor n v right) :
    Derives .term n (u ++ t :: v) (combine left right) := by
  obtain ⟨o, h_sum, h_kind, rfl⟩ := termOperator_eq_some h_sign
  exact .sum o h_sum h_left h_kind h_right

theorem Derives.product_operand (h_left : Derives .factor n u left)
    (h_sign : factorOperator t.kind = some combine) (h_right : Derives .member n v right) :
    Derives .factor n (u ++ t :: v) (combine left right) := by
  obtain ⟨o, h_product, h_kind, rfl⟩ := factorOperator_eq_some h_sign
  exact .product o h_product h_left h_kind h_right

/-- One member name more, behind whatever a member name may stand behind. -/
theorem member_operand {D : List Token → Expr → Prop}
    (access : ∀ {u e} {dot name : Token}, D u e → dot.kind = .dot → name.kind = .identifier →
      D (u ++ [dot, name]) (.member e name.text)) {u v : List Token} {base : Expr} {name : String}
    {combine : Expr → String → Expr} (h_base : D u base)
    (h_operator : memberOperator t.kind = some combine)
    (h_name : ∃ t : Token, v = [t] ∧ t.kind = .identifier ∧ t.text = name) :
    D (u ++ t :: v) (combine base name) := by
  obtain ⟨h_dot, rfl⟩ := memberOperator_eq_some h_operator
  obtain ⟨t', rfl, h_kind, rfl⟩ := h_name
  exact access h_base h_dot h_kind

end Operand

/-- A property of an object literal, with its colon and its comma. -/
def DerivesProperty (n : Nat) (v : List Token) (p : String × Expr) : Prop :=
  ∃ (key colon comma : Token) (w : List Token), v = key :: colon :: (w ++ [comma]) ∧
    key.kind = .identifier ∧ colon.kind = .colon ∧ comma.kind = .comma ∧
    Derives .expression n w p.2 ∧ p.1 = key.text

/-- One property more in an object literal that is open. -/
theorem Derives.add_property {n : Nat} {u v : List Token} {properties : List (String × Expr)}
    {p : String × Expr} (front : Derives .openObject n u (.object properties))
    (h : DerivesProperty n v p) : Derives .openObject n (u ++ v) (.object (properties ++ [p])) := by
  obtain ⟨name, value⟩ := p
  obtain ⟨key, colon, comma, w, rfl, h_key, h_colon, h_comma, h_value, h_name⟩ := h
  obtain rfl : name = key.text := h_name
  exact .property front h_key h_colon h_value h_comma

/-! ### The phrases of one level -/

/-- A chain of operands takes what its first operand takes, and then goes on. -/
private theorem takes_operands {operator : TokenKind → Option (Expr → Expr → Expr)}
    {operand : Parser Expr} {E D : List Token → Expr → Prop} (h_operand : operand.read.Takes E)
    (h_first : ∀ {w e}, E w e → D w e)
    (h_step : ∀ {u v left right t combine}, D u left → operator t.kind = some combine →
      E v right → D (u ++ t :: v) (combine left right)) :
    (operands operator operand).Takes D := by
  intro ts e rest h
  obtain ⟨first, mid, h_read, h_chain⟩ := bind_eq_ok.1 h
  obtain ⟨u, rfl, h_u⟩ := h_operand h_read
  obtain ⟨w, rfl, h_w⟩ := Takes.chain h_operand h_step (h_first h_u) h_chain
  exact ⟨u ++ w, (List.append_assoc ..).symm, h_w⟩

/-- Member names are taken after whatever a member name may stand after. -/
private theorem takes_members {D : List Token → Expr → Prop}
    (access : ∀ {u e} {dot name : Token}, D u e → dot.kind = .dot → name.kind = .identifier →
      D (u ++ [dot, name]) (.member e name.text)) {u : List Token} {base : Expr} (h : D u base) :
    (members base).Takes fun w e => D (u ++ w) e :=
  Takes.chain takes_identifier (member_operand access) h

section Level

variable {n : Nat} {nested : Parser Expr} (sound : nested.read.Takes (Derives .expression n))

include sound

theorem takes_primary : (primary nested).read.Takes (Derives .primary n) := by
  refine Takes.within ?_ _
  intro ts e rest h
  cases ts with
  | nil => cases h
  | cons t ts =>
    simp only [primaryRead] at h
    -- one case for each kind of token that a primary expression begins with
    split at h
    · next h_kind =>
      cases h
      exact ⟨[t], rfl, .identifier h_kind⟩
    · next h_kind =>
      cases h
      exact ⟨[t], rfl, .string h_kind⟩
    · next h_kind =>
      split at h
      · next h_value =>
        cases h
        exact ⟨[t], rfl, .number h_kind h_value⟩
      · cases h
    · next h_kind =>
      obtain ⟨inner, mid, h_read, h_rest⟩ := bind_eq_ok.1 h
      obtain ⟨_, mid', h_close, h_pure⟩ := bind_eq_ok.1 h_rest
      obtain ⟨rfl, rfl⟩ := pure_eq_ok.1 h_pure
      obtain ⟨closing, h_closing, rfl⟩ := expect_eq_ok.1 h_close
      obtain ⟨w, rfl, h_w⟩ := sound h_read
      refine ⟨t :: (w ++ [closing]), by simp, ?_⟩
      exact .parentheses h_kind h_w h_closing
    · cases h

theorem takes_member : (member nested).read.Takes (Derives .member n) := by
  refine Takes.within ?_ _
  intro ts e rest h
  obtain ⟨base, mid, h_base, h_chain⟩ := bind_eq_ok.1 h
  obtain ⟨u, rfl, h_u⟩ := takes_primary sound h_base
  have h_member : Derives .member n u base := .member h_u
  obtain ⟨w, rfl, h_w⟩ := takes_members .access h_member h_chain
  exact ⟨u ++ w, (List.append_assoc ..).symm, h_w⟩

theorem takes_factor : (factor nested).read.Takes (Derives .factor n) :=
  (takes_operands (takes_member sound) .factor .product_operand).within _

theorem takes_term : (term nested).read.Takes (Derives .term n) :=
  (takes_operands (takes_factor sound) .term .sum_operand).within _

theorem takes_comparison : (comparison nested).read.Takes (Derives .comparison n) :=
  (takes_operands (takes_term sound) .comparison .compare_operand).within _

theorem takes_property : (property nested).read.Takes (DerivesProperty n) := by
  intro ts p rest h
  obtain ⟨name, mid₁, h_name, h₁⟩ := bind_eq_ok.1 h
  obtain ⟨_, mid₂, h_expect₁, h₂⟩ := bind_eq_ok.1 h₁
  obtain ⟨value, mid₃, h_value, h₃⟩ := bind_eq_ok.1 h₂
  obtain ⟨_, mid₄, h_expect₂, h₄⟩ := bind_eq_ok.1 h₃
  obtain ⟨rfl, rfl⟩ := pure_eq_ok.1 h₄
  obtain ⟨key, h_key, rfl, rfl⟩ := identifier_eq_ok.1 h_name
  obtain ⟨colon, h_colon, rfl⟩ := expect_eq_ok.1 h_expect₁
  obtain ⟨w, rfl, h_w⟩ := sound h_value
  obtain ⟨comma, h_comma, rfl⟩ := expect_eq_ok.1 h_expect₂
  refine ⟨key :: colon :: (w ++ [comma]), by simp, key, colon, comma, w, rfl, ?_⟩
  exact ⟨h_key, h_colon, h_comma, h_w, rfl⟩

theorem takes_object : (object nested).read.Takes (Derives .object n) := by
  refine Takes.within ?_ _
  intro ts e rest h
  obtain ⟨_, mid₁, h_open, h₁⟩ := bind_eq_ok.1 h
  obtain ⟨properties, mid₂, h_properties, h₂⟩ := bind_eq_ok.1 h₁
  obtain ⟨_, mid₃, h_close, h_chain⟩ := bind_eq_ok.1 h₂
  obtain ⟨opening, h_opening, rfl⟩ := expect_eq_ok.1 h_open
  obtain ⟨closing, h_closing, rfl⟩ := expect_eq_ok.1 h_close
  -- the front of the literal: its brace, and the properties that are read one by one
  have front : Derives .openObject n ([opening] ++ []) (.object ([] ++ [])) :=
    .openBrace h_opening
  obtain ⟨w, rfl, h_w⟩ := Takes.itemsBefore (D := fun u as => Derives .openObject n u (.object as))
    (takes_property sound) .add_property front h_properties
  -- and the member names behind its closing brace
  have h_literal := Derives.closeBrace h_w h_closing
  obtain ⟨v, rfl, h_v⟩ := takes_members .objectMember h_literal h_chain
  refine ⟨opening :: w ++ [closing] ++ v, by simp, ?_⟩
  simpa using h_v

theorem takes_operation : (operation nested).read.Takes (Derives .operation n) := by
  intro ts e rest h
  simp only [operation] at h
  split at h
  · obtain ⟨w, rfl, h_w⟩ := takes_object sound h
    exact ⟨w, rfl, .objectOperation h_w⟩
  · obtain ⟨w, rfl, h_w⟩ := takes_comparison sound h
    exact ⟨w, rfl, .comparisonOperation h_w⟩

theorem takes_assignment : (assignment nested).read.Takes (Derives .expression (n + 1)) := by
  refine Takes.within ?_ _
  intro ts e rest h
  obtain ⟨target, mid₁, h_target, h₁⟩ := bind_eq_ok.1 h
  obtain ⟨b, mid₂, h_accept, h₂⟩ := bind_eq_ok.1 h₁
  obtain ⟨u, rfl, h_u⟩ := takes_operation sound h_target
  rcases accept_eq_ok.1 h_accept with ⟨rfl, sign, h_sign, rfl⟩ | ⟨rfl, rfl, -⟩
  · obtain ⟨value, mid₃, h_value, h₃⟩ := bind_eq_ok.1 h₂
    obtain ⟨rfl, rfl⟩ := pure_eq_ok.1 h₃
    obtain ⟨v, rfl, h_v⟩ := sound h_value
    exact ⟨u ++ sign :: v, by simp, .assign h_u h_sign h_v⟩
  · obtain ⟨rfl, rfl⟩ := pure_eq_ok.1 h₂
    exact ⟨u, rfl, .expression h_u⟩

end Level

/-! ### All levels -/

/-- **The parser with so many levels** takes what is derived within so many levels. -/
theorem takes_expression (n : Nat) : (expression n).read.Takes (Derives .expression n) := by
  induction n with
  | zero =>
    -- without levels nothing is read
    have h_fail : (fail .tooDeep : Reader Expr).Takes (Derives .expression 0) := by
      intro ts e rest h
      cases h
    exact h_fail.within _
  | succ n ih => exact (takes_assignment ih).within _

/-- A declaration is taken after its keyword and up to its semicolon. -/
private theorem takes_declaration {n : Nat} {keyword semicolon : Token}
    (h_keyword : keyword.kind = .declaration) (h_semicolon : semicolon.kind = .semicolon) :
    (declaration (expression n) (keyword.text = "const")).Takes fun w s =>
      DerivesStatement n (keyword :: (w ++ [semicolon])) s := by
  refine Takes.within ?_ _
  intro ts s rest h
  obtain ⟨name, mid₁, h_name, h₁⟩ := bind_eq_ok.1 h
  obtain ⟨b, mid₂, h_accept, h₂⟩ := bind_eq_ok.1 h₁
  obtain ⟨t, h_kind, rfl, rfl⟩ := identifier_eq_ok.1 h_name
  rcases accept_eq_ok.1 h_accept with ⟨rfl, sign, h_sign, rfl⟩ | ⟨rfl, rfl, -⟩
  · obtain ⟨value, mid₃, h_value, h₃⟩ := bind_eq_ok.1 h₂
    obtain ⟨rfl, rfl⟩ := pure_eq_ok.1 h₃
    obtain ⟨w, rfl, h_w⟩ := takes_expression n h_value
    exact ⟨t :: sign :: w, by simp, .declare h_keyword h_kind h_sign h_w h_semicolon⟩
  · by_cases h_const : keyword.text = "const"
    · simp [h_const, fail] at h₂
    · simp only [h_const, decide_false, Bool.false_eq_true, ↓reduceIte] at h₂
      obtain ⟨rfl, rfl⟩ := pure_eq_ok.1 h₂
      exact ⟨[t], rfl, .declareNull h_keyword h_const h_kind h_semicolon⟩

/-- A print statement is taken after its keyword and up to its semicolon. -/
private theorem takes_printStatement {n : Nat} {keyword semicolon : Token}
    (h_keyword : keyword.kind = .print) (h_semicolon : semicolon.kind = .semicolon) :
    (printStatement (expression n)).Takes fun w s =>
      DerivesStatement n (keyword :: (w ++ [semicolon])) s := by
  refine Takes.within ?_ _
  intro ts s rest h
  obtain ⟨_, mid₁, h_open, h₁⟩ := bind_eq_ok.1 h
  obtain ⟨value, mid₂, h_value, h₂⟩ := bind_eq_ok.1 h₁
  obtain ⟨_, mid₃, h_close, h₃⟩ := bind_eq_ok.1 h₂
  obtain ⟨rfl, rfl⟩ := pure_eq_ok.1 h₃
  obtain ⟨opening, h_opening, rfl⟩ := expect_eq_ok.1 h_open
  obtain ⟨w, rfl, h_w⟩ := takes_expression n h_value
  obtain ⟨closing, h_closing, rfl⟩ := expect_eq_ok.1 h_close
  refine ⟨opening :: (w ++ [closing]), by simp, ?_⟩
  have h_all := DerivesStatement.print h_keyword h_opening h_w h_closing h_semicolon
  simpa using h_all

/-- An expression as a statement is taken up to its semicolon. -/
private theorem takes_expressionStatement {n : Nat} {semicolon : Token}
    (h_semicolon : semicolon.kind = .semicolon) :
    (expressionStatement (expression n)).Takes fun w s =>
      DerivesStatement n (w ++ [semicolon]) s := by
  intro ts s rest h
  obtain ⟨value, mid, h_value, h₁⟩ := bind_eq_ok.1 h
  obtain ⟨rfl, rfl⟩ := pure_eq_ok.1 h₁
  obtain ⟨w, rfl, h_w⟩ := takes_expression n h_value
  exact ⟨w, rfl, .expression h_w h_semicolon⟩

/-- A statement is taken up to its semicolon. -/
theorem takes_statementRead {n : Nat} {semicolon : Token}
    (h_semicolon : semicolon.kind = .semicolon) :
    (statementRead (expression n)).Takes fun w s => DerivesStatement n (w ++ [semicolon]) s := by
  intro ts s rest h
  -- which statement it is shows in its first token
  cases ts with
  | nil => exact takes_expressionStatement h_semicolon h
  | cons t ts =>
    simp only [statementRead] at h
    split at h
    · next h_kind =>
      obtain ⟨w, rfl, h_s⟩ := takes_declaration h_kind h_semicolon h
      exact ⟨t :: w, rfl, h_s⟩
    · split at h
      · next h_kind =>
        obtain ⟨w, rfl, h_s⟩ := takes_printStatement h_kind h_semicolon h
        exact ⟨t :: w, rfl, h_s⟩
      · exact takes_expressionStatement h_semicolon h

theorem takes_statement (n : Nat) : (statement (expression n)).read.Takes (DerivesStatement n) := by
  refine Takes.within ?_ _
  intro ts s rest h
  obtain ⟨s', mid, h_read, h₁⟩ := bind_eq_ok.1 h
  obtain ⟨_, mid', h_end, h₂⟩ := bind_eq_ok.1 h₁
  obtain ⟨rfl, rfl⟩ := pure_eq_ok.1 h₂
  obtain ⟨semicolon, h_semicolon, rfl⟩ := expect_eq_ok.1 h_end
  obtain ⟨w, rfl, h_s⟩ := takes_statementRead h_semicolon h_read
  exact ⟨w ++ [semicolon], (List.append_cons ..), h_s⟩

theorem takes_programStatement (n : Nat) :
    (programStatement (expression n)).read.Takes (DerivesStatement n) := by
  intro ts s rest h
  cases ts with
  | nil => cases h
  | cons t ts => exact takes_statement n h

/-- **Whole programs** are taken up to an end of input. -/
theorem takes_program {n : Nat} {ts rest : List Token} {p : Program}
    (h : program (expression n) ts = .ok (p, rest)) :
    ∃ body stop tail, ts = body ++ stop :: tail ∧ stop.kind = .endOfInput ∧
      DerivesProgram n body p := by
  have h_items : itemsBefore .endOfInput (programStatement (expression n)) ts = .ok (p, rest) :=
    within_eq_ok.1 h
  -- before the first statement stands the program without statements
  have h_none : DerivesProgram n [] [] := .nil
  obtain ⟨body, rfl, h_body⟩ :=
    Takes.itemsBefore (takes_programStatement n) .concat h_none h_items
  obtain ⟨stop, tail, rfl, h_stop⟩ := itemsBefore_head h_items
  exact ⟨body, stop, tail, rfl, h_stop, h_body⟩

end ScriptLang.Grammar
