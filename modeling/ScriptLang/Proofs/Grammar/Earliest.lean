import ScriptLang.Proofs.Grammar.Acceptance
import ScriptLang.Proofs.Grammar.Depth
import ScriptLang.Proofs.Grammar.Law
import ScriptLang.Proofs.Grammar.Viable

/-!
# Errors are reported at the earliest token

The parsers look one token ahead and never go back. So when they fail, what they have taken can be
completed to a program, and with the token that they report it cannot: whatever else followed that
token, they would fail in the same way. Only the refusal to go deeper is different, for it says
nothing about the token it is reported at.

* `local_expression` — the parsers look one token ahead.
* `early_expression`, `early_statement`, `early_program` — the parsers fail at the first token that
  they cannot use, and what they have taken by then can be completed to what they read.
* `accepted_iff` — what the grammar accepts is what the parsers read with enough levels.
* `parse_error_earliest` — where the errors of the parser are reported.
-/

namespace ScriptLang

namespace Grammar

open Reader

/-! ### Looking one token ahead -/

/-- Looking one token ahead is a law of readers. -/
private def localLaw : ReaderLaw where
  Holds := Local
  pure := local_pure
  fail _ := local_fail _
  expect _ := local_expect _
  accept _ := local_accept _
  identifier := local_identifier
  within := Local.within
  bind := Local.bind
  chain _ h := h.chain
  itemsBefore h _ := h.itemsBefore
  of_head := Local.of_head

/-- **The parsers look one token ahead,** those of expressions at any level. -/
theorem local_expression (n : Nat) : (expression n).read.Local := localLaw.expression n

/-! ### Failing early -/

/-- Operands fail early, if each of them does and what stands in front of it can be completed to
the chain. -/
private theorem early_operands {operator : TokenKind → Option (Expr → Expr → Expr)}
    {operand : Parser Expr} {n : Nat} {part whole : Phrase}
    (h_operand : operand.read.Early part.Viable) (h_local : operand.read.Local)
    (h_takes : operand.read.Takes (Derives part n))
    (h_first : ∀ {m w e}, Derives part m w e → Derives whole m w e)
    (h_step : ∀ {m u v left right t combine}, Derives whole m u left →
      operator t.kind = some combine → Derives part m v right →
      Derives whole m (u ++ t :: v) (combine left right)) :
    (operands operator operand).Early whole.Viable := by
  have h_begin : operand.read.Early whole.Viable :=
    h_operand.mono fun _ h => h.loosen fun m _ _ h => ⟨m, h_first h⟩
  refine h_begin.bind h_local h_takes fun w first h_w => ?_
  refine Early.chain h_operand h_local h_takes h_step ?_ (h_first h_w)
  intro u left t combine pre h_left h_sign h_pre
  exact h_pre.after h_left fun m v right h_left h_right => ⟨m, _, h_step h_left h_sign h_right⟩

/-- Member names fail early behind whatever a member name may stand behind. -/
private theorem early_members {D : List Token → Expr → Prop} {V : List Token → Prop}
    (access : ∀ {u e} {dot name : Token}, D u e → dot.kind = .dot → name.kind = .identifier →
      D (u ++ [dot, name]) (.member e name.text))
    (h_use : ∀ {u e} {dot : Token}, D u e → dot.kind = .dot → V (u ++ [dot])) {u : List Token}
    {base : Expr} (h : D u base) : (members base).Early fun pre => V (u ++ pre) := by
  have h_name : identifier.Early (· = []) := early_identifier rfl
  refine Early.chain h_name local_identifier takes_identifier (member_operand access) ?_ h
  rintro u left t combine pre h_left h_operator rfl
  obtain ⟨h_dot, -⟩ := memberOperator_eq_some h_operator
  exact h_use h_left h_dot

section Level

variable {n : Nat} {nested : Parser Expr} (h : nested.read.Local)
  (sound : nested.read.Takes (Derives .expression n))
  (early : nested.read.Early Phrase.expression.Viable)

include h sound early

/-- A nested expression and the token that closes it. -/
private theorem early_closed {β : Type} {V : List Token → Prop}
    (h_use : ∀ pre, Phrase.expression.Viable pre → V pre) (closing : TokenKind) (f : Expr → β) :
    (do let e ← nested.read; expect closing; return f e : Reader β).Early V := by
  refine (early.mono h_use).bind h sound fun w e h_w => ?_
  have h_open : V (w ++ []) := by
    rw [List.append_nil]
    exact h_use w h_w.viable
  exact early_expect_then h_open fun _ _ => early_pure _

private theorem early_primary : (primary nested).read.Early Phrase.primary.Viable := by
  refine (Early.of_head fun ts => ?_).within _
  rcases primaryRead_of_head nested ts with ⟨cause, -, h_same⟩ | ⟨kind, e, -, h_same⟩ | h_same
  · exact ⟨_, early_fail cause viable_primary_nil, h_same⟩
  · exact ⟨_, early_expect_then viable_primary_nil fun _ _ => early_pure _, h_same⟩
  · refine ⟨_, early_expect_then viable_primary_nil fun opening h_opening => ?_, h_same⟩
    exact early_closed h sound early (fun _ h_pre => h_pre.parentheses h_opening) _ _

private theorem early_member : (member nested).read.Early Phrase.member.Viable := by
  have h_primary : (primary nested).read.Early Phrase.member.Viable :=
    (early_primary h sound early).mono fun _ h_pre => h_pre.member
  refine Early.within (h_primary.bind (localLaw.primary h) (takes_primary sound)
    fun w base h_base => ?_) _
  have h_member : Derives .member n w base := .member h_base
  exact early_members (D := Derives .member n) .access viable_access h_member

private theorem early_comparison : (comparison nested).read.Early Phrase.comparison.Viable := by
  have h_factor : (factor nested).read.Early Phrase.factor.Viable :=
    (early_operands (early_member h sound early) (localLaw.member h) (takes_member sound) .factor
      .product_operand).within _
  have h_term : (term nested).read.Early Phrase.term.Viable :=
    (early_operands h_factor (localLaw.factor h) (takes_factor sound) .term .sum_operand).within _
  exact (early_operands h_term (localLaw.term h) (takes_term sound) .comparison
    .compare_operand).within _

private theorem early_property : (property nested).read.Early PropertyViable := by
  refine early_identifier_then propertyViable_nil fun key h_key => ?_
  refine early_expect_then (propertyViable_key h_key) fun colon h_colon => ?_
  exact early_closed h sound early (fun _ h_pre => h_pre.property h_key h_colon) _ _

private theorem early_object : (object nested).read.Early Phrase.object.Viable := by
  refine (early_expect_then viable_object_nil fun opening h_opening => ?_).within _
  -- the properties, behind the front of the literal that has been read by then
  have h_front : Derives .openObject n [opening] (.object []) := .openBrace h_opening
  have h_properties : Early (itemsBefore .rightBrace (property nested))
      fun pre => Phrase.object.Viable ([opening] ++ pre) :=
    Early.itemsBefore (D := fun u as => Derives .openObject n u (.object as))
      (early_property h sound early) (localLaw.property h) (takes_property sound) .add_property
      (fun front h_pre => h_pre n _ _ front) h_front
  have h_takes : Takes (itemsBefore .rightBrace (property nested))
      fun w as => Derives .openObject n ([opening] ++ w) (.object as) :=
    Takes.itemsBefore (D := fun u as => Derives .openObject n u (.object as))
      (takes_property sound) .add_property h_front
  refine h_properties.bind (Local.itemsBefore (localLaw.property h)) h_takes fun w as h_w => ?_
  have h_open : Phrase.object.Viable ([opening] ++ (w ++ [])) := by
    rw [List.append_nil]
    exact viable_openObject h_w
  refine early_expect_then h_open fun closing h_closing => ?_
  -- the member names, behind the whole literal
  have h_literal : Derives .object n ([opening] ++ w ++ [closing]) (.object as) :=
    .closeBrace h_w h_closing
  have h_members : (members (.object as)).Early
      fun pre => Phrase.object.Viable ([opening] ++ w ++ [closing] ++ pre) :=
    early_members (D := Derives .object n) (V := Phrase.object.Viable) .objectMember
      viable_objectMember h_literal
  refine h_members.mono fun pre h_pre => ?_
  rw [List.append_assoc, List.append_assoc] at h_pre
  exact h_pre

private theorem early_operation : (operation nested).read.Early Phrase.operation.Viable := by
  refine Early.of_head fun ts => ?_
  rcases operation_of_head nested ts with h_same | h_same
  · refine ⟨_, (early_object h sound early).mono fun _ h_pre => ?_, h_same⟩
    exact h_pre.loosen fun n _ _ h => ⟨n, .objectOperation h⟩
  · refine ⟨_, (early_comparison h sound early).mono fun _ h_pre => ?_, h_same⟩
    exact h_pre.loosen fun n _ _ h => ⟨n, .comparisonOperation h⟩

private theorem early_assignment : (assignment nested).read.Early Phrase.expression.Viable := by
  have h_operation : (operation nested).read.Early Phrase.expression.Viable :=
    (early_operation h sound early).mono fun _ h_pre => h_pre.expression
  refine (h_operation.bind (localLaw.operation h) (takes_operation sound) ?_).within _
  intro u target h_u
  refine early_accept_then (fun sign h_sign => ?_) (early_pure _)
  have h_value : nested.read.Early fun pre => Phrase.expression.Viable (u ++ sign :: pre) :=
    early.mono fun _ h_pre => h_pre.after h_u fun m _ _ h_left h_right =>
      ⟨m + 1, _, .assign h_left h_sign h_right⟩
  exact h_value.bind h sound fun _ _ _ => early_pure _

end Level

/-- **The parsers fail early,** those of expressions at any level. -/
theorem early_expression (n : Nat) : (expression n).read.Early Phrase.expression.Viable := by
  induction n with
  | zero => exact (early_fail _ viable_expression_nil).within _
  | succ n ih => exact (early_assignment (local_expression n) (takes_expression n) ih).within _

private theorem early_declaration {keyword : Token} (h_keyword : keyword.kind = .declaration)
    (n : Nat) (constant : Bool) : (declaration (expression n) constant).Early
      fun pre => StatementViable (keyword :: pre) := by
  refine (early_identifier_then (viable_declare h_keyword) fun name h_name => ?_).within _
  refine early_accept_then (fun sign h_sign => ?_) ?_
  · have h_value : (expression n).read.Early fun pre =>
        StatementViable (keyword :: name :: sign :: pre) :=
      (early_expression n).mono fun _ h_pre => h_pre.declare h_keyword h_name h_sign
    exact h_value.bind (local_expression n) (takes_expression n) fun _ _ _ => early_pure _
  · -- a constant without its value could still have been given one
    cases constant with
    | true => exact early_fail _ (viable_declare_name h_keyword h_name)
    | false => exact early_pure _

private theorem early_printStatement {keyword : Token} (h_keyword : keyword.kind = .print)
    (n : Nat) : (printStatement (expression n)).Early
      fun pre => StatementViable (keyword :: pre) := by
  refine (early_expect_then (viable_print h_keyword) fun opening h_opening => ?_).within _
  exact early_closed (local_expression n) (takes_expression n) (early_expression n)
    (fun _ h_pre => h_pre.print h_keyword h_opening) _ _

private theorem early_statementRead (n : Nat) :
    (statementRead (expression n)).Early StatementViable := by
  refine Early.of_head fun ts => ?_
  rcases statementRead_of_head (expression n) ts with ⟨constant, h_same⟩ | h_same | h_same
  · refine ⟨_, early_expect_then statementViable_nil fun keyword h_keyword => ?_, h_same⟩
    exact early_declaration h_keyword n constant
  · refine ⟨_, early_expect_then statementViable_nil fun keyword h_keyword => ?_, h_same⟩
    exact early_printStatement h_keyword n
  · have h_value : (expression n).read.Early StatementViable :=
      (early_expression n).mono fun _ h_pre => h_pre.statement
    refine ⟨_, ?_, h_same⟩
    exact h_value.bind (local_expression n) (takes_expression n) fun _ _ _ => early_pure _

theorem early_statement (n : Nat) : (statement (expression n)).read.Early StatementViable := by
  refine ((early_statementRead n).bind (localLaw.statementRead (local_expression n))
    (takes_statementRead kind_semicolon) fun w s h_s => ?_).within _
  have h_open : StatementViable (w ++ []) := by
    rw [List.append_nil]
    exact h_s.viable_of_append
  exact early_expect_then h_open fun _ _ => early_pure _

/-- **Whole programs** fail early: what is in front of the reported token can be completed to
something accepted. -/
theorem early_program (n : Nat) :
    (program (expression n)).Early fun pre => ∃ ext, Accepted (pre ++ ext) := by
  have h_item : (programStatement (expression n)).read.Early StatementViable := by
    refine Early.of_head fun ts => ?_
    rcases programStatement_of_head (expression n) ts with h_same | h_same
    · exact ⟨_, early_fail _ statementViable_nil, h_same⟩
    · exact ⟨_, early_statement n, h_same⟩
  have h_none : DerivesProgram n [] [] := .nil
  have h_items : Early (itemsBefore .endOfInput (programStatement (expression n)))
      fun pre => ∃ ext, Accepted ([] ++ pre ++ ext) :=
    Early.itemsBefore (D := DerivesProgram n) (V := fun pre => ∃ ext, Accepted (pre ++ ext)) h_item
      (localLaw.programStatement (local_expression n)) (takes_programStatement n) .concat
      exists_accepted h_none
  exact h_items.within _

/-- **What is accepted is what is read,** if the parser only has levels enough. -/
theorem accepted_iff {ts : List Token} :
    Accepted ts ↔ ∃ n p rest, program (expression n) ts = .ok (p, rest) := by
  constructor
  · rintro ⟨n, p, h⟩
    exact ⟨n, p, program_eq_ok_iff.2 h⟩
  · rintro ⟨n, p, h⟩
    exact ⟨n, p, program_eq_ok_iff.1 h⟩

/-- What is accepted is refused for nothing but its depth, however few the levels. -/
theorem tooDeep_of_accepted {n : Nat} {ts : List Token} {e : ParseError} (h : Accepted ts)
    (h_error : program (expression n) ts = .error e) : e.cause = .tooDeep := by
  obtain ⟨m, p, rest, h_read⟩ := accepted_iff.1 h
  -- with the levels of both it is read as with those that are enough
  have h_more : program (expression (max m n)) ts = .ok (p, rest) := by
    rcases below_program (Nat.le_max_left m n) ts with h_same | ⟨e', h', -⟩
    · exact h_same.symm.trans h_read
    · cases h_read.symm.trans h'
  rcases below_program (Nat.le_max_right m n) ts with h_same | ⟨e', h', h_cause⟩
  · cases (h_error.symm.trans h_same).trans h_more
  · cases h_error.symm.trans h'
    exact h_cause

end Grammar

open Grammar

/-- **Errors of form are reported at the earliest token.** Unless the tokens are refused for their
depth, there is a place in them with this token, or the end of them if no token is reported, such
that what stands in front of it can be completed to something the grammar accepts, and together
with the reported token it cannot. -/
theorem parse_error_earliest {ts : List Token} {e : ParseError} (h : parse ts = .error e)
    (h_cause : e.cause ≠ .tooDeep) : ∃ i ≤ ts.length, e.found = ts[i]? ∧
      (∃ ext, Accepted (ts.take i ++ ext)) ∧
      ∀ t, e.found = some t → ∀ ext, ¬Accepted (ts.take (i + 1) ++ ext) := by
  obtain ⟨pre, post, rfl, h_found, h_pre, h_again⟩ := early_program maxNesting (parse_eq_error.1 h)
  refine ⟨pre.length, ?_, ?_, ?_, fun t h_t ext h_accepted => ?_⟩
  · rw [List.length_append]
    exact Nat.le_add_right ..
  · rw [h_found, List.getElem?_append_right (Nat.le_refl _), Nat.sub_self, List.head?_eq_getElem?]
  · rw [List.take_left]
    exact h_pre
  · -- with the reported token the parser fails in the same way, whatever follows it
    obtain ⟨post', rfl⟩ := List.head?_eq_some_iff.1 (h_found.symm.trans h_t)
    have h_take : (pre ++ t :: post').take (pre.length + 1) = pre ++ [t] := by
      rw [List.take_length_add_append]
      rfl
    rw [h_take, List.append_assoc] at h_accepted
    exact h_cause (tooDeep_of_accepted h_accepted (h_again t rfl ext))

/-- A print statement whose parenthesis is not closed. -/
def unclosedPrint : List Token :=
  [⟨.print, "print", .point .start⟩, ⟨.leftParen, "(", .point .start⟩,
    ⟨.number, "1", .point .start⟩, ⟨.semicolon, ";", .point .start⟩, .endOfInput .start]

/-- What its semicolon is refused with. -/
def missingParenthesis : ParseError where
  cause := .expected .rightParen
  path := [.program, .statement, .printStatement]
  found := some ⟨.semicolon, ";", .point .start⟩

/-- The semicolon is the earliest token at which an open parenthesis can be missed. -/
theorem parse_error_earliest_of_unclosedPrint :
    parse unclosedPrint = .error missingParenthesis ∧ missingParenthesis.cause ≠ .tooDeep ∧
      ∃ i ≤ unclosedPrint.length, missingParenthesis.found = unclosedPrint[i]? ∧
        (∃ ext, Accepted (unclosedPrint.take i ++ ext)) ∧
        ∀ t, missingParenthesis.found = some t →
          ∀ ext, ¬Accepted (unclosedPrint.take (i + 1) ++ ext) := by
  have h_parse : parse unclosedPrint = .error missingParenthesis :=
    eq_error_of_some (by decide +kernel)
  have h_cause : missingParenthesis.cause ≠ .tooDeep := by decide
  exact ⟨h_parse, h_cause, parse_error_earliest h_parse h_cause⟩

end ScriptLang
