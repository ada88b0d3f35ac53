import ScriptLang.Grammar.Parser
import ScriptLang.Proofs.Grammar.Readers

/-!
# More levels change nothing but the refusal

How many levels a parser has shows in one way only: with fewer of them it may refuse, because
expressions are nested too deeply, what with more of them it reads or refuses for a reason of its
own. Wherever it does not refuse so, it does the same, errors and all.

* `Reader.Below` — one reader does as another does, or refuses to go so deep.
* `Reader.Below.chain`, `Reader.Below.itemsBefore` — the two loops respect that.
* `below_program` — the parsers of programs, by induction on the levels.
-/

namespace ScriptLang

namespace Reader

variable {α β ω : Type}

/-- **One reader is below another** if it does the same, or refuses to go so deep. -/
def Below (r r' : Reader α) : Prop :=
  ∀ ts, r ts = r' ts ∨ ∃ e, r ts = .error e ∧ e.cause = .tooDeep

theorem Below.refl (r : Reader α) : r.Below r := fun _ => .inl rfl

/-- Refusing at once is below everything. -/
theorem below_of_tooDeep (r' : Reader α) : (fail .tooDeep : Reader α).Below r' := fun _ =>
  .inr ⟨_, rfl, rfl⟩

theorem Below.within {r r' : Reader α} (h : r.Below r') (p : Production) :
    (r.within p).Below (r'.within p) := by
  intro ts
  rcases h ts with h_same | ⟨e, h_error, h_cause⟩
  · left
    unfold Reader.within
    rw [h_same]
  · right
    refine ⟨{ e with path := p :: e.path }, ?_, h_cause⟩
    unfold Reader.within
    rw [h_error]
    rfl

/-- One reader after another. -/
theorem Below.bind {r r' : Reader α} {f f' : α → Reader β} (h : r.Below r')
    (h_f : ∀ a, (f a).Below (f' a)) : (r >>= f).Below (r' >>= f') := by
  intro ts
  rcases h ts with h_same | ⟨e, h_error, h_cause⟩
  · cases h_r : r' ts with
    | error e =>
      left
      rw [bind_of_error (h_same.trans h_r), bind_of_error h_r]
    | ok result =>
      obtain ⟨a, mid⟩ := result
      rw [bind_of_ok (h_same.trans h_r), bind_of_ok h_r]
      exact h_f a mid
  · exact .inr ⟨e, bind_of_error h_error f, h_cause⟩

/-- A chain does as its operands do. -/
theorem Below.chain {operator : TokenKind → Option (α → ω → α)} {operand operand' : Parser ω}
    (h : operand.read.Below operand'.read) (left : α) :
    Below (chain operator operand left) (chain operator operand' left) := by
  intro ts
  fun_induction Reader.chain operator operand left ts with
  | case1 left =>
    left
    rw [Reader.chain]
  | case2 left t rest h_none =>
    left
    rw [Reader.chain]
    simp only [h_none]
  | case3 left t rest combine h_some e read =>
    -- the operand fails: with the same error, or because it would go too deep
    rcases h rest with h_same | ⟨e', h_error, h_cause⟩
    · left
      rw [chain_error h_some (h_same.symm.trans read)]
    · right
      rw [read] at h_error
      cases h_error
      exact ⟨e, rfl, h_cause⟩
  | case4 left t rest combine h_some right mid read ih =>
    rcases h rest with h_same | ⟨e', h_error, h_cause⟩
    · rw [chain_step h_some (h_same.symm.trans read)]
      exact ih
    · rw [read] at h_error
      cases h_error

/-- A row of items does as its items do. -/
theorem Below.itemsBefore {stop : TokenKind} {item item' : Parser α}
    (h : item.read.Below item'.read) :
    Below (itemsBefore stop item) (itemsBefore stop item') := by
  intro ts
  fun_induction Reader.itemsBefore stop item ts with
  | case1 ts h_stop =>
    left
    rw [Reader.itemsBefore, if_pos h_stop]
  | case2 ts h_next e read =>
    -- as for an operand, the error is the same or it is the one that is excepted
    rcases h ts with h_same | ⟨e', h_error, h_cause⟩
    · left
      rw [itemsBefore_error h_next (h_same.symm.trans read)]
    · right
      rw [read] at h_error
      cases h_error
      exact ⟨e, rfl, h_cause⟩
  | case3 ts h_next a mid read ih =>
    rcases h ts with h_same | ⟨e', h_error, h_cause⟩
    · rw [itemsBefore_item h_next (h_same.symm.trans read)]
      -- the item is the same, so only the rest of the row can go too deep
      rcases ih with h_rest | ⟨e', h_error, h_cause⟩
      · left
        rw [h_rest]
      · right
        exact ⟨e', by rw [h_error]; rfl, h_cause⟩
    · rw [read] at h_error
      cases h_error

end Reader

namespace Grammar

open Reader

/-! ### The parsers of one level -/

private theorem below_operands {operator : TokenKind → Option (Expr → Expr → Expr)}
    {operand operand' : Parser Expr} (h : operand.read.Below operand'.read) :
    (operands operator operand).Below (operands operator operand') :=
  h.bind fun first => Below.chain h first

section Level

variable {nested nested' : Parser Expr} (h : nested.read.Below nested'.read)

include h

private theorem below_primary : (primary nested).read.Below (primary nested').read := by
  refine Below.within ?_ _
  intro ts
  cases ts with
  | nil => exact .inl rfl
  | cons t ts =>
    have h_inner : (do let e ← nested.read; expect .rightParen; return e : Reader Expr).Below
        (do let e ← nested'.read; expect .rightParen; return e) :=
      h.bind fun _ => Below.refl _
    -- only parentheses ask the parser for nested expressions
    by_cases h_kind : t.kind = .leftParen
    · simp only [primaryRead, h_kind]
      exact h_inner ts
    · left
      simp only [primaryRead]
      split <;> first | rfl | contradiction

private theorem below_member : (member nested).read.Below (member nested').read :=
  ((below_primary h).bind fun _ => Below.refl _).within _

private theorem below_comparison : (comparison nested).read.Below (comparison nested').read := by
  have h_factor : (factor nested).read.Below (factor nested').read :=
    (below_operands (below_member h)).within _
  have h_term : (term nested).read.Below (term nested').read :=
    (below_operands h_factor).within _
  exact (below_operands h_term).within _

private theorem below_object : (object nested).read.Below (object nested').read := by
  have h_property : (property nested).read.Below (property nested').read :=
    (Below.refl _).bind fun _ => (Below.refl _).bind fun _ => h.bind fun _ => Below.refl _
  exact ((Below.refl _).bind fun _ => (Below.itemsBefore h_property).bind fun _ =>
    Below.refl _).within _

private theorem below_operation : (operation nested).read.Below (operation nested').read := by
  intro ts
  simp only [operation]
  split
  · exact below_object h ts
  · exact below_comparison h ts

private theorem below_assignment : (assignment nested).read.Below (assignment nested').read := by
  refine ((below_operation h).bind fun target => (Below.refl _).bind fun b => ?_).within _
  cases b with
  | false => exact Below.refl _
  | true => exact h.bind fun _ => Below.refl _

private theorem below_declaration (constant : Bool) :
    (declaration nested constant).Below (declaration nested' constant) := by
  refine ((Below.refl _).bind fun name => (Below.refl _).bind fun b => ?_).within _
  cases b with
  | false => exact Below.refl _
  | true => exact h.bind fun _ => Below.refl _

private theorem below_printStatement :
    (printStatement nested).Below (printStatement nested') :=
  ((Below.refl _).bind fun _ => h.bind fun _ => Below.refl _).within _

private theorem below_expressionStatement :
    (expressionStatement nested).Below (expressionStatement nested') :=
  h.bind fun _ => Below.refl _

private theorem below_statement : (statement nested).read.Below (statement nested').read := by
  have h_read : (statementRead nested).Below (statementRead nested') := by
    intro ts
    cases ts with
    | nil => exact below_expressionStatement h []
    | cons t ts =>
      simp only [statementRead]
      split
      · exact below_declaration h _ ts
      · split
        · exact below_printStatement h ts
        · exact below_expressionStatement h (t :: ts)
  exact (h_read.bind fun _ => Below.refl _).within _

end Level

/-! ### All levels -/

/-- **Fewer levels are below more levels.** -/
theorem below_expression {m n : Nat} (le : m ≤ n) :
    (expression m).read.Below (expression n).read := by
  induction m generalizing n with
  | zero =>
    -- without levels every expression is refused for its depth
    cases n with
    | zero => exact Below.refl _
    | succ n => exact (below_of_tooDeep _).within _
  | succ m ih =>
    cases n with
    | zero => omega
    | succ n => exact (below_assignment (ih (Nat.le_of_succ_le_succ le))).within _

/-- **Whole programs:** with fewer levels they are read alike or refused for their depth. -/
theorem below_program {m n : Nat} (le : m ≤ n) :
    (program (expression m)).Below (program (expression n)) := by
  have h_statement : (programStatement (expression m)).read.Below
      (programStatement (expression n)).read := by
    intro ts
    cases ts with
    | nil => exact .inl rfl
    | cons t ts => exact below_statement (below_expression le) (t :: ts)
  exact (Below.itemsBefore h_statement).within _

end Grammar

end ScriptLang
