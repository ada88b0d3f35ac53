import ScriptLang.Proofs.Grammar.Derivation
import ScriptLang.Proofs.Grammar.Readers

/-!
# Positions have no part in reading

Of a token the parsers look at its kind and its text. Its position is only carried along, to be given
back in an error. So tokens can be moved about, as long as they stay the same words in the same
order: what is read stays the same, and so do the cause of an error and its path.

* `Token.unplaced` — a token without its position.
* `Reader.Placeless` — a reader that does the same with tokens that have lost their positions.
* `Reader.Placeless.chain`, `Reader.Placeless.itemsBefore` — the two loops do if their parts do.
* `parse_congr` — tokens of the same words are parsed alike.
-/

namespace ScriptLang

/-- The token without its position: all tokens are put where texts begin. -/
def Token.unplaced (t : Token) : Token := { t with span := .point .start }

@[simp] theorem Token.kind_unplaced (t : Token) : t.unplaced.kind = t.kind := rfl

@[simp] theorem Token.text_unplaced (t : Token) : t.unplaced.text = t.text := rfl

/-- Tokens of the same words are the same without their positions. -/
theorem map_unplaced_congr {ts us : List Token} (h : ts.map Token.word = us.map Token.word) :
    ts.map Token.unplaced = us.map Token.unplaced := by
  have h_unplaced :
      Token.unplaced = (fun w : Word => ⟨w.kind, w.text, .point .start⟩) ∘ Token.word := rfl
  rw [h_unplaced, ← List.map_map, h, List.map_map]

theorem head?_map_unplaced (ts : List Token) :
    (ts.map Token.unplaced).head?.map Token.kind = ts.head?.map Token.kind := by
  cases ts <;> rfl

/-- The error without the position of the token that it came upon. -/
def ParseError.unplaced (e : ParseError) : ParseError :=
  { e with found := e.found.map Token.unplaced }

namespace Reader

variable {α β ω : Type}

/-- What a reader gives, without positions: neither in an error nor in the tokens that are left. -/
def unplaced : Except ParseError (α × List Token) → Except ParseError (α × List Token)
  | .ok (a, rest) => .ok (a, rest.map Token.unplaced)
  | .error e => .error e.unplaced

/-- **A reader that does not look at positions:** with tokens that have lost theirs it does the same,
except that what it gives has lost them, too. -/
def Placeless (r : Reader α) : Prop := ∀ ts, r (ts.map Token.unplaced) = unplaced (r ts)

/-! ### Elementary readers -/

theorem placeless_fail (cause : ParseError.Cause) : (fail cause : Reader α).Placeless := by
  intro ts
  unfold fail
  rw [List.head?_map]
  rfl

theorem placeless_pure (a : α) : (pure a : Reader α).Placeless := fun _ => rfl

theorem placeless_accept (kind : TokenKind) : (accept kind).Placeless := by
  intro ts
  cases ts with
  | nil => rfl
  | cons t ts =>
    rw [List.map_cons, accept, accept, Token.kind_unplaced]
    split <;> rfl

theorem placeless_expect (kind : TokenKind) : (expect kind).Placeless := by
  intro ts
  cases ts with
  | nil => rfl
  | cons t ts =>
    rw [List.map_cons, expect, expect, Token.kind_unplaced]
    split <;> rfl

theorem placeless_identifier : identifier.Placeless := by
  intro ts
  cases ts with
  | nil => rfl
  | cons t ts =>
    rw [List.map_cons, identifier, identifier, Token.kind_unplaced]
    split <;> rfl

/-! ### Readers made of others -/

theorem Placeless.within {r : Reader α} (h : r.Placeless) (p : Production) :
    (r.within p).Placeless := by
  intro ts
  unfold Reader.within
  rw [h ts]
  cases r ts <;> rfl

theorem Placeless.bind {r : Reader α} {f : α → Reader β} (h : r.Placeless)
    (h_f : ∀ a, (f a).Placeless) : (r >>= f).Placeless := by
  intro ts
  have h_r := h ts
  cases h_read : r ts with
  | error e =>
    rw [h_read] at h_r
    rw [bind_of_error h_r, bind_of_error h_read]
    rfl
  | ok result =>
    obtain ⟨a, mid⟩ := result
    rw [h_read] at h_r
    rw [bind_of_ok h_r, bind_of_ok h_read]
    exact h_f a mid

theorem Placeless.chain {operator : TokenKind → Option (α → ω → α)} {operand : Parser ω}
    (h : operand.read.Placeless) (left : α) : Placeless (chain operator operand left) := by
  intro ts
  -- along the turns of the loop, each of which an operator without its position begins likewise
  fun_induction Reader.chain operator operand left ts with
  | case1 left =>
    rw [List.map_nil, Reader.chain]
    rfl
  | case2 left t rest h_none =>
    rw [List.map_cons, Reader.chain, Token.kind_unplaced, h_none]
    rfl
  | case3 left t rest combine h_some e read =>
    have h_operand := h rest
    rw [read] at h_operand
    rw [List.map_cons, chain_error (t := t.unplaced) h_some h_operand]
    rfl
  | case4 left t rest combine h_some right mid read ih =>
    have h_operand := h rest
    rw [read] at h_operand
    rw [List.map_cons, chain_step (t := t.unplaced) h_some h_operand]
    exact ih

theorem Placeless.itemsBefore {stop : TokenKind} {item : Parser α} (h : item.read.Placeless) :
    Placeless (itemsBefore stop item) := by
  intro ts
  fun_induction Reader.itemsBefore stop item ts with
  | case1 ts h_stop =>
    rw [Reader.itemsBefore, if_pos ((head?_map_unplaced ts).trans h_stop)]
    rfl
  | case2 ts h_next e read =>
    have h_item := h ts
    rw [read] at h_item
    rw [itemsBefore_error (by rwa [head?_map_unplaced]) h_item]
    rfl
  | case3 ts h_next a mid read ih =>
    have h_item := h ts
    rw [read] at h_item
    rw [itemsBefore_item (by rwa [head?_map_unplaced]) h_item, ih]
    cases Reader.itemsBefore stop item mid <;> rfl

end Reader

/-! ### The parsers -/

namespace Grammar

open Reader

private theorem placeless_operands {operator : TokenKind → Option (Expr → Expr → Expr)}
    {operand : Parser Expr} (h : operand.read.Placeless) :
    (operands operator operand).Placeless :=
  h.bind fun first => Placeless.chain h first

private theorem placeless_members (base : Expr) : (members base).Placeless :=
  Placeless.chain placeless_identifier base

section Level

variable {nested : Parser Expr} (h : nested.read.Placeless)

include h

private theorem placeless_primary : (primary nested).read.Placeless := by
  refine Placeless.within (fun ts => ?_) _
  have h_inner : (do let e ← nested.read; expect .rightParen; return e : Reader Expr).Placeless :=
    h.bind fun _ => (placeless_expect _).bind fun _ => placeless_pure _
  cases ts with
  | nil => rfl
  | cons t ts =>
    cases h_kind : t.kind
    case number =>
      -- whether the text is a number does not depend on where it is
      simp only [List.map_cons, primaryRead, Token.kind_unplaced, Token.text_unplaced, h_kind]
      split <;> rfl
    case leftParen =>
      simp only [List.map_cons, primaryRead, Token.kind_unplaced, h_kind]
      exact h_inner ts
    all_goals
      simp only [List.map_cons, primaryRead, Token.kind_unplaced, Token.text_unplaced, h_kind]
      rfl

private theorem placeless_comparison : (comparison nested).read.Placeless := by
  have h_member : (member nested).read.Placeless :=
    ((placeless_primary h).bind placeless_members).within _
  have h_factor : (factor nested).read.Placeless := (placeless_operands h_member).within _
  have h_term : (term nested).read.Placeless := (placeless_operands h_factor).within _
  exact (placeless_operands h_term).within _

private theorem placeless_object : (object nested).read.Placeless := by
  have h_property : (property nested).read.Placeless :=
    placeless_identifier.bind fun _ => (placeless_expect _).bind fun _ => h.bind fun _ =>
      (placeless_expect _).bind fun _ => placeless_pure _
  exact ((placeless_expect _).bind fun _ => (Placeless.itemsBefore h_property).bind fun _ =>
    (placeless_expect _).bind fun _ => placeless_members _).within _

private theorem placeless_operation : (operation nested).read.Placeless := by
  intro ts
  simp only [operation, head?_map_unplaced]
  split
  · exact placeless_object h ts
  · exact placeless_comparison h ts

private theorem placeless_assignment : (assignment nested).read.Placeless := by
  refine ((placeless_operation h).bind fun target => (placeless_accept _).bind fun b => ?_).within _
  cases b with
  | false => exact placeless_pure _
  | true => exact h.bind fun _ => placeless_pure _

private theorem placeless_declaration (constant : Bool) :
    (declaration nested constant).Placeless := by
  refine (placeless_identifier.bind fun name => (placeless_accept _).bind fun b => ?_).within _
  cases b with
  | false =>
    cases constant with
    | false => exact placeless_pure _
    | true => exact placeless_fail _
  | true => exact h.bind fun _ => placeless_pure _

private theorem placeless_printStatement : (printStatement nested).Placeless :=
  ((placeless_expect _).bind fun _ => h.bind fun _ => (placeless_expect _).bind fun _ =>
    placeless_pure _).within _

private theorem placeless_statement : (statement nested).read.Placeless := by
  have h_expression : (expressionStatement nested).Placeless := h.bind fun _ => placeless_pure _
  have h_read : (statementRead nested).Placeless := by
    intro ts
    cases ts with
    | nil => exact h_expression []
    | cons t ts =>
      rw [List.map_cons, statementRead, statementRead, Token.kind_unplaced]
      by_cases h_declaration : t.kind = .declaration
      · rw [if_pos h_declaration, if_pos h_declaration]
        exact placeless_declaration h _ ts
      · by_cases h_print : t.kind = .print
        · rw [if_neg h_declaration, if_neg h_declaration, if_pos h_print, if_pos h_print]
          exact placeless_printStatement h ts
        · rw [if_neg h_declaration, if_neg h_declaration, if_neg h_print, if_neg h_print]
          exact h_expression (t :: ts)
  exact (h_read.bind fun _ => (placeless_expect _).bind fun _ => placeless_pure _).within _

end Level

/-- **Expressions are read without a look at positions,** by induction on the levels of nesting. -/
theorem placeless_expression (n : Nat) : (expression n).read.Placeless := by
  induction n with
  | zero => exact (placeless_fail _).within _
  | succ n ih => exact (placeless_assignment ih).within _

/-- **Programs are read without a look at positions.** -/
theorem placeless_program (n : Nat) : (program (expression n)).Placeless := by
  have h_statement : (programStatement (expression n)).read.Placeless := by
    intro ts
    cases ts with
    | nil => rfl
    | cons t ts => exact placeless_statement (placeless_expression n) (t :: ts)
  exact (Placeless.itemsBefore h_statement).within _

end Grammar

/-- **Tokens of the same words are parsed alike:** as the same program, or with the same error at
tokens of the same words. -/
theorem parse_congr {ts us : List Token} (h : ts.map Token.word = us.map Token.word) :
    (parse ts).mapError ParseError.unplaced = (parse us).mapError ParseError.unplaced := by
  have h_parse : ∀ vs, (parse vs).mapError ParseError.unplaced =
      (Grammar.program (Grammar.expression maxNesting) (vs.map Token.unplaced)).map Prod.fst := by
    intro vs
    rw [Grammar.placeless_program maxNesting vs, parse]
    cases Grammar.program (Grammar.expression maxNesting) vs <;> rfl
  rw [h_parse, h_parse, map_unplaced_congr h]

end ScriptLang
