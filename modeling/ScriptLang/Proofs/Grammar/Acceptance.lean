import Mathlib.Data.Set.Subsingleton
import ScriptLang.Proofs.Grammar.Completeness
import ScriptLang.Proofs.Grammar.Soundness

/-!
# The parser accepts exactly its grammar

* `program_eq_ok_iff` — with any number of levels, a list of tokens is read as a program exactly if
  its part in front of some end of input derives that program within those levels.
* `subsingleton_derivesProgram` — the grammar is unambiguous: a body derives one program at most,
  however deeply it nests.
* `parse_iff_derives` — the parser itself, and that nothing but nesting is limited.
-/

namespace ScriptLang

namespace Grammar

/-- **Reading a program is deriving it,** within as many levels as the parser has. -/
theorem program_eq_ok_iff {n : Nat} {ts : List Token} {p : Program} :
    (∃ rest, program (expression n) ts = .ok (p, rest)) ↔
      ∃ body stop tail, ts = body ++ stop :: tail ∧ stop.kind = .endOfInput ∧
        DerivesProgram n body p := by
  constructor
  · rintro ⟨rest, h⟩
    exact takes_program h
  · rintro ⟨body, stop, tail, rfl, h_stop, h⟩
    exact ⟨stop :: tail, program_of_derives h h_stop⟩

/-- **A body derives one program at most.** Two derivations fit into the larger number of levels,
and with so many levels the body is read only once. -/
theorem subsingleton_derivesProgram (body : List Token) :
    {p | ∃ n, DerivesProgram n body p}.Subsingleton := by
  rintro p ⟨m, h_p⟩ q ⟨n, h_q⟩
  -- the parser is a function, and both programs are what it reads
  have h_read {r : Program} (h : DerivesProgram (max m n) body r) :
      program (expression (max m n)) (body ++ [.endOfInput .start]) =
        .ok (r, [.endOfInput .start]) := program_of_derives h rfl
  have h_read_p := h_read (h_p.mono (Nat.le_max_left m n))
  have h_read_q := h_read (h_q.mono (Nat.le_max_right m n))
  rw [h_read_p] at h_read_q
  cases h_read_q
  rfl

end Grammar

open Grammar

theorem parse_eq_ok {ts : List Token} {p : Program} :
    parse ts = .ok p ↔ ∃ body stop tail, ts = body ++ stop :: tail ∧ stop.kind = .endOfInput ∧
      DerivesProgram maxNesting body p := by
  rw [← program_eq_ok_iff, parse]
  cases program (expression maxNesting) ts with
  | error e => simp [Except.map]
  | ok r =>
    obtain ⟨q, rest⟩ := r
    simp [Except.map]

/-! ### Long programs

Chains of any length, made of one name. -/

section Long

variable (x : String)

/-- A token of the given kind. -/
private def plain (kind : TokenKind) : Token := ⟨kind, x, .point .start⟩

private theorem kind_plain (kind : TokenKind) : (plain x kind).kind = kind := rfl

private theorem derives_name (n : Nat) :
    Derives .primary n [plain x .identifier] (.identifier x) :=
  .identifier rfl

/-- What can be derived and lengthened by a name is derived at any length. -/
private theorem exists_foldl {α : Type} {D : List Token → Expr → Prop} {f : Expr → α → Expr}
    {a : Expr} {b : α} (first : ∃ w, D w a) (more : ∀ w e, D w e → ∃ w', D w' (f e b)) (k : Nat) :
    ∃ w, D w ((List.replicate k b).foldl f a) := by
  induction k with
  | zero => exact first
  | succ k ih =>
    obtain ⟨w, h_w⟩ := ih
    -- the chain is grouped from the left, so it is the last operand that it has one more of
    rw [List.replicate_succ', List.foldl_append, List.foldl_cons, List.foldl_nil]
    exact more w _ h_w

private theorem derives_comparisons (c : Comparator) (k : Nat) :
    ∃ w, Derives .comparison 0 w
      ((List.replicate k (.identifier x)).foldl (.compare c) (.identifier x)) := by
  have h_name : Derives .term 0 [plain x .identifier] (.identifier x) :=
    .term (.factor (.member (derives_name x 0)))
  refine exists_foldl ⟨_, .comparison h_name⟩ (fun w e h_w => ?_) k
  exact ⟨_, .compare c h_w (kind_plain x c.kind) h_name⟩

private theorem derives_operators (o : Operator) (k : Nat) :
    ∃ w, Derives .term 0 w
      ((List.replicate k (.identifier x)).foldl (.binary o) (.identifier x)) := by
  have h_name : Derives .member 0 [plain x .identifier] (.identifier x) :=
    .member (derives_name x 0)
  -- sums are chains of factors, and products are factors themselves
  cases h_sum : o.isSum with
  | true =>
    refine exists_foldl ⟨_, .term (.factor h_name)⟩ (fun w e h_w => ?_) k
    exact ⟨_, .sum o h_sum h_w (kind_plain x o.kind) (.factor h_name)⟩
  | false =>
    have h_factor : ∃ w, Derives .factor 0 w
        ((List.replicate k (.identifier x)).foldl (.binary o) (.identifier x)) := by
      refine exists_foldl ⟨_, .factor h_name⟩ (fun w e h_w => ?_) k
      exact ⟨_, .product o h_sum h_w (kind_plain x o.kind) h_name⟩
    obtain ⟨w, h_w⟩ := h_factor
    exact ⟨w, .term h_w⟩

private theorem derives_properties (k : Nat) :
    ∃ w, Derives .openObject 1 w (.object (List.replicate k (x, .identifier x))) := by
  induction k with
  | zero => exact ⟨[plain x .leftBrace], .openBrace rfl⟩
  | succ k ih =>
    obtain ⟨w, h_w⟩ := ih
    rw [List.replicate_succ']
    have h_name : Derives .comparison 0 [plain x .identifier] (.identifier x) :=
      .comparison (.term (.factor (.member (derives_name x 0))))
    have h_value := Derives.expression (.comparisonOperation h_name)
    exact ⟨_, .property h_w (kind_plain x .identifier) (kind_plain x .colon) h_value
      (kind_plain x .comma)⟩

private theorem derives_members (k : Nat) :
    ∃ w, Derives .member 0 w ((List.replicate k x).foldl .member (.identifier x)) := by
  refine exists_foldl ⟨_, .member (derives_name x 0)⟩ (fun w e h_w => ?_) k
  exact ⟨_, .access h_w (kind_plain x .dot) (kind_plain x .identifier)⟩

/-- What is derived as an operation within a few levels is the program of some tokens. -/
private theorem exists_parse {n : Nat} {e : Expr} (le : n < maxNesting)
    (h : ∃ w, Derives .operation n w e) : ∃ ts, parse ts = .ok [.expression e] := by
  obtain ⟨w, h_w⟩ := h
  have h_statement :=
    DerivesStatement.expression (h_w.expression.mono le) (kind_plain "" .semicolon)
  exact ⟨_, parse_eq_ok.2 ⟨_, plain "" .endOfInput, [], rfl, rfl, .cons h_statement .nil⟩⟩

private theorem exists_parse_statements (k : Nat) :
    ∃ ts, parse ts = .ok (List.replicate k (.expression (.identifier x))) := by
  suffices h : ∃ w, DerivesProgram maxNesting w
      (List.replicate k (.expression (.identifier x))) by
    obtain ⟨w, h_w⟩ := h
    exact ⟨_, parse_eq_ok.2 ⟨w, plain "" .endOfInput, [], rfl, rfl, h_w⟩⟩
  induction k with
  | zero => exact ⟨[], .nil⟩
  | succ k ih =>
    obtain ⟨w, h_w⟩ := ih
    have h_name : Derives .comparison (maxNesting - 1) [plain x .identifier] (.identifier x) :=
      .comparison (.term (.factor (.member (derives_name x _))))
    have h_value := Derives.expression (.comparisonOperation h_name)
    exact ⟨_, .cons (.expression h_value (kind_plain "" .semicolon)) h_w⟩

end Long

/-- **The parser accepts exactly its grammar.** A list of tokens is read as a program if and only if
the tokens in front of some end of input derive that program with at most `maxNesting` expressions
nested inside one another; what follows that end is never looked at. A body derives one program at
most. And only nesting is limited: there are accepted programs with any number of statements, and
accepted expressions with any number of operands, of properties and of member names. -/
theorem parse_iff_derives :
    (∀ (ts : List Token) (p : Program), parse ts = .ok p ↔
      ∃ body stop tail, ts = body ++ stop :: tail ∧ stop.kind = .endOfInput ∧
        DerivesProgram maxNesting body p) ∧
    (∀ body : List Token, {p | ∃ levels, DerivesProgram levels body p}.Subsingleton) ∧
    (∀ (k : Nat) (x : String),
      (∃ ts, parse ts = .ok (List.replicate k (.expression (.identifier x)))) ∧
      (∀ c, ∃ ts, parse ts = .ok
        [.expression ((List.replicate k (.identifier x)).foldl (.compare c) (.identifier x))]) ∧
      (∀ o, ∃ ts, parse ts = .ok
        [.expression ((List.replicate k (.identifier x)).foldl (.binary o) (.identifier x))]) ∧
      (∃ ts, parse ts = .ok [.expression (.object (List.replicate k (x, .identifier x)))]) ∧
      (∃ ts, parse ts = .ok
        [.expression ((List.replicate k x).foldl .member (.identifier x))])) := by
  refine ⟨fun ts p => parse_eq_ok, subsingleton_derivesProgram, fun k x => ?_⟩
  refine ⟨exists_parse_statements x k, fun c => ?_, fun o => ?_, ?_, ?_⟩
  · obtain ⟨w, h_w⟩ := derives_comparisons x c k
    exact exists_parse (by decide) ⟨w, .comparisonOperation h_w⟩
  · obtain ⟨w, h_w⟩ := derives_operators x o k
    exact exists_parse (by decide) ⟨w, .comparisonOperation (.comparison h_w)⟩
  · obtain ⟨w, h_w⟩ := derives_properties x k
    have h_object := Derives.closeBrace h_w (kind_plain "" .rightBrace)
    exact exists_parse (by decide) ⟨_, .objectOperation h_object⟩
  · obtain ⟨w, h_w⟩ := derives_members x k
    have h_chain := Derives.comparison (.term (.factor h_w))
    exact exists_parse (by decide) ⟨w, .comparisonOperation h_chain⟩

end ScriptLang
