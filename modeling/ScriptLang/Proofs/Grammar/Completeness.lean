import ScriptLang.Proofs.Grammar.Derivation
import ScriptLang.Proofs.Grammar.Readers

/-!
# Whatever is derived is read

The parsers are greedy: a chain goes on as long as there is an operator. So a derived stretch of
tokens is read as what it derives only if the token behind it does not carry it on, and for a chain
that cannot even be said of its shorter beginnings, which are always carried on. What is said of a
chain instead (`Phrase.IsRead`) is where its reading continues: whatever the loop makes of the rest
from the tree derived so far, the parser makes of the stretch and the rest.

* `Derives.isRead` — a derived stretch is read, by induction on the derivation.
* `program_of_derives` — a derived program in front of an end of input is read.
-/

namespace ScriptLang

/-- How loosely a token joins what stands before it, the loosest first; zero if it does not. -/
def TokenKind.rank : TokenKind → Nat
  | equal => 1
  | greater | less | equalEqual | bangEqual | greaterEqual | lessEqual => 2
  | plus | minus => 3
  | star | slash | percent => 4
  | dot => 5
  | _ => 0

namespace Grammar

open Reader

/-- The next token, if there is one, does not join more tightly than the given rank. -/
def Stops (rank : Nat) (ts : List Token) : Prop := ∀ t ∈ ts.head?, t.kind.rank ≤ rank

theorem Stops.mono {r r' : Nat} {ts : List Token} (h : Stops r ts) (le : r ≤ r') : Stops r' ts :=
  fun t h_t => Nat.le_trans (h t h_t) le

theorem stops_cons {r : Nat} {t : Token} {ts : List Token} (h : t.kind.rank ≤ r) :
    Stops r (t :: ts) := by
  rintro t' ⟨⟩
  exact h

/-! ### Operators and their ranks -/

theorem memberOperator_none {kind : TokenKind} (h : kind.rank < 5) :
    memberOperator kind = none := by
  cases kind <;> first | rfl | (simp [TokenKind.rank] at h)

theorem factorOperator_none {kind : TokenKind} (h : kind.rank < 4) :
    factorOperator kind = none := by
  cases kind <;> first | rfl | (simp [TokenKind.rank] at h)

theorem termOperator_none {kind : TokenKind} (h : kind.rank < 3) : termOperator kind = none := by
  cases kind <;> first | rfl | (simp [TokenKind.rank] at h)

theorem comparisonOperator_none {kind : TokenKind} (h : kind.rank < 2) :
    comparisonOperator kind = none := by
  cases kind <;> first | rfl | (simp [TokenKind.rank] at h)

@[simp] theorem comparisonOperator_kind (c : Comparator) :
    comparisonOperator c.kind = some (.compare c) := by cases c <;> rfl

@[simp] theorem rank_comparator (c : Comparator) : c.kind.rank = 2 := by cases c <;> rfl

theorem termOperator_kind {o : Operator} (h : o.isSum = true) :
    termOperator o.kind = some (.binary o) := by cases o <;> first | rfl | cases h

theorem factorOperator_kind {o : Operator} (h : o.isSum = false) :
    factorOperator o.kind = some (.binary o) := by cases o <;> first | rfl | cases h

theorem rank_operator (o : Operator) : o.kind.rank = if o.isSum then 3 else 4 := by
  cases o <;> rfl

/-! ### How phrases begin -/

/-- May a primary expression begin with a token of the kind? -/
def beginsPrimary : TokenKind → Bool
  | .identifier | .number | .string | .leftParen => true
  | _ => false

/-- A phrase may begin with a token of the kind. -/
def Phrase.MayBegin : Phrase → TokenKind → Prop
  | object, kind | openObject, kind => kind = .leftBrace
  | expression, kind | operation, kind => kind = .leftBrace ∨ beginsPrimary kind = true
  | comparison, kind | term, kind | factor, kind | member, kind | primary, kind =>
    beginsPrimary kind = true

/-- What is put behind a stretch does not change how it begins. -/
private theorem first_append {P : TokenKind → Prop} {u : List Token} (v : List Token)
    (h : ∃ t v, u = t :: v ∧ P t.kind) : ∃ t v', u ++ v = t :: v' ∧ P t.kind := by
  obtain ⟨t, u, rfl, h_t⟩ := h
  exact ⟨t, u ++ v, rfl, h_t⟩

/-- **A derived stretch has a first token,** of a kind that its phrase may begin with. -/
theorem Derives.first {phrase : Phrase} {n : Nat} {w : List Token} {e : Expr}
    (h : Derives phrase n w e) : ∃ t v, w = t :: v ∧ phrase.MayBegin t.kind := by
  induction h with
  | expression _ ih => exact ih
  | assign _ _ _ ih => exact first_append _ ih
  | objectOperation _ ih =>
    obtain ⟨t, v, rfl, h_t⟩ := ih
    exact ⟨t, v, rfl, .inl h_t⟩
  | comparisonOperation _ ih =>
    obtain ⟨t, v, rfl, h_t⟩ := ih
    exact ⟨t, v, rfl, .inr h_t⟩
  | openBrace h_brace => exact ⟨_, [], rfl, h_brace⟩
  | property _ _ _ _ _ ih => exact first_append _ ih
  | closeBrace _ _ ih => exact first_append _ ih
  | objectMember _ _ _ ih => exact first_append _ ih
  | comparison _ ih => exact ih
  | compare _ _ _ _ ih => exact first_append _ ih
  | term _ ih => exact ih
  | sum _ _ _ _ _ ih => exact first_append _ ih
  | factor _ ih => exact ih
  | product _ _ _ _ _ ih => exact first_append _ ih
  | member _ ih => exact ih
  | access _ _ _ ih => exact first_append _ ih
  | identifier h_name => exact ⟨_, [], rfl, congrArg beginsPrimary h_name⟩
  | number h_digits => exact ⟨_, [], rfl, congrArg beginsPrimary h_digits⟩
  | string h_text => exact ⟨_, [], rfl, congrArg beginsPrimary h_text⟩
  | parentheses h_opening => exact ⟨_, _, rfl, congrArg beginsPrimary h_opening⟩

/-! ### Reading on -/

/-- **That a derived stretch is read.** For a phrase that is no chain: it is read, if the next
token does not carry it on. For a chain: reading the stretch is reading on from its tree. -/
def Phrase.IsRead : Phrase → Nat → List Token → Expr → Prop
  | expression, n, w, e =>
    ∀ rest, Stops 0 rest → (Grammar.expression n).read (w ++ rest) = .ok (e, rest)
  | operation, n, w, e =>
    ∀ rest, Stops 1 rest →
      (Grammar.operation (Grammar.expression n)).read (w ++ rest) = .ok (e, rest)
  | object, n, w, e =>
    ∀ rest a rest', members e rest = .ok (a, rest') →
      (Grammar.object (Grammar.expression n)).read (w ++ rest) = .ok (a, rest')
  | openObject, n, w, e =>
    ∃ brace v properties, w = brace :: v ∧ brace.kind = .leftBrace ∧ e = .object properties ∧
      ∀ rest more rest',
        itemsBefore .rightBrace (property (Grammar.expression n)) rest = .ok (more, rest') →
        itemsBefore .rightBrace (property (Grammar.expression n)) (v ++ rest) =
          .ok (properties ++ more, rest')
  | comparison, n, w, e =>
    ∀ rest a rest', Stops 2 rest →
      chain comparisonOperator (Grammar.term (Grammar.expression n)) e rest = .ok (a, rest') →
      (Grammar.comparison (Grammar.expression n)).read (w ++ rest) = .ok (a, rest')
  | term, n, w, e =>
    ∀ rest a rest', Stops 3 rest →
      chain termOperator (Grammar.factor (Grammar.expression n)) e rest = .ok (a, rest') →
      (Grammar.term (Grammar.expression n)).read (w ++ rest) = .ok (a, rest')
  | factor, n, w, e =>
    ∀ rest a rest', Stops 4 rest →
      chain factorOperator (Grammar.member (Grammar.expression n)) e rest = .ok (a, rest') →
      (Grammar.factor (Grammar.expression n)).read (w ++ rest) = .ok (a, rest')
  | member, n, w, e =>
    ∀ rest a rest', members e rest = .ok (a, rest') →
      (Grammar.member (Grammar.expression n)).read (w ++ rest) = .ok (a, rest')
  | primary, n, w, e =>
    ∀ rest, (Grammar.primary (Grammar.expression n)).read (w ++ rest) = .ok (e, rest)

section Chains

variable {n : Nat} {w : List Token} {e : Expr}

/-- No member name comes next, so there is nothing to read on. -/
private theorem members_stop {rest : List Token} (e : Expr) (h : Stops 4 rest) :
    members e rest = .ok (e, rest) :=
  chain_stop _ _ fun t h_t => memberOperator_none (Nat.lt_succ_of_le (h t h_t))

private theorem members_step (base : Expr) {dot name : Token} (h_dot : dot.kind = .dot)
    (h_name : name.kind = .identifier) (rest : List Token) :
    members base (dot :: name :: rest) = members (.member base name.text) rest := by
  have h_operator : memberOperator dot.kind = some .member := by rw [h_dot]; rfl
  exact chain_step h_operator (identifier_eq_ok.2 ⟨name, h_name, rfl, rfl⟩)

/-! A chain that is not carried on is read to its end. -/

theorem read_member (h : Phrase.member.IsRead n w e) {rest : List Token} (stops : Stops 4 rest) :
    (member (expression n)).read (w ++ rest) = .ok (e, rest) :=
  h rest e rest (members_stop e stops)

theorem read_factor (h : Phrase.factor.IsRead n w e) {rest : List Token} (stops : Stops 3 rest) :
    (factor (expression n)).read (w ++ rest) = .ok (e, rest) :=
  h rest e rest (stops.mono (by decide))
    (chain_stop _ _ fun t h_t => factorOperator_none (Nat.lt_succ_of_le (stops t h_t)))

theorem read_term (h : Phrase.term.IsRead n w e) {rest : List Token} (stops : Stops 2 rest) :
    (term (expression n)).read (w ++ rest) = .ok (e, rest) :=
  h rest e rest (stops.mono (by decide))
    (chain_stop _ _ fun t h_t => termOperator_none (Nat.lt_succ_of_le (stops t h_t)))

theorem read_comparison (h : Phrase.comparison.IsRead n w e) {rest : List Token}
    (stops : Stops 1 rest) : (comparison (expression n)).read (w ++ rest) = .ok (e, rest) :=
  h rest e rest (stops.mono (by decide))
    (chain_stop _ _ fun t h_t => comparisonOperator_none (Nat.lt_succ_of_le (stops t h_t)))

end Chains

/-- A single token of an expression is read for what it stands for. -/
private theorem read_primary_single {n : Nat} {t : Token} {e : Expr} {rest : List Token}
    (h : primaryRead (expression n) (t :: rest) = .ok (e, rest)) :
    (primary (expression n)).read (t :: rest) = .ok (e, rest) :=
  within_eq_ok.2 h

/-- **A derived stretch is read.** -/
theorem Derives.isRead {phrase : Phrase} {n : Nat} {w : List Token} {e : Expr}
    (h : Derives phrase n w e) : phrase.IsRead n w e := by
  induction h with
  | expression _ ih =>
    intro rest stops
    -- no equals sign comes next, so what was read stays the whole expression
    refine within_eq_ok.2 (within_eq_ok.2 (bind_eq_ok.2 ⟨_, rest, ih rest (stops.mono (by decide)),
      bind_eq_ok.2 ⟨false, rest, accept_eq_ok.2 (.inr ⟨rfl, rfl, ?_⟩), rfl⟩⟩))
    intro t h_t h_equal
    have h_rank := stops t h_t
    rw [h_equal] at h_rank
    exact absurd h_rank (by decide)
  | @assign n u v target value sign _ h_sign _ ih₁ ih₂ =>
    intro rest stops
    rw [List.append_assoc, List.cons_append]
    -- the sign joins less tightly than anything in the target, so it ends the target
    have h_target := ih₁ (sign :: (v ++ rest)) (stops_cons (by rw [h_sign]; decide))
    refine within_eq_ok.2 (within_eq_ok.2 (bind_eq_ok.2 ⟨target, _, h_target, bind_eq_ok.2
      ⟨true, v ++ rest, accept_eq_ok.2 (.inl ⟨rfl, sign, h_sign, rfl⟩), ?_⟩⟩))
    exact bind_eq_ok.2 ⟨value, rest, ih₂ rest stops, rfl⟩
  | @objectOperation n w e h_object ih =>
    intro rest stops
    -- an operation is an object literal exactly if a brace comes first
    obtain ⟨t, v, rfl, h_brace⟩ := h_object.first
    have h_brace : t.kind = .leftBrace := h_brace
    simp only [operation, List.cons_append, List.head?_cons, Option.map_some, h_brace, if_true]
    exact ih rest e rest (members_stop e (stops.mono (by decide)))
  | @comparisonOperation n w e h_comparison ih =>
    intro rest stops
    obtain ⟨t, v, rfl, h_first⟩ := h_comparison.first
    have h_brace : t.kind ≠ .leftBrace := by
      intro h_kind
      rw [h_kind] at h_first
      cases h_first
    simp only [operation, List.cons_append, List.head?_cons, Option.map_some, Option.some.injEq,
      h_brace, if_false]
    exact read_comparison ih stops
  | @openBrace n brace h_brace => exact ⟨brace, [], [], rfl, h_brace, rfl, fun _ _ _ h => h⟩
  | @property n u v properties value key colon comma _ h_key h_colon _ h_comma ih₁ ih₂ =>
    obtain ⟨brace, w, properties', rfl, h_brace, h_eq, h_front⟩ := ih₁
    -- the front has the properties that it has derived
    cases h_eq
    refine ⟨brace, w ++ key :: colon :: (v ++ [comma]), properties ++ [(key.text, value)], rfl,
      h_brace, rfl, ?_⟩
    intro rest more rest' h_more
    -- the property is one more item behind those of the front
    have h_value := ih₂ (comma :: rest) (stops_cons (by rw [h_comma]; decide))
    have h_item : (Grammar.property (Grammar.expression n)).read
        (key :: colon :: (v ++ comma :: rest)) = .ok ((key.text, value), rest) :=
      bind_eq_ok.2 ⟨key.text, _, identifier_eq_ok.2 ⟨key, h_key, rfl, rfl⟩,
        bind_eq_ok.2 ⟨(), _, expect_eq_ok.2 ⟨colon, h_colon, rfl⟩,
          bind_eq_ok.2 ⟨value, _, h_value,
            bind_eq_ok.2 ⟨(), _, expect_eq_ok.2 ⟨comma, h_comma, rfl⟩, rfl⟩⟩⟩⟩
    have h_next : NextIsNot .rightBrace (key :: colon :: (v ++ comma :: rest)) := by
      rintro t ⟨⟩
      rw [h_key]
      decide
    have h_all := h_front _ _ _ (itemsBefore_step h_next h_item h_more)
    simpa using h_all
  | @closeBrace n u e brace _ h_brace ih =>
    intro rest a rest' h_members
    obtain ⟨opening, v, properties, rfl, h_opening, rfl, h_front⟩ := ih
    -- the row of properties ends at the closing brace, and no property comes after the front's
    have h_items := h_front (brace :: rest) [] (brace :: rest) (itemsBefore_stop _ h_brace)
    rw [List.append_nil] at h_items
    rw [List.append_assoc, List.cons_append, List.singleton_append]
    exact within_eq_ok.2 (bind_eq_ok.2 ⟨(), _, expect_eq_ok.2 ⟨opening, h_opening, rfl⟩,
      bind_eq_ok.2 ⟨properties, _, h_items,
        bind_eq_ok.2 ⟨(), rest, expect_eq_ok.2 ⟨brace, h_brace, rfl⟩, h_members⟩⟩⟩)
  | objectMember _ h_dot h_name ih =>
    intro rest a rest' h_members
    rw [List.append_assoc]
    -- the base is read on over the dot and the name, to where reading continues
    refine ih _ a rest' ?_
    exact (members_step _ h_dot h_name rest).trans h_members
  | @comparison n w e _ ih =>
    intro rest a rest' stops h_chain
    exact within_eq_ok.2 (bind_eq_ok.2 ⟨e, rest, read_term ih stops, h_chain⟩)
  | @compare n u v left right sign c _ h_sign _ ih₁ ih₂ =>
    intro rest a rest' stops h_chain
    rw [List.append_assoc, List.cons_append]
    -- the chain so far is read on over the sign and its second operand
    have h_operator : comparisonOperator sign.kind = some (.compare c) := by
      rw [h_sign, comparisonOperator_kind]
    refine ih₁ _ a rest' (stops_cons (by simp [h_sign])) ?_
    exact (chain_step h_operator (read_term ih₂ stops)).trans h_chain
  | @term n w e _ ih =>
    intro rest a rest' stops h_chain
    exact within_eq_ok.2 (bind_eq_ok.2 ⟨e, rest, read_factor ih stops, h_chain⟩)
  | @sum n u v left right sign o h_sum _ h_sign _ ih₁ ih₂ =>
    intro rest a rest' stops h_chain
    rw [List.append_assoc, List.cons_append]
    have h_operator : termOperator sign.kind = some (.binary o) := by
      rw [h_sign, termOperator_kind h_sum]
    refine ih₁ _ a rest' (stops_cons (by simp [h_sign, rank_operator, h_sum])) ?_
    exact (chain_step h_operator (read_factor ih₂ stops)).trans h_chain
  | @factor n w e _ ih =>
    intro rest a rest' stops h_chain
    exact within_eq_ok.2 (bind_eq_ok.2 ⟨e, rest, read_member ih stops, h_chain⟩)
  | @product n u v left right sign o h_product _ h_sign _ ih₁ ih₂ =>
    intro rest a rest' stops h_chain
    rw [List.append_assoc, List.cons_append]
    have h_operator : factorOperator sign.kind = some (.binary o) := by
      rw [h_sign, factorOperator_kind h_product]
    refine ih₁ _ a rest' (stops_cons (by simp [h_sign, rank_operator, h_product])) ?_
    exact (chain_step h_operator (read_member ih₂ stops)).trans h_chain
  | @member n w e _ ih =>
    intro rest a rest' h_members
    exact within_eq_ok.2 (bind_eq_ok.2 ⟨e, rest, ih rest, h_members⟩)
  | access _ h_dot h_name ih =>
    intro rest a rest' h_members
    rw [List.append_assoc]
    refine ih _ a rest' ?_
    exact (members_step _ h_dot h_name rest).trans h_members
  | identifier h_name =>
    intro rest
    refine read_primary_single ?_
    simp only [primaryRead, h_name]
  | number h_digits h_value =>
    intro rest
    refine read_primary_single ?_
    simp only [primaryRead, h_digits, h_value]
  | string h_text =>
    intro rest
    refine read_primary_single ?_
    simp only [primaryRead, h_text]
  | @parentheses n w e opening closing h_opening _ h_closing ih =>
    intro rest
    have h_inner := ih (closing :: rest) (stops_cons (by rw [h_closing]; decide))
    rw [List.cons_append, List.append_assoc, List.singleton_append]
    refine within_eq_ok.2 ?_
    simp only [primaryRead, h_opening]
    exact bind_eq_ok.2 ⟨e, _, h_inner,
      bind_eq_ok.2 ⟨(), rest, expect_eq_ok.2 ⟨closing, h_closing, rfl⟩, rfl⟩⟩

/-! ### Statements and programs -/

/-- A derived expression is read in front of any token that joins nothing. -/
private theorem read_expression {n : Nat} {w : List Token} {e : Expr}
    (h : Derives .expression n w e) {t : Token} (h_t : t.kind.rank = 0) (rest : List Token) :
    (expression n).read (w ++ t :: rest) = .ok (e, t :: rest) :=
  h.isRead _ (stops_cons (Nat.le_of_eq h_t))

/-- A derived expression opens neither a declaration nor a print statement. -/
private theorem Derives.no_keyword {n : Nat} {w : List Token} {e : Expr}
    (h : Derives .expression n w e) :
    ∃ t v, w = t :: v ∧ t.kind ≠ .declaration ∧ t.kind ≠ .print ∧ t.kind ≠ .endOfInput := by
  obtain ⟨t, v, rfl, h_brace | h_first⟩ := h.first
  · refine ⟨t, v, rfl, ?_⟩
    rw [h_brace]
    exact ⟨by decide, by decide, by decide⟩
  · refine ⟨t, v, rfl, ?_, ?_, ?_⟩
    all_goals
      intro h_kind
      rw [h_kind] at h_first
      cases h_first

theorem DerivesStatement.isRead {n : Nat} {w : List Token} {s : Stmt} (h : DerivesStatement n w s)
    (rest : List Token) :
    (statement (Grammar.expression n)).read (w ++ rest) = .ok (s, rest) := by
  refine within_eq_ok.2 ?_
  -- in each case the semicolon is what ends the reading of the statement proper
  cases h with
  | @declare w value keyword name sign semicolon h_keyword h_name h_sign right h_semicolon =>
    have h_value := read_expression right (t := semicolon) (by rw [h_semicolon]; rfl) rest
    refine bind_eq_ok.2 ⟨_, semicolon :: rest, ?_,
      bind_eq_ok.2 ⟨(), rest, expect_eq_ok.2 ⟨semicolon, h_semicolon, rfl⟩, rfl⟩⟩
    simp only [List.cons_append, List.append_assoc, List.nil_append, statementRead, h_keyword,
      if_true]
    exact within_eq_ok.2 (bind_eq_ok.2 ⟨name.text, _, identifier_eq_ok.2 ⟨name, h_name, rfl, rfl⟩,
      bind_eq_ok.2 ⟨true, _, accept_eq_ok.2 (.inl ⟨rfl, sign, h_sign, rfl⟩),
        bind_eq_ok.2 ⟨value, _, h_value, rfl⟩⟩⟩)
  | @declareNull keyword name semicolon h_keyword h_variable h_name h_semicolon =>
    refine bind_eq_ok.2 ⟨_, semicolon :: rest, ?_,
      bind_eq_ok.2 ⟨(), rest, expect_eq_ok.2 ⟨semicolon, h_semicolon, rfl⟩, rfl⟩⟩
    have h_next : NextIsNot .equal (semicolon :: rest) := by
      rintro t ⟨⟩
      rw [h_semicolon]
      decide
    simp only [List.cons_append, List.nil_append, statementRead, h_keyword, if_true, h_variable,
      decide_false]
    exact within_eq_ok.2 (bind_eq_ok.2 ⟨name.text, _, identifier_eq_ok.2 ⟨name, h_name, rfl, rfl⟩,
      bind_eq_ok.2 ⟨false, _, accept_eq_ok.2 (.inr ⟨rfl, rfl, h_next⟩), rfl⟩⟩)
  | @print w value keyword opening closing semicolon h_keyword h_opening argument h_closing
      h_semicolon =>
    have h_value := read_expression argument (t := closing) (by rw [h_closing]; rfl)
      (semicolon :: rest)
    refine bind_eq_ok.2 ⟨_, semicolon :: rest, ?_,
      bind_eq_ok.2 ⟨(), rest, expect_eq_ok.2 ⟨semicolon, h_semicolon, rfl⟩, rfl⟩⟩
    simp only [List.cons_append, List.append_assoc, List.nil_append, statementRead, h_keyword,
      reduceCtorEq, if_false, if_true]
    exact within_eq_ok.2 (bind_eq_ok.2 ⟨(), _, expect_eq_ok.2 ⟨opening, h_opening, rfl⟩,
      bind_eq_ok.2 ⟨value, _, h_value,
        bind_eq_ok.2 ⟨(), _, expect_eq_ok.2 ⟨closing, h_closing, rfl⟩, rfl⟩⟩⟩)
  | @expression w value semicolon whole h_semicolon =>
    have h_value := read_expression whole (t := semicolon) (by rw [h_semicolon]; rfl) rest
    refine bind_eq_ok.2 ⟨_, semicolon :: rest, ?_,
      bind_eq_ok.2 ⟨(), rest, expect_eq_ok.2 ⟨semicolon, h_semicolon, rfl⟩, rfl⟩⟩
    obtain ⟨t, v, rfl, h_declaration, h_print, -⟩ := whole.no_keyword
    simp only [List.cons_append, List.append_assoc, List.nil_append, statementRead, h_declaration,
      h_print, if_false]
    exact bind_eq_ok.2 ⟨value, _, h_value, rfl⟩

/-- A derived statement has a first token, which is no end of input. -/
private theorem DerivesStatement.first {n : Nat} {w : List Token} {s : Stmt}
    (h : DerivesStatement n w s) : ∃ t v, w = t :: v ∧ t.kind ≠ .endOfInput := by
  cases h with
  | declare h_keyword => exact ⟨_, _, rfl, by rw [h_keyword]; decide⟩
  | declareNull h_keyword => exact ⟨_, _, rfl, by rw [h_keyword]; decide⟩
  | print h_keyword => exact ⟨_, _, rfl, by rw [h_keyword]; decide⟩
  | expression whole h_semicolon =>
    obtain ⟨t, v, rfl, -, -, h_end⟩ := whole.no_keyword
    exact ⟨t, _, rfl, h_end⟩

/-- **A derived program is read** in front of an end of input, whatever follows that. -/
theorem program_of_derives {n : Nat} {body tail : List Token} {stop : Token} {p : Program}
    (h : DerivesProgram n body p) (h_stop : stop.kind = .endOfInput) :
    program (expression n) (body ++ stop :: tail) = .ok (p, stop :: tail) := by
  refine within_eq_ok.2 ?_
  induction h with
  | nil => exact itemsBefore_stop _ h_stop
  | @cons u v s p first _ ih =>
    -- no statement begins with an end of input, which would stop the row
    obtain ⟨t, u, rfl, h_t⟩ := first.first
    have h_next : NextIsNot .endOfInput (t :: u ++ v ++ stop :: tail) := by
      rintro t' ⟨⟩
      exact h_t
    refine itemsBefore_step h_next ?_ ih
    rw [List.append_assoc]
    exact first.isRead (v ++ stop :: tail)

end Grammar

end ScriptLang
