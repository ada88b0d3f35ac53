import ScriptLang.Grammar.Reader

/-!
# What readers take

When the elementary readers succeed, and the steps of the two loops, as equations and equivalences
that no later proof has to open a reader for.

* `eq_ok_of_toOption`, `eq_error_of_some` — results that can be compared.
* `Reader.Takes` — whatever the reader takes off the front is related to its result.
* `Reader.Takes.chain`, `Reader.Takes.itemsBefore` — the two loops take what their parts take, one
  after the other.
* `Reader.chain_stop`, `chain_step`, `chain_error` — one turn of a chain.
* `Reader.itemsBefore_stop`, `itemsBefore_item`, `itemsBefore_error` — one turn of a row of items.
-/

namespace ScriptLang

/-- A result that can be compared tells what was computed. -/
theorem eq_ok_of_toOption {ε α : Type} {x : Except ε α} {a : α}
    (h : x.toOption = some a) : x = .ok a := by
  cases x <;> cases h
  rfl

/-- An error that can be compared tells how it failed. -/
theorem eq_error_of_some {ε α : Type} {x : Except ε α} {e : ε}
    (h : (match x with | .ok _ => none | .error e => some e) = some e) : x = .error e := by
  cases x <;> cases h
  rfl

namespace Reader

variable {α β ω : Type}

/-! ### Elementary readers -/

/-- A token that has to be there is taken exactly if it is of the right kind. -/
theorem expect_eq_ok {kind : TokenKind} {ts rest : List Token} {u : Unit} :
    expect kind ts = .ok (u, rest) ↔ ∃ t : Token, t.kind = kind ∧ ts = t :: rest := by
  cases ts with
  | nil => simp [expect, fail]
  | cons t ts =>
    by_cases h : t.kind = kind
    · simp only [expect, if_pos h]
      constructor
      · intro e
        cases e
        exact ⟨t, h, rfl⟩
      · rintro ⟨t', -, e⟩
        cases e
        rfl
    · simp only [expect, if_neg h, fail]
      constructor
      · intro e
        cases e
      · rintro ⟨t', h', e⟩
        cases e
        exact absurd h' h

/-- An identifier is taken for its text. -/
theorem identifier_eq_ok {ts rest : List Token} {name : String} :
    identifier ts = .ok (name, rest) ↔
      ∃ t : Token, t.kind = .identifier ∧ t.text = name ∧ ts = t :: rest := by
  cases ts with
  | nil => simp [identifier, fail]
  | cons t ts =>
    by_cases h : t.kind = .identifier
    · simp only [identifier, if_pos h]
      constructor
      · intro e
        cases e
        exact ⟨t, h, rfl, rfl⟩
      · rintro ⟨t', -, rfl, e⟩
        cases e
        rfl
    · simp only [identifier, if_neg h, fail]
      constructor
      · intro e
        cases e
      · rintro ⟨t', h', -, e⟩
        cases e
        exact absurd h' h

/-- The next token, if there is one, is not of the given kind. -/
def NextIsNot (kind : TokenKind) (ts : List Token) : Prop := ∀ t ∈ ts.head?, t.kind ≠ kind

/-- An optional token is taken if it is there, and nothing is taken otherwise. -/
theorem accept_eq_ok {kind : TokenKind} {ts rest : List Token} {b : Bool} :
    accept kind ts = .ok (b, rest) ↔
      (b = true ∧ ∃ t : Token, t.kind = kind ∧ ts = t :: rest) ∨
        (b = false ∧ rest = ts ∧ NextIsNot kind ts) := by
  cases ts with
  | nil =>
    simp only [accept, NextIsNot, Except.ok.injEq, Prod.mk.injEq]
    constructor
    · rintro ⟨rfl, rfl⟩
      refine .inr ⟨rfl, rfl, ?_⟩
      rintro t ⟨⟩
    · rintro (⟨-, _, _, h⟩ | ⟨rfl, rfl, -⟩)
      · cases h
      · exact ⟨rfl, rfl⟩
  | cons t ts =>
    by_cases h : t.kind = kind
    · simp only [accept, if_pos h, Except.ok.injEq, Prod.mk.injEq]
      constructor
      · rintro ⟨rfl, rfl⟩
        exact .inl ⟨rfl, t, h, rfl⟩
      · rintro (⟨rfl, t', -, e⟩ | ⟨rfl, rfl, h'⟩)
        · cases e
          exact ⟨rfl, rfl⟩
        · exact absurd h (h' t rfl)
    · simp only [accept, if_neg h, Except.ok.injEq, Prod.mk.injEq]
      constructor
      · rintro ⟨rfl, rfl⟩
        refine .inr ⟨rfl, rfl, ?_⟩
        rintro t' ⟨⟩
        exact h
      · rintro (⟨rfl, t', h', e⟩ | ⟨rfl, rfl, -⟩)
        · cases e
          exact absurd h' h
        · exact ⟨rfl, rfl⟩

/-- A result without reading. -/
theorem pure_eq_ok {a b : α} {ts rest : List Token} :
    (pure a : Reader α) ts = .ok (b, rest) ↔ b = a ∧ rest = ts := by
  constructor
  · intro h
    cases h
    exact ⟨rfl, rfl⟩
  · rintro ⟨rfl, rfl⟩
    rfl

/-- One reader after another fails if the first of them does, and else goes on with the second. -/
theorem bind_of_error {r : Reader α} {ts : List Token} {e : ParseError}
    (h : r ts = .error e) (f : α → Reader β) : (r >>= f) ts = .error e := by
  simp only [bind, StateT.bind, Except.bind, h]

theorem bind_of_ok {r : Reader α} {ts mid : List Token} {a : α} (h : r ts = .ok (a, mid))
    (f : α → Reader β) : (r >>= f) ts = f a mid := by
  simp only [bind, StateT.bind, Except.bind, h]

/-- Inside a production an error gets its name. -/
theorem within_of_error {r : Reader α} {ts : List Token} {e : ParseError} (h : r ts = .error e)
    (p : Production) : within p r ts = .error { e with path := p :: e.path } := by
  rw [within, h]
  rfl

/-- A token that has to be there, in front of another reader, is there if it comes first. -/
theorem expect_bind {kind : TokenKind} {t : Token} (h : t.kind = kind) (r : Reader α)
    (ts : List Token) : (do expect kind; r : Reader α) (t :: ts) = r ts := by
  have h_expect : expect kind (t :: ts) = .ok ((), ts) := expect_eq_ok.2 ⟨t, h, rfl⟩
  exact bind_of_ok h_expect _

/-! ### The loops -/

/-- A chain ends in front of a token that is no operator of it. -/
theorem chain_stop {operator : TokenKind → Option (α → ω → α)} (operand : Parser ω) (left : α)
    {ts : List Token} (h : ∀ t ∈ ts.head?, operator t.kind = none) :
    chain operator operand left ts = .ok (left, ts) := by
  cases ts with
  | nil => rw [chain]
  | cons t ts =>
    rw [chain]
    simp only [h t rfl]

/-- A chain goes on over an operator and its operand. -/
theorem chain_step {operator : TokenKind → Option (α → ω → α)} {operand : Parser ω} {left : α}
    {t : Token} {ts mid : List Token} {combine : α → ω → α} {right : ω}
    (h_operator : operator t.kind = some combine) (h_operand : operand.read ts = .ok (right, mid)) :
    chain operator operand left (t :: ts) = chain operator operand (combine left right) mid := by
  rw [chain]
  simp only [h_operator]
  -- the loop keeps the equation of its match for its termination, so the match is split by hand
  split
  · next h => rw [h_operand] at h; cases h
  · next h =>
    rw [h_operand] at h
    cases h
    rfl

/-- A chain fails as an operand of it fails. -/
theorem chain_error {operator : TokenKind → Option (α → ω → α)} {operand : Parser ω} {left : α}
    {t : Token} {ts : List Token} {combine : α → ω → α} {e : ParseError}
    (h_operator : operator t.kind = some combine) (h_operand : operand.read ts = .error e) :
    chain operator operand left (t :: ts) = .error e := by
  rw [chain]
  simp only [h_operator]
  split
  · next h =>
    rw [h_operand] at h
    cases h
    rfl
  · next h => rw [h_operand] at h; cases h

/-- A row of items ends in front of its stop. -/
theorem itemsBefore_stop {stop : TokenKind} (item : Parser α) {t : Token} {ts : List Token}
    (h : t.kind = stop) : itemsBefore stop item (t :: ts) = .ok ([], t :: ts) := by
  rw [itemsBefore]
  exact if_pos (congrArg some h)

/-- A row of items goes on over an item where the stop is not next. -/
theorem itemsBefore_item {stop : TokenKind} {item : Parser α} {ts mid : List Token} {a : α}
    (h_next : ¬ts.head?.map Token.kind = some stop) (h_item : item.read ts = .ok (a, mid)) :
    itemsBefore stop item ts = (itemsBefore stop item mid).map fun r => (a :: r.1, r.2) := by
  rw [itemsBefore, if_neg h_next]
  split
  · next h => rw [h_item] at h; cases h
  · next h =>
    rw [h_item] at h
    cases h
    rfl

/-- A row of items fails as an item of it fails. -/
theorem itemsBefore_error {stop : TokenKind} {item : Parser α} {ts : List Token} {e : ParseError}
    (h_next : ¬ts.head?.map Token.kind = some stop) (h_item : item.read ts = .error e) :
    itemsBefore stop item ts = .error e := by
  rw [itemsBefore, if_neg h_next]
  split
  · next h =>
    rw [h_item] at h
    cases h
    rfl
  · next h => rw [h_item] at h; cases h

/-- A row of items is read if its first item is, which does not begin with the stop, and the rest
is. -/
theorem itemsBefore_step {stop : TokenKind} {item : Parser α} {ts mid rest : List Token} {a : α}
    {as : List α} (h_next : NextIsNot stop ts) (h_item : item.read ts = .ok (a, mid))
    (h_rest : itemsBefore stop item mid = .ok (as, rest)) :
    itemsBefore stop item ts = .ok (a :: as, rest) := by
  have h_head : ¬ts.head?.map Token.kind = some stop := by
    intro e
    obtain ⟨t, h_t, h_kind⟩ := Option.map_eq_some_iff.1 e
    exact h_next t h_t h_kind
  rw [itemsBefore_item h_head h_item, h_rest]
  rfl

/-! ### Stretches of tokens -/

/-- **What a reader takes.** Whenever it succeeds, it has taken a stretch of tokens off the front
that stands in the given relation to its result. -/
def Takes (r : Reader α) (D : List Token → α → Prop) : Prop :=
  ∀ ⦃ts a rest⦄, r ts = .ok (a, rest) → ∃ w, ts = w ++ rest ∧ D w a

theorem Takes.within {r : Reader α} {D : List Token → α → Prop} (h : r.Takes D) (p : Production) :
    (r.within p).Takes D := fun _ _ _ e => h (within_eq_ok.1 e)

theorem takes_expect (kind : TokenKind) : (expect kind).Takes fun w _ =>
    ∃ t : Token, w = [t] ∧ t.kind = kind := by
  intro ts u rest h
  obtain ⟨t, h_kind, rfl⟩ := expect_eq_ok.1 h
  exact ⟨[t], rfl, t, rfl, h_kind⟩

theorem takes_identifier : identifier.Takes fun w name =>
    ∃ t : Token, w = [t] ∧ t.kind = .identifier ∧ t.text = name := by
  intro ts name rest h
  obtain ⟨t, h_kind, h_text, rfl⟩ := identifier_eq_ok.1 h
  exact ⟨[t], rfl, t, rfl, h_kind, h_text⟩

theorem takes_accept (kind : TokenKind) : (accept kind).Takes fun w b =>
    (b = true ∧ ∃ t : Token, w = [t] ∧ t.kind = kind) ∨ (b = false ∧ w = []) := by
  intro ts b rest h
  rcases accept_eq_ok.1 h with ⟨rfl, t, h_kind, rfl⟩ | ⟨rfl, rfl, _⟩
  · exact ⟨[t], rfl, .inl ⟨rfl, t, rfl, h_kind⟩⟩
  · exact ⟨[], rfl, .inr ⟨rfl, rfl⟩⟩

/-- **What a chain takes.** The relation `D` is to hold of what stands before the chain, and each
operator with its operand has to carry it on. -/
theorem Takes.chain {operator : TokenKind → Option (α → ω → α)} {operand : Parser ω}
    {E : List Token → ω → Prop} {D : List Token → α → Prop} (h_operand : operand.read.Takes E)
    (h_step : ∀ {u v left right t combine}, D u left → operator t.kind = some combine →
      E v right → D (u ++ t :: v) (combine left right)) {u : List Token} {left : α} (h : D u left) :
    Takes (chain operator operand left) fun w a => D (u ++ w) a := by
  intro ts
  fun_induction Reader.chain operator operand left ts generalizing u with
  | case1 left =>
    intro a rest e
    cases e
    refine ⟨[], rfl, ?_⟩
    show D (u ++ []) left
    rwa [List.append_nil]
  | case2 left t rest h_none =>
    intro a rest' e
    cases e
    refine ⟨[], rfl, ?_⟩
    show D (u ++ []) left
    rwa [List.append_nil]
  | case3 =>
    rintro a rest ⟨⟩
  | case4 left t ts combine h_some right mid read ih =>
    -- the operator and the operand move over to what stands before the chain
    intro a rest e
    obtain ⟨v, rfl, h_v⟩ := h_operand read
    obtain ⟨w, rfl, h_w⟩ := ih (h_step h h_some h_v) e
    refine ⟨t :: (v ++ w), by simp, ?_⟩
    show D (u ++ t :: (v ++ w)) a
    rwa [List.append_assoc, List.cons_append] at h_w

/-- **What a row of items takes.** The relation `D` is to hold of what stands before the row, and
each item has to carry it on. -/
theorem Takes.itemsBefore {stop : TokenKind} {item : Parser α} {E : List Token → α → Prop}
    {D : List Token → List α → Prop} (h_item : item.read.Takes E)
    (h_step : ∀ {u v as a}, D u as → E v a → D (u ++ v) (as ++ [a])) {u : List Token}
    {before : List α} (h : D u before) :
    Takes (itemsBefore stop item) fun w as => D (u ++ w) (before ++ as) := by
  intro ts
  fun_induction Reader.itemsBefore stop item ts generalizing u before with
  | case1 =>
    intro as rest e
    cases e
    refine ⟨[], rfl, ?_⟩
    show D (u ++ []) (before ++ [])
    rwa [List.append_nil, List.append_nil]
  | case2 =>
    rintro as rest ⟨⟩
  | case3 ts _ a mid read ih =>
    intro as rest e
    cases h_rest : Reader.itemsBefore stop item mid with
    | error err => rw [h_rest] at e; cases e
    | ok r =>
      rw [h_rest] at e
      cases e
      -- the item moves over to what stands before the row
      obtain ⟨v, rfl, h_v⟩ := h_item read
      obtain ⟨w, h_mid, h_w⟩ := ih (h_step h h_v) h_rest
      refine ⟨v ++ w, by rw [h_mid, List.append_assoc], ?_⟩
      show D (u ++ (v ++ w)) (before ++ a :: r.1)
      rwa [List.append_assoc, List.append_assoc] at h_w

/-- A row of items leaves off right in front of its stop. -/
theorem itemsBefore_head {stop : TokenKind} {item : Parser α} {ts rest : List Token}
    {as : List α} (h : itemsBefore stop item ts = .ok (as, rest)) :
    ∃ t : Token, ∃ tail, rest = t :: tail ∧ t.kind = stop := by
  fun_induction Reader.itemsBefore stop item ts generalizing as rest with
  | case1 ts h_head =>
    cases h
    obtain ⟨t, h_t, h_kind⟩ := Option.map_eq_some_iff.1 h_head
    obtain ⟨tail, rfl⟩ := List.head?_eq_some_iff.1 h_t
    exact ⟨t, tail, rfl, h_kind⟩
  | case2 => cases h
  | case3 ts _ a mid read ih =>
    cases h_rest : Reader.itemsBefore stop item mid with
    | error err => rw [h_rest] at h; cases h
    | ok r =>
      rw [h_rest] at h
      cases h
      exact ih h_rest

end Reader

end ScriptLang
