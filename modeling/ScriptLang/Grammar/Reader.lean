import ScriptLang.Grammar.Error

/-!
# Reading tokens

A `Reader` takes tokens from the front of a list and gives a result and the tokens that are left,
or it stops with an error at the first token it could not use. A `Parser` is a reader that always
takes something, which is what lets the loops below end.

* `Reader.itemsBefore` — items one after the other up to a token of a given kind.
* `Reader.chain` — operands joined by operators, grouped from the left.
-/

namespace ScriptLang

/-- Reads a result off the front of a list of tokens. -/
abbrev Reader := StateT (List Token) (Except ParseError)

namespace Reader

variable {α β : Type}

/-! ### Elementary readers -/

/-- Stops with an error at the current token. -/
def fail (cause : ParseError.Cause) : Reader α := fun ts => .error ⟨cause, [], ts.head?⟩

/-- Reads inside a production, which errors then name as the outer one. -/
def within (p : Production) (r : Reader α) : Reader α := fun ts =>
  (r ts).mapError fun e => { e with path := p :: e.path }

/-- Takes a token of the given kind if there is one, and says whether it did. -/
def accept (kind : TokenKind) : Reader Bool
  | [] => .ok (false, [])
  | t :: ts => if t.kind = kind then .ok (true, ts) else .ok (false, t :: ts)

/-- Takes a token of the given kind, which has to be there. -/
def expect (kind : TokenKind) : Reader Unit
  | [] => fail (.expected kind) []
  | t :: ts => if t.kind = kind then .ok ((), ts) else fail (.expected kind) (t :: ts)

/-- Takes an identifier, which has to be there, for its text. -/
def identifier : Reader String
  | [] => fail .expectedIdentifier []
  | t :: ts => if t.kind = .identifier then .ok (t.text, ts) else fail .expectedIdentifier (t :: ts)

/-! ### How much a reader takes -/

/-- The reader never gives back more tokens than it got. -/
def Keeps (r : Reader α) : Prop :=
  ∀ ⦃ts a rest⦄, r ts = .ok (a, rest) → rest.length ≤ ts.length

/-- The reader always takes at least one token. -/
def Shortens (r : Reader α) : Prop :=
  ∀ ⦃ts a rest⦄, r ts = .ok (a, rest) → rest.length < ts.length

theorem Shortens.keeps {r : Reader α} (h : r.Shortens) : r.Keeps := fun _ _ _ e =>
  Nat.le_of_lt (h e)

/-- What it takes for one reader after another to succeed. -/
theorem bind_eq_ok {r : Reader α} {f : α → Reader β} {ts : List Token} {b : β}
    {rest : List Token} :
    (r >>= f) ts = .ok (b, rest) ↔ ∃ a mid, r ts = .ok (a, mid) ∧ f a mid = .ok (b, rest) := by
  cases h : r ts with
  | error e => simp [bind, StateT.bind, Except.bind, h]
  | ok x => cases x; simp [bind, StateT.bind, Except.bind, h, and_assoc]

theorem within_eq_ok {p : Production} {r : Reader α} {ts : List Token} {a : α}
    {rest : List Token} : within p r ts = .ok (a, rest) ↔ r ts = .ok (a, rest) := by
  unfold within
  cases r ts with
  | ok x => exact Iff.rfl
  | error e =>
    constructor
    · rintro ⟨⟩
    · rintro ⟨⟩

theorem shortens_fail (c : ParseError.Cause) : (fail c : Reader α).Shortens := nofun

theorem keeps_pure (a : α) : (pure a : Reader α).Keeps := by
  intro ts b rest h
  cases h
  exact Nat.le_refl _

theorem keeps_accept (kind : TokenKind) : (accept kind).Keeps := by
  intro ts b rest h
  cases ts with
  | nil => cases h; exact Nat.le_refl _
  | cons t ts =>
    simp only [accept] at h
    split at h <;> cases h <;> simp

theorem shortens_expect (kind : TokenKind) : (expect kind).Shortens := by
  intro ts b rest h
  cases ts with
  | nil => cases h
  | cons t ts =>
    simp only [expect] at h
    split at h <;> cases h
    exact Nat.lt_succ_self _

theorem shortens_identifier : identifier.Shortens := by
  intro ts b rest h
  cases ts with
  | nil => cases h
  | cons t ts =>
    simp only [identifier] at h
    split at h <;> cases h
    exact Nat.lt_succ_self _

theorem Keeps.within {r : Reader α} (h : r.Keeps) (p : Production) : (r.within p).Keeps :=
  fun _ _ _ e => h (within_eq_ok.1 e)

theorem Shortens.within {r : Reader α} (h : r.Shortens) (p : Production) :
    (r.within p).Shortens :=
  fun _ _ _ e => h (within_eq_ok.1 e)

theorem Keeps.bind {r : Reader α} {f : α → Reader β} (hr : r.Keeps) (hf : ∀ a, (f a).Keeps) :
    (r >>= f).Keeps := fun _ _ _ e =>
  let ⟨a, _, h, h'⟩ := bind_eq_ok.1 e
  Nat.le_trans (hf a h') (hr h)

theorem Shortens.bind {r : Reader α} {f : α → Reader β} (hr : r.Shortens)
    (hf : ∀ a, (f a).Keeps) : (r >>= f).Shortens := fun _ _ _ e =>
  let ⟨a, _, h, h'⟩ := bind_eq_ok.1 e
  Nat.lt_of_le_of_lt (hf a h') (hr h)

theorem Keeps.bind_shortens {r : Reader α} {f : α → Reader β} (hr : r.Keeps)
    (hf : ∀ a, (f a).Shortens) : (r >>= f).Shortens := fun _ _ _ e =>
  let ⟨a, _, h, h'⟩ := bind_eq_ok.1 e
  Nat.lt_of_lt_of_le (hf a h') (hr h)

end Reader

/-! ### Parsers -/

/-- **A reader that always takes something.** -/
structure Parser (α : Type) where
  read : Reader α
  shortens : read.Shortens

namespace Reader

variable {α : Type}

/-- Items one after the other, up to a token of the given kind, which is not taken. -/
def itemsBefore (stop : TokenKind) (item : Parser α) (ts : List Token) :
    Except ParseError (List α × List Token) :=
  if ts.head?.map Token.kind = some stop then .ok ([], ts)
  else
    match _h : item.read ts with
    | .error e => .error e
    | .ok (a, rest) => (itemsBefore stop item rest).map fun r => (a :: r.1, r.2)
-- every item takes at least one token
termination_by ts.length
decreasing_by exact item.shortens _h

/-- Goes on after `left` with operators and operands, as long as there is an operator. Each
operator says how to combine what stands before it with its operand, so chains group from the
left. -/
def chain {ω : Type} (operator : TokenKind → Option (α → ω → α)) (operand : Parser ω) (left : α)
    (ts : List Token) : Except ParseError (α × List Token) :=
  match ts with
  | [] => .ok (left, [])
  | t :: rest =>
    match operator t.kind with
    | none => .ok (left, t :: rest)
    | some combine =>
      match _h : operand.read rest with
      | .error e => .error e
      | .ok (right, rest') => chain operator operand (combine left right) rest'
termination_by ts.length
decreasing_by exact Nat.lt_succ_of_lt (operand.shortens _h)

theorem keeps_itemsBefore (stop : TokenKind) (item : Parser α) :
    Keeps (itemsBefore stop item) := by
  intro ts
  fun_induction itemsBefore stop item ts with
  | case1 => intro a rest h; cases h; exact Nat.le_refl _
  | case2 => nofun
  | case3 ts _ a mid read ih =>
    intro as rest h
    cases hr : itemsBefore stop item mid with
    | error e => rw [hr] at h; cases h
    | ok r =>
      rw [hr] at h
      cases h
      exact Nat.le_trans (ih hr) (Nat.le_of_lt (item.shortens read))

theorem keeps_chain {ω : Type} (operator : TokenKind → Option (α → ω → α)) (operand : Parser ω)
    (left : α) : Keeps (chain operator operand left) := by
  intro ts
  fun_induction chain operator operand left ts with
  | case1 => intro a rest h; cases h; exact Nat.le_refl _
  | case2 => intro a rest h; cases h; exact Nat.le_refl _
  | case3 => nofun
  | case4 left t ts combine _ right mid read ih =>
    intro a rest h
    exact Nat.le_trans (ih h) (Nat.le_succ_of_le (Nat.le_of_lt (operand.shortens read)))

end Reader

end ScriptLang
