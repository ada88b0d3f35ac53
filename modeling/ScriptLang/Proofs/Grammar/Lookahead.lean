import ScriptLang.Proofs.Grammar.Readers

/-!
# How far readers look ahead

Readers never look further than the next token. So what they have read they read likewise in front
of any other tokens, if only the first of these is the same; and they fail at the first token that
they cannot use, so that whatever stands behind it makes no difference.

* `Reader.SameAt` — two readers that do the same by the next token.
* `Reader.Local` — a reader that looks one token ahead when it succeeds.
* `Reader.Early` — a reader that fails at the token it reports, all tokens in front of it being of
  use.
* `Reader.Local.chain`, `Reader.Local.itemsBefore`, `Reader.Early.chain` and
  `Reader.Early.itemsBefore` — the two loops look no further than their parts.
-/

namespace ScriptLang.Reader

variable {α β ω : Type}

/-- What comes first does not depend on what stands behind the next token. -/
private theorem head?_append_congr (w : List Token) {rest rest' : List Token}
    (h : rest'.head? = rest.head?) : (w ++ rest').head? = (w ++ rest).head? := by
  rw [List.head?_append, List.head?_append, h]

/-! ### The next token -/

/-- **Two readers do the same** wherever the next token is that of `ts`. -/
def SameAt (ts : List Token) (r r' : Reader α) : Prop :=
  ∀ ts', ts'.head? = ts.head? → r ts' = r' ts'

theorem sameAt_nil {r r' : Reader α} (h : r [] = r' []) : SameAt [] r r' := by
  intro ts' h_head
  rw [List.head?_eq_none_iff.1 h_head]
  exact h

theorem sameAt_cons {r r' : Reader α} {t : Token} (h : ∀ ts, r (t :: ts) = r' (t :: ts))
    (ts : List Token) : SameAt (t :: ts) r r' := by
  intro ts' h_head
  obtain ⟨ts'', rfl⟩ := List.head?_eq_some_iff.1 h_head
  exact h ts''

/-! ### Looking one token ahead -/

/-- **A reader that looks one token ahead:** in front of other tokens, of which the first is the
same, it takes the same and gives the same. -/
def Local (r : Reader α) : Prop := ∀ ⦃ts a rest⦄, r ts = .ok (a, rest) →
  ∃ w, ts = w ++ rest ∧ ∀ rest', rest'.head? = rest.head? → r (w ++ rest') = .ok (a, rest')

theorem local_fail (cause : ParseError.Cause) : (fail cause : Reader α).Local := by
  rintro ts a rest ⟨⟩

theorem local_pure (a : α) : (pure a : Reader α).Local := by
  intro ts b rest h
  obtain ⟨rfl, rfl⟩ := pure_eq_ok.1 h
  exact ⟨[], rfl, fun _ _ => rfl⟩

theorem local_expect (kind : TokenKind) : (expect kind).Local := by
  intro ts u rest h
  obtain ⟨t, h_kind, rfl⟩ := expect_eq_ok.1 h
  exact ⟨[t], rfl, fun rest' _ => expect_eq_ok.2 ⟨t, h_kind, rfl⟩⟩

theorem local_identifier : identifier.Local := by
  intro ts name rest h
  obtain ⟨t, h_kind, h_text, rfl⟩ := identifier_eq_ok.1 h
  exact ⟨[t], rfl, fun rest' _ => identifier_eq_ok.2 ⟨t, h_kind, h_text, rfl⟩⟩

theorem local_accept (kind : TokenKind) : (accept kind).Local := by
  intro ts b rest h
  rcases accept_eq_ok.1 h with ⟨rfl, t, h_kind, rfl⟩ | ⟨rfl, rfl, h_next⟩
  · exact ⟨[t], rfl, fun rest' _ => accept_eq_ok.2 (.inl ⟨rfl, t, h_kind, rfl⟩)⟩
  · -- nothing is taken, because of the next token
    refine ⟨[], rfl, fun rest' h_head => accept_eq_ok.2 (.inr ⟨rfl, rfl, fun t h_t => ?_⟩)⟩
    rw [List.nil_append, h_head] at h_t
    exact h_next t h_t

theorem Local.within {r : Reader α} (h : r.Local) (p : Production) : (r.within p).Local := by
  intro ts a rest h_read
  obtain ⟨w, h_ts, h_again⟩ := h (within_eq_ok.1 h_read)
  exact ⟨w, h_ts, fun rest' h_head => within_eq_ok.2 (h_again rest' h_head)⟩

theorem Local.bind {r : Reader α} {f : α → Reader β} (h : r.Local) (h_f : ∀ a, (f a).Local) :
    (r >>= f).Local := by
  intro ts b rest h_read
  obtain ⟨a, mid, h_first, h_second⟩ := bind_eq_ok.1 h_read
  obtain ⟨w, rfl, h_w⟩ := h h_first
  obtain ⟨v, rfl, h_v⟩ := h_f a h_second
  refine ⟨w ++ v, (List.append_assoc ..).symm, fun rest' h_head => ?_⟩
  rw [List.append_assoc]
  exact bind_eq_ok.2 ⟨a, v ++ rest', h_w _ (head?_append_congr v h_head), h_v rest' h_head⟩

theorem Local.chain {operator : TokenKind → Option (α → ω → α)} {operand : Parser ω}
    (h : operand.read.Local) (left : α) : Local (chain operator operand left) := by
  intro ts
  fun_induction Reader.chain operator operand left ts with
  | case1 left =>
    intro a rest h_read
    cases h_read
    refine ⟨[], rfl, fun rest' h_head => chain_stop _ _ fun t h_t => ?_⟩
    rw [List.nil_append, h_head] at h_t
    cases h_t
  | case2 left t rest h_none =>
    intro a rest' h_read
    cases h_read
    refine ⟨[], rfl, fun rest' h_head => chain_stop _ _ fun t' h_t => ?_⟩
    rw [List.nil_append, h_head] at h_t
    cases h_t
    exact h_none
  | case3 =>
    rintro a rest ⟨⟩
  | case4 left t ts combine h_some right mid read ih =>
    intro a rest h_read
    obtain ⟨w, rfl, h_w⟩ := h read
    obtain ⟨v, rfl, h_v⟩ := ih h_read
    refine ⟨t :: (w ++ v), by rw [List.cons_append, List.append_assoc], fun rest' h_head => ?_⟩
    rw [List.cons_append, List.append_assoc,
      chain_step h_some (h_w _ (head?_append_congr v h_head))]
    exact h_v rest' h_head

theorem Local.itemsBefore {stop : TokenKind} {item : Parser α} (h : item.read.Local) :
    Local (itemsBefore stop item) := by
  intro ts
  fun_induction Reader.itemsBefore stop item ts with
  | case1 ts h_stop =>
    intro as rest h_read
    cases h_read
    refine ⟨[], rfl, fun rest' h_head => ?_⟩
    rw [List.nil_append, Reader.itemsBefore, if_pos]
    rw [h_head, h_stop]
  | case2 =>
    rintro as rest ⟨⟩
  | case3 ts h_next a mid read ih =>
    intro as rest h_read
    cases h_rest : Reader.itemsBefore stop item mid with
    | error e => rw [h_rest] at h_read; cases h_read
    | ok r =>
      rw [h_rest] at h_read
      cases h_read
      obtain ⟨w, rfl, h_w⟩ := h read
      obtain ⟨v, rfl, h_v⟩ := ih h_rest
      refine ⟨w ++ v, (List.append_assoc ..).symm, fun rest' h_head => ?_⟩
      have h_first := head?_append_congr v h_head
      -- the item is not the stop in front of the other tokens either
      have h_next' : ¬(w ++ (v ++ rest')).head?.map Token.kind = some stop := by
        rw [head?_append_congr w h_first]
        exact h_next
      rw [List.append_assoc, itemsBefore_item h_next' (h_w _ h_first), h_v rest' h_head]
      rfl

/-- A reader that does, by the token that comes first, as one or another reader does. Where there is
no token it takes none, if it keeps to those there are. -/
theorem Local.of_head {r : Reader α} (h_keeps : r.Keeps)
    (h : ∀ t ts, ∃ r' : Reader α, r'.Local ∧ SameAt (t :: ts) r r') : r.Local := by
  intro ts a rest h_read
  cases ts with
  | nil =>
    obtain rfl : rest = [] := List.eq_nil_of_length_eq_zero (Nat.le_zero.1 (h_keeps h_read))
    refine ⟨[], rfl, fun rest' h_head => ?_⟩
    obtain rfl : rest' = [] := List.head?_eq_none_iff.1 h_head
    exact h_read
  | cons t ts =>
    obtain ⟨r', h_r', h_same⟩ := h t ts
    rw [h_same (t :: ts) rfl] at h_read
    obtain ⟨w, h_ts, h_w⟩ := h_r' h_read
    refine ⟨w, h_ts, fun rest' h_head => ?_⟩
    rw [h_same _ (h_ts ▸ head?_append_congr w h_head)]
    exact h_w rest' h_head

/-! ### Failing early -/

/-- **A reader that fails early:** the tokens in front of the one that its error reports are of use,
in the sense of `V`, and with this token behind them it fails in the same way whatever follows. -/
def Early (r : Reader α) (V : List Token → Prop) : Prop := ∀ ⦃ts e⦄, r ts = .error e →
  ∃ pre post, ts = pre ++ post ∧ e.found = post.head? ∧ V pre ∧
    ∀ t ∈ post.head?, ∀ ext, r (pre ++ t :: ext) = .error e

variable {V : List Token → Prop}

theorem Early.mono {r : Reader α} {V' : List Token → Prop} (h : r.Early V)
    (le : ∀ pre, V pre → V' pre) : r.Early V' := by
  intro ts e h_error
  obtain ⟨pre, post, h_ts, h_found, h_pre, h_again⟩ := h h_error
  exact ⟨pre, post, h_ts, h_found, le pre h_pre, h_again⟩

/-- A reader that fails at once, because of the next token. -/
theorem early_of_head {r : Reader α} (h : V [])
    (h_head : ∀ ts e, r ts = .error e → e.found = ts.head? ∧
      ∀ t ∈ ts.head?, ∀ ext, r (t :: ext) = .error e) : r.Early V := by
  intro ts e h_error
  obtain ⟨h_found, h_again⟩ := h_head ts e h_error
  exact ⟨[], ts, rfl, h_found, h, h_again⟩

theorem early_fail (cause : ParseError.Cause) (h : V []) : (fail cause : Reader α).Early V := by
  refine early_of_head h fun ts e h_error => ?_
  cases h_error
  refine ⟨rfl, fun t h_t ext => ?_⟩
  unfold fail
  rw [h_t]
  rfl

theorem early_pure (a : α) : (pure a : Reader α).Early V := by
  rintro ts e ⟨⟩

theorem early_expect (kind : TokenKind) (h : V []) : (expect kind).Early V := by
  refine early_of_head h fun ts e h_error => ?_
  cases ts with
  | nil =>
    cases h_error
    exact ⟨rfl, by rintro t ⟨⟩⟩
  | cons t ts =>
    by_cases h_kind : t.kind = kind
    · rw [expect, if_pos h_kind] at h_error
      cases h_error
    · rw [expect, if_neg h_kind] at h_error
      cases h_error
      refine ⟨rfl, ?_⟩
      rintro t' ⟨⟩ ext
      rw [expect, if_neg h_kind]
      rfl

theorem early_identifier (h : V []) : identifier.Early V := by
  refine early_of_head h fun ts e h_error => ?_
  cases ts with
  | nil =>
    cases h_error
    exact ⟨rfl, by rintro t ⟨⟩⟩
  | cons t ts =>
    by_cases h_kind : t.kind = .identifier
    · rw [identifier, if_pos h_kind] at h_error
      cases h_error
    · rw [identifier, if_neg h_kind] at h_error
      cases h_error
      refine ⟨rfl, ?_⟩
      rintro t' ⟨⟩ ext
      rw [identifier, if_neg h_kind]
      rfl

/-- An optional token is never missed. -/
theorem early_accept (kind : TokenKind) : (accept kind).Early V := by
  intro ts e h_error
  cases ts with
  | nil => cases h_error
  | cons t ts =>
    rw [accept] at h_error
    split at h_error <;> cases h_error

theorem Early.within {r : Reader α} (h : r.Early V) (p : Production) : (r.within p).Early V := by
  intro ts e h_error
  unfold Reader.within at h_error
  cases h_read : r ts with
  | ok result => rw [h_read] at h_error; cases h_error
  | error e' =>
    rw [h_read] at h_error
    cases h_error
    obtain ⟨pre, post, h_ts, h_found, h_pre, h_again⟩ := h h_read
    refine ⟨pre, post, h_ts, h_found, h_pre, fun t h_t ext => ?_⟩
    unfold Reader.within
    rw [h_again t h_t ext]
    rfl

theorem Early.of_head {r : Reader α} (h : ∀ ts, ∃ r' : Reader α, r'.Early V ∧ SameAt ts r r') :
    r.Early V := by
  intro ts e h_error
  obtain ⟨r', h_r', h_same⟩ := h ts
  rw [h_same ts rfl] at h_error
  obtain ⟨pre, post, rfl, h_found, h_pre, h_again⟩ := h_r' h_error
  refine ⟨pre, post, rfl, h_found, h_pre, fun t h_t ext => ?_⟩
  have h_head : (t :: ext).head? = post.head? := (Option.mem_def.1 h_t).symm
  rw [h_same _ (head?_append_congr pre h_head)]
  exact h_again t h_t ext

/-- What a reader has taken, in the one sense and in the other. -/
theorem Local.takes {r : Reader α} {D : List Token → α → Prop} (h : r.Local) (h_D : r.Takes D)
    {ts rest : List Token} {a : α} (h_read : r ts = .ok (a, rest)) :
    ∃ w, ts = w ++ rest ∧ D w a ∧
      ∀ rest', rest'.head? = rest.head? → r (w ++ rest') = .ok (a, rest') := by
  obtain ⟨w, rfl, h_again⟩ := h h_read
  obtain ⟨w', h_w', h_a⟩ := h_D h_read
  obtain rfl := List.append_cancel_right h_w'
  exact ⟨w, rfl, h_a, h_again⟩

/-- **One reader after another** fails early, if what the first has taken is of use for the second
to go on from. -/
theorem Early.bind {r : Reader α} {f : α → Reader β} {D : List Token → α → Prop} (h : r.Early V)
    (h_local : r.Local) (h_takes : r.Takes D)
    (h_f : ∀ w a, D w a → (f a).Early fun pre => V (w ++ pre)) : (r >>= f).Early V := by
  intro ts e h_error
  cases h_read : r ts with
  | error e' =>
    rw [bind_of_error h_read] at h_error
    cases h_error
    obtain ⟨pre, post, h_ts, h_found, h_pre, h_again⟩ := h h_read
    exact ⟨pre, post, h_ts, h_found, h_pre, fun t h_t ext => bind_of_error (h_again t h_t ext) f⟩
  | ok result =>
    obtain ⟨a, mid⟩ := result
    rw [bind_of_ok h_read] at h_error
    obtain ⟨w, rfl, h_a, h_first⟩ := h_local.takes h_takes h_read
    obtain ⟨pre, post, rfl, h_found, h_pre, h_again⟩ := h_f w a h_a h_error
    refine ⟨w ++ pre, post, (List.append_assoc ..).symm, h_found, h_pre, fun t h_t ext => ?_⟩
    -- the first reader sees the same next token, and the second fails as before
    have h_head : (t :: ext).head? = post.head? := (Option.mem_def.1 h_t).symm
    rw [List.append_assoc, bind_of_ok (h_first _ (head?_append_congr pre h_head))]
    exact h_again t h_t ext

/-- A token that has to be there, and what is read behind it. -/
theorem early_expect_then {kind : TokenKind} {r : Reader β} (h : V [])
    (h_then : ∀ t : Token, t.kind = kind → r.Early fun pre => V (t :: pre)) :
    (do expect kind; r : Reader β).Early V := by
  refine (early_expect kind h).bind (local_expect kind) (takes_expect kind) ?_
  rintro w u ⟨t, rfl, h_kind⟩
  exact h_then t h_kind

/-- An identifier, and what is read behind it. -/
theorem early_identifier_then {f : String → Reader β} (h : V [])
    (h_then : ∀ t : Token, t.kind = .identifier → (f t.text).Early fun pre => V (t :: pre)) :
    (identifier >>= f).Early V := by
  refine (early_identifier h).bind local_identifier takes_identifier ?_
  rintro w name ⟨t, rfl, h_kind, rfl⟩
  exact h_then t h_kind

/-- A token that may be there, and what is read behind it or without it. -/
theorem early_accept_then {kind : TokenKind} {f : Bool → Reader β}
    (h_with : ∀ t : Token, t.kind = kind → (f true).Early fun pre => V (t :: pre))
    (h_without : (f false).Early V) : (accept kind >>= f).Early V := by
  refine (early_accept kind).bind (local_accept kind) (takes_accept kind) ?_
  rintro w b (⟨rfl, t, rfl, h_kind⟩ | ⟨rfl, rfl⟩)
  · exact h_with t h_kind
  · exact h_without

/-- **A chain fails early** if its operands do. The relation `D` is to hold of what stands before
the chain, as in `Takes.chain`. -/
theorem Early.chain {operator : TokenKind → Option (α → ω → α)} {operand : Parser ω}
    {E : List Token → ω → Prop} {D : List Token → α → Prop} {U : List Token → Prop}
    (h_operand : operand.read.Early U) (h_local : operand.read.Local)
    (h_takes : operand.read.Takes E)
    (h_step : ∀ {u v left right t combine}, D u left → operator t.kind = some combine →
      E v right → D (u ++ t :: v) (combine left right))
    (h_use : ∀ {u left t combine pre}, D u left → operator t.kind = some combine → U pre →
      V (u ++ t :: pre)) {u : List Token} {left : α} (h : D u left) :
    Early (chain operator operand left) fun pre => V (u ++ pre) := by
  intro ts
  fun_induction Reader.chain operator operand left ts generalizing u with
  | case1 =>
    rintro e ⟨⟩
  | case2 =>
    rintro e ⟨⟩
  | case3 left t rest combine h_some e read =>
    rintro e' ⟨⟩
    obtain ⟨pre, post, rfl, h_found, h_pre, h_again⟩ := h_operand read
    refine ⟨t :: pre, post, rfl, h_found, h_use h h_some h_pre, fun t' h_t' ext => ?_⟩
    exact chain_error h_some (h_again t' h_t' ext)
  | case4 left t rest combine h_some right mid read ih =>
    intro e h_error
    obtain ⟨v, rfl, h_v, h_first⟩ := h_local.takes h_takes read
    -- the operator and the operand move over to what stands before the chain
    obtain ⟨pre, post, rfl, h_found, h_pre, h_again⟩ := ih (h_step h h_some h_v) h_error
    refine ⟨t :: (v ++ pre), post, ?_, h_found, ?_, fun t' h_t' ext => ?_⟩
    · rw [List.cons_append, List.append_assoc]
    · rw [List.append_assoc, List.cons_append] at h_pre
      exact h_pre
    · have h_head : (t' :: ext).head? = post.head? := (Option.mem_def.1 h_t').symm
      rw [List.cons_append, List.append_assoc,
        chain_step h_some (h_first _ (head?_append_congr pre h_head))]
      exact h_again t' h_t' ext

/-- **A row of items fails early** if its items do. -/
theorem Early.itemsBefore {stop : TokenKind} {item : Parser α} {E : List Token → α → Prop}
    {D : List Token → List α → Prop} {U : List Token → Prop} (h_item : item.read.Early U)
    (h_local : item.read.Local) (h_takes : item.read.Takes E)
    (h_step : ∀ {u v as a}, D u as → E v a → D (u ++ v) (as ++ [a]))
    (h_use : ∀ {u as pre}, D u as → U pre → V (u ++ pre)) {u : List Token} {before : List α}
    (h : D u before) : Early (itemsBefore stop item) fun pre => V (u ++ pre) := by
  intro ts
  fun_induction Reader.itemsBefore stop item ts generalizing u before with
  | case1 =>
    rintro e ⟨⟩
  | case2 ts h_next e read =>
    rintro e' ⟨⟩
    obtain ⟨pre, post, rfl, h_found, h_pre, h_again⟩ := h_item read
    refine ⟨pre, post, rfl, h_found, h_use h h_pre, fun t h_t ext => ?_⟩
    have h_head : (t :: ext).head? = post.head? := (Option.mem_def.1 h_t).symm
    refine itemsBefore_error ?_ (h_again t h_t ext)
    rw [head?_append_congr pre h_head]
    exact h_next
  | case3 ts h_next a mid read ih =>
    intro e h_error
    cases h_rest : Reader.itemsBefore stop item mid with
    | ok r => rw [h_rest] at h_error; cases h_error
    | error e' =>
      rw [h_rest] at h_error
      cases h_error
      obtain ⟨v, rfl, h_v, h_first⟩ := h_local.takes h_takes read
      obtain ⟨pre, post, rfl, h_found, h_pre, h_again⟩ := ih (h_step h h_v) h_rest
      refine ⟨v ++ pre, post, (List.append_assoc ..).symm, h_found, ?_, fun t h_t ext => ?_⟩
      · rw [List.append_assoc] at h_pre
        exact h_pre
      · have h_head : (t :: ext).head? = post.head? := (Option.mem_def.1 h_t).symm
        have h_same := head?_append_congr pre h_head
        have h_next' : ¬(v ++ (pre ++ t :: ext)).head?.map Token.kind = some stop := by
          rw [head?_append_congr v h_same]
          exact h_next
        rw [List.append_assoc, itemsBefore_item h_next' (h_first _ h_same), h_again t h_t ext]
        rfl

end ScriptLang.Reader
