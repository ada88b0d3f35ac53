import ScriptLang.Proofs.Grammar.Law

/-!
# Reading stays in front of the end of input

No parser takes an end of input, and none looks further than the next token. So in front of an end
of input they take some of the tokens there, or they fail at one of these or at the end itself, and
what stands behind the end makes no difference. There is always a next token for them to look at.

* `Reader.StaysBefore` — what a reader does in front of an end of input.
* `Reader.Confined` — a reader that does so in front of every end of input, closed under sequencing
  and both loops.
* `confined_program` — the parsers of programs.
-/

namespace ScriptLang

namespace Reader

variable {α β ω : Type}

/-- **A reader stays in front of an end of input:** it takes tokens in front of it or fails at one
of them or at the end, in the same way whatever stands behind. Where there is still a token, it
never fails for want of an end. -/
inductive StaysBefore (r : Reader α) (body : List Token) (stop : Token) : Prop
  | takes (a : α) (w rest : List Token) (h_body : body = w ++ rest)
    (h_read : ∀ tail, r (body ++ stop :: tail) = .ok (a, rest ++ stop :: tail))
  | fails (e : ParseError) (h_cause : e.cause ≠ .expected .endOfInput)
    (h_found : ∃ t ∈ body ++ [stop], e.found = some t)
    (h_read : ∀ tail, r (body ++ stop :: tail) = .error e)

/-- There is no end of input among the tokens. -/
def Endless (ts : List Token) : Prop := ∀ t ∈ ts, t.kind ≠ .endOfInput

/-- **A reader that never gets past an end of input.** -/
def Confined (r : Reader α) : Prop :=
  ∀ ⦃body stop⦄, Endless body → stop.kind = .endOfInput → r.StaysBefore body stop

theorem Endless.of_append {w rest : List Token} (h : Endless (w ++ rest)) : Endless rest :=
  fun t h_t => h t (List.mem_append_right w h_t)

/-- A reader that goes on, behind some of the tokens, as another one does there. -/
theorem StaysBefore.behind {r r' : Reader α} {body rest : List Token} {stop : Token}
    (w : List Token) (h_body : body = w ++ rest)
    (h_read : ∀ tail, r (body ++ stop :: tail) = r' (rest ++ stop :: tail))
    (h : r'.StaysBefore rest stop) : r.StaysBefore body stop := by
  cases h with
  | takes a v rest' h_rest h_read' =>
    refine .takes a (w ++ v) rest' ?_ fun tail => (h_read tail).trans (h_read' tail)
    rw [h_body, h_rest, List.append_assoc]
  | fails e h_cause h_found h_read' =>
    obtain ⟨t, h_t, h_found⟩ := h_found
    refine .fails e h_cause ⟨t, ?_, h_found⟩ fun tail => (h_read tail).trans (h_read' tail)
    rw [h_body, List.append_assoc]
    exact List.mem_append_right w h_t

/-- Making something else of what is read. -/
theorem StaysBefore.map {r : Reader α} {body : List Token} {stop : Token}
    (h : r.StaysBefore body stop) (g : α → β) :
    StaysBefore (fun ts => (r ts).map fun x => (g x.1, x.2)) body stop := by
  cases h with
  | takes a w rest h_body h_read =>
    exact .takes (g a) w rest h_body fun tail => congrArg (Except.map _) (h_read tail)
  | fails e h_cause h_found h_read =>
    exact .fails e h_cause h_found fun tail => congrArg (Except.map _) (h_read tail)

/-! ### Elementary readers -/

/-- What comes first in front of an end of input, be it the end itself, does not depend on what
stands behind. -/
private theorem exists_first (body : List Token) (stop : Token) :
    ∃ t ∈ body ++ [stop], ∀ tail, (body ++ stop :: tail).head? = some t := by
  cases body with
  | nil => exact ⟨stop, List.mem_singleton_self stop, fun _ => rfl⟩
  | cons t body => exact ⟨t, List.mem_cons_self, fun _ => rfl⟩

theorem confined_pure (a : α) : (pure a : Reader α).Confined :=
  fun body _ _ _ => .takes a [] body rfl fun _ => rfl

theorem confined_fail {cause : ParseError.Cause} (h : cause ≠ .expected .endOfInput) :
    (fail cause : Reader α).Confined := by
  intro body stop _ _
  obtain ⟨t, h_t, h_head⟩ := exists_first body stop
  refine .fails ⟨cause, [], some t⟩ h ⟨t, h_t, rfl⟩ fun tail => ?_
  rw [fail, h_head tail]

/-- A reader that does, by the token that comes first, as one or another reader does. What it does
without a token has no part in it, since there always is one. -/
theorem Confined.of_head {r : Reader α}
    (h : ∀ t ts, ∃ r' : Reader α, r'.Confined ∧ SameAt (t :: ts) r r') : r.Confined := by
  intro body stop h_body h_stop
  obtain ⟨t, -, h_head⟩ := exists_first body stop
  obtain ⟨r', h_r', h_same⟩ := h t []
  have h_read : ∀ tail, r (body ++ stop :: tail) = r' (body ++ stop :: tail) :=
    fun tail => h_same _ (h_head tail)
  exact (h_r' h_body h_stop).behind [] rfl h_read

/-- A reader that takes the next token if that is of some use to it, which an end of input never is,
and does as another one does if it is not. -/
private theorem confined_of_use {r s : Reader α} {P : Token → Prop} {f : Token → α}
    (h_end : ∀ t, P t → t.kind ≠ .endOfInput) (h_use : ∀ t ts, P t → r (t :: ts) = .ok (f t, ts))
    (h_other : ∀ t ts, ¬P t → r (t :: ts) = s (t :: ts)) (h : s.Confined) : r.Confined := by
  intro body stop h_body h_stop
  cases body with
  | nil =>
    -- the end itself comes first, and it is of no use
    have h_useless : ¬P stop := fun h_use => h_end stop h_use h_stop
    exact (h h_body h_stop).behind [] rfl fun tail => h_other stop tail h_useless
  | cons t body =>
    by_cases h_t : P t
    · exact .takes (f t) [t] body rfl fun tail => h_use t _ h_t
    · exact (h h_body h_stop).behind [] rfl fun tail => h_other t _ h_t

theorem confined_expect {kind : TokenKind} (h : kind ≠ .endOfInput) : (expect kind).Confined := by
  have h_cause : ParseError.Cause.expected kind ≠ .expected .endOfInput :=
    fun h_eq => h (ParseError.Cause.expected.inj h_eq)
  exact confined_of_use (P := fun t => t.kind = kind) (fun _ h_t => h_t ▸ h)
    (fun _ _ h_t => if_pos h_t) (fun _ _ h_t => if_neg h_t) (confined_fail h_cause)

theorem confined_identifier : identifier.Confined :=
  confined_of_use (P := fun t => t.kind = .identifier) (fun _ h_t => h_t ▸ by decide)
    (fun _ _ h_t => if_pos h_t) (fun _ _ h_t => if_neg h_t) (confined_fail (by simp))

theorem confined_accept {kind : TokenKind} (h : kind ≠ .endOfInput) : (accept kind).Confined :=
  confined_of_use (s := pure false) (P := fun t => t.kind = kind) (fun _ h_t => h_t ▸ h)
    (fun _ _ h_t => if_pos h_t) (fun _ _ h_t => if_neg h_t) (confined_pure false)

/-! ### Readers made of others -/

theorem Confined.within {r : Reader α} (h : r.Confined) (p : Production) :
    (r.within p).Confined := by
  intro body stop h_body h_stop
  cases h h_body h_stop with
  | takes a w rest h_w h_read =>
    exact .takes a w rest h_w fun tail => within_eq_ok.2 (h_read tail)
  | fails e h_cause h_found h_read =>
    refine .fails { e with path := p :: e.path } h_cause h_found fun tail => ?_
    unfold Reader.within
    rw [h_read tail]
    rfl

/-- One reader after another: the second begins where the first has left off, still in front of the
end. -/
theorem Confined.bind {r : Reader α} {f : α → Reader β} (h : r.Confined)
    (h_f : ∀ a, (f a).Confined) : (r >>= f).Confined := by
  intro body stop h_body h_stop
  cases h h_body h_stop with
  | takes a w rest h_w h_read =>
    have h_rest : Endless rest := (h_w ▸ h_body).of_append
    exact (h_f a h_rest h_stop).behind w h_w fun tail => bind_of_ok (h_read tail) f
  | fails e h_cause h_found h_read =>
    exact .fails e h_cause h_found fun tail => bind_of_error (h_read tail) f

/-- A chain, if the end of input is none of its operators. -/
theorem Confined.chain {operator : TokenKind → Option (α → ω → α)} {operand : Parser ω}
    (h_operator : operator .endOfInput = none) (h : operand.read.Confined) (left : α) :
    Confined (chain operator operand left) := by
  intro body stop h_body h_stop
  -- by induction on the number of tokens in front of the end, of which each operator takes one
  induction h_length : body.length using Nat.strongRecOn generalizing body left with
  | ind n ih =>
    cases body with
    | nil =>
      have h_none : operator stop.kind = none := h_stop ▸ h_operator
      refine .takes left [] [] rfl fun tail => chain_stop operand left ?_
      rintro _ ⟨⟩
      exact h_none
    | cons t body =>
      cases h_some : operator t.kind with
      | none =>
        refine .takes left [] (t :: body) rfl fun tail => chain_stop operand left ?_
        rintro _ ⟨⟩
        exact h_some
      | some combine =>
        have h_rest : Endless body := h_body.of_append (w := [t])
        cases h h_rest h_stop with
        | takes right w rest h_w h_read =>
          have h_less : rest.length < n := by
            rw [← h_length, h_w, List.length_cons, List.length_append]
            omega
          have h_again := ih rest.length h_less (combine left right) (h_w ▸ h_rest).of_append rfl
          refine h_again.behind (t :: w) (congrArg (t :: ·) h_w) fun tail => ?_
          exact chain_step h_some (h_read tail)
        | fails e h_cause h_found h_read =>
          obtain ⟨t', h_t', h_found⟩ := h_found
          refine .fails e h_cause ⟨t', List.mem_cons_of_mem t h_t', h_found⟩ fun tail => ?_
          exact chain_error h_some (h_read tail)

/-- A row of items, which may go up to the end of input itself. -/
theorem Confined.itemsBefore {item : Parser α} (h : item.read.Confined) (stop : TokenKind) :
    Confined (itemsBefore stop item) := by
  intro body last h_body h_last
  -- by induction on the number of tokens in front of the end, of which each item takes some
  induction h_length : body.length using Nat.strongRecOn generalizing body with
  | ind n ih =>
    obtain ⟨t, -, h_head⟩ := exists_first body last
    by_cases h_stop : t.kind = stop
    · refine .takes [] [] body rfl fun tail => ?_
      obtain ⟨tail', h_tail'⟩ := List.head?_eq_some_iff.1 (h_head tail)
      rw [h_tail']
      exact itemsBefore_stop item h_stop
    · have h_next : ∀ tail, ¬(body ++ last :: tail).head?.map Token.kind = some stop := by
        intro tail h_eq
        rw [h_head tail] at h_eq
        exact h_stop (Option.some.inj h_eq)
      cases h h_body h_last with
      | takes a w rest h_w h_read =>
        have h_less : rest.length < n := by
          have h_shorter := item.shortens (h_read [])
          rw [List.length_append, List.length_append] at h_shorter
          omega
        have h_rest := ih rest.length h_less (h_w ▸ h_body).of_append rfl
        exact (h_rest.map (a :: ·)).behind w h_w fun tail =>
          itemsBefore_item (h_next tail) (h_read tail)
      | fails e h_cause h_found h_read =>
        exact .fails e h_cause h_found fun tail => itemsBefore_error (h_next tail) (h_read tail)

end Reader

/-! ### The parsers -/

/-- Staying in front of the end of input is a law of readers. -/
private def confinedLaw : ReaderLaw where
  Holds := Reader.Confined
  pure := Reader.confined_pure
  fail := Reader.confined_fail
  expect := Reader.confined_expect
  accept := Reader.confined_accept
  identifier := Reader.confined_identifier
  within := Reader.Confined.within
  bind := Reader.Confined.bind
  chain := Reader.Confined.chain
  itemsBefore := Reader.Confined.itemsBefore
  of_head _ := Reader.Confined.of_head

/-- **The parsers of programs stay in front of the end of input,** with any number of levels. -/
theorem confined_program (n : Nat) : (Grammar.program (Grammar.expression n)).Confined :=
  confinedLaw.program n

end ScriptLang
