import ScriptLang.Proofs.Program.Infix

/-!
# The infix form and the grammar

The words of the infix form derive the program that they were written for, and no derivation of the
program, with whatever parentheses, gets by with fewer levels. So the nesting of the infix form is
the nesting that the program needs.

* `Derives.loosen` — what is derived for a tight position is derived for every looser one.
* `derivesProgram_words` — the infix form derives its program within its own levels.
* `DerivesProgram.levels_le` — every derivation of a program has at least those levels.
* `DerivesProgram.wellSpelled` — what fitting words derive can be spelled.
-/

namespace ScriptLang

/-- A token with the given word, wherever it may stand. -/
def Word.token (w : Word) : Token := ⟨w.kind, w.text, .point .start⟩

private theorem kind_token (w : Word) : w.token.kind = w.kind := rfl

theorem map_word_token (ws : List Word) : (ws.map Word.token).map Token.word = ws := by
  rw [List.map_map, show Token.word ∘ Word.token = id from rfl, List.map_id]

namespace Grammar

/-- The phrase that is asked for at a position. -/
def Phrase.at : Nat → Phrase
  | 0 => expression
  | 1 => operation
  | 2 => comparison
  | 3 => term
  | 4 => factor
  | _ => member

/-! ### From tight positions to loose ones -/

/-- **What is derived for a tight position** is derived for every looser one, but for that of whole
expressions, which spend a level. -/
theorem Derives.loosen {n : Nat} {w : List Token} {e : Expr} {j k : Nat}
    (h : Derives (Phrase.at k) n w e) (h_j : 1 ≤ j) (le : j ≤ k) : Derives (Phrase.at j) n w e := by
  -- down from `k` to `j`, by the rule that passes from each position to the next looser one
  induction le with
  | refl => exact h
  | @step k le ih =>
    refine ih ?_
    match k, Nat.le_trans h_j le with
    | 1, _ => exact .comparisonOperation h
    | 2, _ => exact .comparison h
    | 3, _ => exact .term h
    | 4, _ => exact .factor h
    -- all positions from 5 on ask for the same phrase
    | _ + 5, _ => exact h

section Positions

variable {e : Expr} {ws : List Word} {t L : Nat}

/-- **Words for a tight position,** put between parentheses where the position asks for more. -/
private theorem derives_parenthesised
    (whole : ∀ n, L ≤ n → Derives .expression (n + 1) (ws.map Word.token) e)
    (part : ∀ n, L ≤ n → ∀ j, 1 ≤ j → j ≤ t → Derives (Phrase.at j) n (ws.map Word.token) e)
    {k n : Nat} (h_k : k ≤ 5) (h : L + Expr.opening t k ≤ n) :
    Derives (Phrase.at k) n ((parenthesised (t < k) ws).map Word.token) e := by
  unfold parenthesised
  by_cases h_paren : t < k
  · -- the parentheses hold a whole expression, which spends a level
    rw [Expr.opening, if_pos (.inr h_paren)] at h
    obtain ⟨m, rfl⟩ : ∃ m, n = m + 1 := ⟨n - 1, by omega⟩
    have h_inner := whole m (by omega)
    have h_member : Derives (Phrase.at 5) (m + 1)
        ((Word.symbol .leftParen :: (ws ++ [Word.symbol .rightParen])).map Word.token) e := by
      rw [List.map_cons, List.map_append]
      exact .member (.parentheses (kind_token (.symbol .leftParen)) h_inner
        (kind_token (.symbol .rightParen)))
    rw [if_pos h_paren]
    exact h_member.loosen (by omega) h_k
  · rw [if_neg h_paren]
    cases k with
    | zero =>
      -- a whole expression spends a level even without parentheses
      rw [Expr.opening_zero] at h
      obtain ⟨m, rfl⟩ : ∃ m, n = m + 1 := ⟨n - 1, by omega⟩
      exact whole m (by omega)
    | succ k =>
      rw [Expr.opening, if_neg (by omega)] at h
      exact part n h (k + 1) (by omega) (by omega)

/-- The same for words that derive an operation or a part of one. -/
private theorem derives_operation (h_t : 1 ≤ t)
    (h : ∀ n, L ≤ n → Derives (Phrase.at t) n (ws.map Word.token) e) {k n : Nat} (h_k : k ≤ 5)
    (h_n : L + Expr.opening t k ≤ n) :
    Derives (Phrase.at k) n ((parenthesised (t < k) ws).map Word.token) e :=
  derives_parenthesised (fun n h_L => .expression ((h n h_L).loosen (Nat.le_refl 1) h_t))
    (fun n h_L _ h_one le => (h n h_L).loosen h_one le) h_k h_n

/-- The same for words that stand at every position without parentheses. -/
private theorem derives_member
    (h : ∀ n, L ≤ n → Derives .member n (ws.map Word.token) e) {k n : Nat} (h_k : k ≤ 5)
    (h_n : L + Expr.opening 5 k ≤ n) : Derives (Phrase.at k) n (ws.map Word.token) e := by
  have h_all := derives_operation (t := 5) (by decide) h h_k h_n
  rwa [parenthesised, if_neg (by omega)] at h_all

end Positions

/-! ### The infix form derives its program -/

/-- The properties of an object literal carry its front on, one after the other. -/
private theorem derives_propertyWords {n : Nat} {properties before : List (String × Expr)}
    {u : List Token} (h : ∀ p ∈ properties,
      Derives .expression n ((p.2.words 0).map Word.token) p.2)
    (front : Derives .openObject n u (.object before)) :
    Derives .openObject n (u ++ (Expr.propertyWords properties).map Word.token)
      (.object (before ++ properties)) := by
  induction properties generalizing u before with
  | nil =>
    rw [Expr.propertyWords, List.map_nil, List.append_nil, List.append_nil]
    exact front
  | cons p properties ih =>
    obtain ⟨key, value⟩ := p
    obtain ⟨h_value, h_rest⟩ := List.forall_mem_cons.1 h
    have h_property := Derives.property front (kind_token ⟨.identifier, key⟩)
      (kind_token (.symbol .colon)) h_value (kind_token (.symbol .comma))
    have h_all := ih h_rest h_property
    rw [Expr.propertyWords]
    simpa [Word.token] using h_all

/-- An infix operator between the words of its operands, as tokens. -/
private theorem map_token_around (kind : TokenKind) (us vs : List Word) :
    (us ++ Word.symbol kind :: vs).map Word.token =
      us.map Word.token ++ (Word.symbol kind).token :: vs.map Word.token := by
  rw [List.map_append, List.map_cons]

/-- **The words of an expression derive it** at every position, within as many levels as they
nest. At the positions where an object literal may stand, they derive it as one. -/
private theorem derives_words_and_object {e : Expr} (h : e.WellSpelled) :
    (∀ k n, k ≤ 5 → e.levels k ≤ n →
      Derives (Phrase.at k) n ((e.words k).map Word.token) e) ∧
    (e.isObject = true → ∀ n, e.levels 1 ≤ n →
      Derives .object n ((e.words 1).map Word.token) e) := by
  -- both at once: a member of an object literal is derived from the second part for its base, and
  -- a member of anything else from the first
  induction h with
  | @identifier name _ =>
    refine ⟨fun k n h_k h_n => derives_member (L := 0) (fun n _ => ?_) h_k ?_, by rintro ⟨⟩⟩
    · exact .member (.identifier (kind_token ⟨.identifier, name⟩))
    · exact (Nat.zero_add _).symm ▸ h_n
  | @literal v h_v =>
    refine ⟨fun k n h_k h_n => derives_member (L := 0) (fun n _ => ?_) h_k ?_, by rintro ⟨⟩⟩
    · cases v with
      | number i =>
        exact .member (.number (kind_token ⟨.number, toString i.toInt⟩)
          (Numeral.int64?_toString i))
      | string s => exact .member (.string (kind_token ⟨.string, s⟩))
      | boolean b => exact h_v.elim
    · exact (Nat.zero_add _).symm ▸ h_n
  | @assign target value _ _ ih₁ ih₂ =>
    refine ⟨fun k n h_k h_n => ?_, by rintro ⟨⟩⟩
    -- an assignment is a whole expression, so it is part of an operation only in parentheses
    refine derives_parenthesised (t := 0) (fun n h_L => ?_) (fun n _ j h_one le => ?_) h_k h_n
    · rw [map_token_around]
      exact .assign (ih₁.1 1 n (by decide) (by omega)) (kind_token (.symbol .equal))
        (ih₂.1 0 n (by decide) (by omega))
    · omega
  | @object properties keys values ih =>
    have h_object : ∀ n, Expr.propertyLevels properties ≤ n →
        Derives .object n ((Word.symbol .leftBrace :: (Expr.propertyWords properties ++
          [Word.symbol .rightBrace])).map Word.token) (.object properties) := by
      intro n h_n
      have h_front : Derives .openObject n [(Word.symbol .leftBrace).token] (.object []) :=
        .openBrace (kind_token (.symbol .leftBrace))
      have h_properties := derives_propertyWords (fun p h_p => (ih p h_p).1 0 n (by decide)
        (Expr.propertyLevels_le_iff.1 h_n p h_p)) h_front
      have h_all := Derives.closeBrace h_properties (kind_token (.symbol .rightBrace))
      simpa using h_all
    constructor
    · intro k n h_k h_n
      exact derives_operation (Nat.le_refl 1)
        (fun n h_L => .objectOperation (h_object n h_L)) h_k h_n
    · intro _ n h_n
      exact h_object n h_n
  | @member base property _ h_property ih =>
    -- the base is an object literal in place, or it stands at the tightest position
    have h_object : base.isObject = true → ∀ n, base.levels 1 ≤ n →
        Derives .object n ((base.words 1 ++
          [Word.symbol .dot, ⟨.identifier, property⟩]).map Word.token) (.member base property) := by
      intro h_base n h_n
      rw [List.map_append]
      exact .objectMember (ih.2 h_base n h_n) (kind_token (.symbol .dot))
        (kind_token ⟨.identifier, property⟩)
    constructor
    · intro k n h_k h_n
      rw [Expr.levels] at h_n
      rw [Expr.words]
      by_cases h_base : k ≤ 1 ∧ base.isObject = true
      · -- no parentheses around the literal, so the access is an operation, as the literal is
        rw [Expr.basePosition, if_pos h_base] at h_n ⊢
        have h_all := derives_operation (Nat.le_refl 1)
          (fun n h_L => .objectOperation (h_object h_base.2 n h_L)) h_k (n := n) ?_
        · rwa [parenthesised, if_neg (by omega)] at h_all
        · refine Nat.le_trans (Nat.add_le_add_left ?_ _) h_n
          unfold Expr.opening
          split <;> split <;> omega
      · rw [Expr.basePosition, if_neg h_base] at h_n ⊢
        refine derives_member (fun n h_L => ?_) h_k h_n
        rw [List.map_append]
        exact .access (ih.1 5 n (Nat.le_refl 5) h_L) (kind_token (.symbol .dot))
          (kind_token ⟨.identifier, property⟩)
    · intro h_base n h_n
      have h_base : base.isObject = true := h_base
      have h_position : base.basePosition 1 = 1 := by simp [Expr.basePosition, h_base]
      rw [Expr.levels, h_position] at h_n
      rw [Expr.words, h_position]
      exact h_object h_base n h_n
  | @compare c left right _ _ ih₁ ih₂ =>
    refine ⟨fun k n h_k h_n => ?_, by rintro ⟨⟩⟩
    refine derives_operation (by decide) (fun n h_L => ?_) h_k h_n
    rw [map_token_around]
    exact .compare c (ih₁.1 2 n (by decide) (by omega)) (kind_token (.symbol c.kind))
      (ih₂.1 3 n (by decide) (by omega))
  | @binary o left right _ _ ih₁ ih₂ =>
    refine ⟨fun k n h_k h_n => ?_, by rintro ⟨⟩⟩
    cases h_sum : o.isSum with
    | true =>
      have h_position : o.position = 3 := by simp [Operator.position, h_sum]
      rw [Expr.levels, h_position] at h_n
      rw [Expr.words, h_position]
      refine derives_operation (by decide) (fun n h_L => ?_) h_k h_n
      rw [map_token_around]
      exact .sum o h_sum (ih₁.1 3 n (by decide) (by omega)) (kind_token (.symbol o.kind))
        (ih₂.1 (3 + 1) n (by decide) (by omega))
    | false =>
      have h_position : o.position = 4 := by simp [Operator.position, h_sum]
      rw [Expr.levels, h_position] at h_n
      rw [Expr.words, h_position]
      refine derives_operation (by decide) (fun n h_L => ?_) h_k h_n
      rw [map_token_around]
      exact .product o h_sum (ih₁.1 4 n (by decide) (by omega)) (kind_token (.symbol o.kind))
        (ih₂.1 (4 + 1) n (by decide) (by omega))

/-- A whole expression is derived by its words. -/
private theorem derives_words {e : Expr} (h : e.WellSpelled) {n : Nat} (h_n : e.levels 0 ≤ n) :
    Derives .expression n ((e.words 0).map Word.token) e :=
  (derives_words_and_object h).1 0 n (Nat.zero_le _) h_n

private theorem derivesStatement_words {s : Stmt} (h : s.WellSpelled) {n : Nat}
    (h_n : s.levels ≤ n) : DerivesStatement n (s.words.map Word.token) s := by
  cases s with
  | expression e =>
    have h_all := DerivesStatement.expression (derives_words h h_n)
      (kind_token (.symbol .semicolon))
    rw [Stmt.words, List.map_append]
    exact h_all
  | declare constant name e =>
    have h_all := DerivesStatement.declare
      (kind_token ⟨.declaration, if constant then "const" else "let"⟩)
      (kind_token ⟨.identifier, name⟩) (kind_token (.symbol .equal)) (derives_words h.2 h_n)
      (kind_token (.symbol .semicolon))
    have h_constant : decide ((if constant then "const" else "let") = "const") = constant := by
      cases constant <;> rfl
    rw [show Token.text _ = if constant then "const" else "let" from rfl, h_constant] at h_all
    rw [Stmt.words, List.map_cons, List.map_cons, List.map_cons, List.map_append]
    exact h_all
  | print e =>
    have h_all := DerivesStatement.print (kind_token (.symbol .print))
      (kind_token (.symbol .leftParen)) (derives_words h h_n) (kind_token (.symbol .rightParen))
      (kind_token (.symbol .semicolon))
    rw [Stmt.words, List.map_cons, List.map_cons, List.map_append]
    exact h_all

/-- **The infix form derives its program** within as many levels as it nests. -/
theorem derivesProgram_words {p : Program} (h : Program.WellSpelled p) {n : Nat}
    (h_n : Program.levels p ≤ n) : DerivesProgram n ((Program.words p).map Word.token) p := by
  rw [Program.levels_le_iff] at h_n
  induction p with
  | nil => exact .nil
  | cons s p ih =>
    obtain ⟨h_s, h_p⟩ := List.forall_mem_cons.1 h
    obtain ⟨h_first, h_rest⟩ := List.forall_mem_cons.1 h_n
    rw [Program.words, List.flatMap_cons, List.map_append]
    exact .cons (derivesStatement_words h_s h_first) (ih h_p h_rest)

/-! ### No derivation has fewer levels -/

/-- The tightest position that a phrase stands at. -/
def Phrase.position : Phrase → Nat
  | expression => 0
  | operation | object | openObject => 1
  | comparison => 2
  | term => 3
  | factor => 4
  | member | primary => 5

/-- An expression that is nested no deeper at a tight position is nested no deeper at a loose
one. -/
private theorem levels_le_of_le {e : Expr} {j k n : Nat} (h : e.levels k ≤ n) (h_j : 1 ≤ j)
    (le : j ≤ k) : e.levels j ≤ n := Nat.le_trans (e.levels_mono h_j le) h

/-- What derives an object literal derives it where the infix form may leave it bare. -/
private theorem Derives.isObject {phrase : Phrase} {n : Nat} {w : List Token} {e : Expr}
    (h : Derives phrase n w e) (h_phrase : phrase = .object ∨ phrase = .openObject) :
    e.isObject = true := by
  induction h with
  | openBrace _ | property _ _ _ _ _ => rfl
  | closeBrace _ _ ih => exact ih (.inr rfl)
  | objectMember _ _ _ ih => exact ih (.inl rfl)
  | _ => rcases h_phrase with h | h <;> cases h

/-- **Every derivation has the levels of the infix form.** -/
private theorem Derives.levels_le {phrase : Phrase} {n : Nat} {w : List Token} {e : Expr}
    (h : Derives phrase n w e) : e.levels phrase.position ≤ n := by
  -- along the derivation: where it passes to a tighter phrase the bound of that phrase is at least
  -- as strong, and where it opens an expression it spends a level, as the infix form does
  induction h with
  | @expression n w e _ ih =>
    have h_operation : e.levels 1 ≤ n := ih
    exact Nat.le_trans e.levels_zero_le (Nat.succ_le_succ h_operation)
  | @assign n u v target value _ _ _ _ ih₁ ih₂ =>
    show max (target.levels 1) (value.levels 0) + 1 ≤ n + 1
    exact Nat.succ_le_succ (Nat.max_le.2 ⟨ih₁, ih₂⟩)
  | objectOperation _ ih | closeBrace _ _ ih | member _ ih => exact ih
  | comparisonOperation _ ih | comparison _ ih | term _ ih | factor _ ih =>
    exact levels_le_of_le ih (by decide) (by decide)
  | openBrace _ | identifier _ | number _ _ | string _ => exact Nat.zero_le _
  | @property n u v properties value key _ _ _ _ _ _ _ ih₁ ih₂ =>
    have h_front : Expr.propertyLevels properties ≤ n := ih₁
    show Expr.propertyLevels (properties ++ [(key.text, value)]) ≤ n
    rw [Expr.propertyLevels_le_iff] at h_front ⊢
    intro p h_p
    -- the new property is the last one
    rcases List.mem_append.1 h_p with h_p | h_p
    · exact h_front p h_p
    · obtain rfl := List.mem_singleton.1 h_p
      exact ih₂
  | @objectMember n u e _ name h_base _ _ ih =>
    have h_position : e.basePosition 1 = 1 := by
      simp [Expr.basePosition, h_base.isObject (.inl rfl)]
    show e.levels (e.basePosition 1) ≤ n
    rw [h_position]
    exact ih
  | compare c _ _ _ ih₁ ih₂ => exact Nat.max_le.2 ⟨ih₁, ih₂⟩
  | @sum n u v left right _ o h_sum _ _ _ ih₁ ih₂ =>
    have h_position : o.position = 3 := by simp [Operator.position, h_sum]
    show max (left.levels o.position) (right.levels (o.position + 1)) +
      Expr.opening o.position 3 ≤ n
    rw [h_position]
    exact Nat.max_le.2 ⟨ih₁, ih₂⟩
  | @product n u v left right _ o h_product _ _ _ ih₁ ih₂ =>
    have h_position : o.position = 4 := by simp [Operator.position, h_product]
    show max (left.levels o.position) (right.levels (o.position + 1)) +
      Expr.opening o.position 4 ≤ n
    rw [h_position]
    exact Nat.max_le.2 ⟨ih₁, ih₂⟩
  | @access n u e _ name _ _ _ ih =>
    have h_position : e.basePosition 5 = 5 := by simp [Expr.basePosition]
    show e.levels (e.basePosition 5) ≤ n
    rw [h_position]
    exact ih
  | @parentheses n w e _ _ _ _ _ ih =>
    -- redundant parentheses save nothing
    exact Nat.le_trans e.levels_le_zero ih

/-- A declaration without a value has no expression in it, but its infix form has one. -/
private theorem DerivesStatement.levels_le {n : Nat} {w : List Token} {s : Stmt}
    (h : DerivesStatement n w s) (h_n : 1 ≤ n) : s.levels ≤ n := by
  cases h with
  | declare _ _ _ right _ => exact right.levels_le
  | declareNull _ _ _ _ => exact h_n
  | print _ _ argument _ _ => exact argument.levels_le
  | expression whole _ => exact whole.levels_le

/-- **Every derivation of a program has the levels of its infix form.** -/
theorem DerivesProgram.levels_le {n : Nat} {w : List Token} {p : Program}
    (h : DerivesProgram n w p) (h_n : 1 ≤ n) : Program.levels p ≤ n := by
  rw [Program.levels_le_iff]
  induction h with
  | nil => exact List.forall_mem_nil _
  | cons first _ ih => exact List.forall_mem_cons.2 ⟨first.levels_le h_n, ih⟩

/-! ### What is derived can be spelled -/

/-- The tokens have texts of their kinds' classes. -/
def AllFit (w : List Token) : Prop := ∀ t ∈ w, Lexeme.Fits t.kind t.text

private theorem AllFit.of_append {u v : List Token} (h : AllFit (u ++ v)) : AllFit u ∧ AllFit v :=
  List.forall_mem_append.1 h

private theorem AllFit.of_cons {t : Token} {v : List Token} (h : AllFit (t :: v)) :
    Lexeme.Fits t.kind t.text ∧ AllFit v := List.forall_mem_cons.1 h

/-- A name has the text of a name. -/
private theorem isName_of_fits {t : Token} (h_kind : t.kind = .identifier)
    (h : Lexeme.Fits t.kind t.text) : Lexeme.IsName t.text := by
  rwa [h_kind] at h

/-- **What fitting tokens derive can be spelled.** -/
private theorem Derives.wellSpelled {phrase : Phrase} {n : Nat} {w : List Token} {e : Expr}
    (h : Derives phrase n w e) (h_w : AllFit w) : e.WellSpelled := by
  -- every part of a derivation is over a part of its tokens, and these fit with the whole
  induction h with
  | expression _ ih | objectOperation _ ih | comparisonOperation _ ih | comparison _ ih
  | term _ ih | factor _ ih | member _ ih => exact ih h_w
  | assign _ _ _ ih₁ ih₂ =>
    obtain ⟨h_u, h_v⟩ := h_w.of_append
    exact .assign (ih₁ h_u) (ih₂ h_v.of_cons.2)
  | openBrace _ => exact .object (List.forall_mem_nil _) (List.forall_mem_nil _)
  | @property n u v properties value key colon comma _ h_key _ _ _ ih₁ ih₂ =>
    obtain ⟨h_u, h_v⟩ := h_w.of_append
    obtain ⟨h_key_fits, h_v⟩ := h_v.of_cons
    obtain ⟨h_value, -⟩ := h_v.of_cons.2.of_append
    cases ih₁ h_u with
    | object keys values =>
      refine .object ?_ ?_
      · rw [List.forall_mem_append]
        exact ⟨keys, List.forall_mem_singleton.2 (isName_of_fits h_key h_key_fits)⟩
      · rw [List.forall_mem_append]
        exact ⟨values, List.forall_mem_singleton.2 (ih₂ h_value)⟩
  | closeBrace _ _ ih => exact ih h_w.of_append.1
  | objectMember _ _ h_name ih | access _ _ h_name ih =>
    obtain ⟨h_u, h_v⟩ := h_w.of_append
    exact .member (ih h_u) (isName_of_fits h_name h_v.of_cons.2.of_cons.1)
  | compare _ _ _ _ ih₁ ih₂ =>
    obtain ⟨h_u, h_v⟩ := h_w.of_append
    exact .compare (ih₁ h_u) (ih₂ h_v.of_cons.2)
  | sum _ _ _ _ _ ih₁ ih₂ | product _ _ _ _ _ ih₁ ih₂ =>
    obtain ⟨h_u, h_v⟩ := h_w.of_append
    exact .binary (ih₁ h_u) (ih₂ h_v.of_cons.2)
  | identifier h_name => exact .identifier (isName_of_fits h_name h_w.of_cons.1)
  | number h_digits h_value =>
    have h_fits := h_w.of_cons.1
    rw [h_digits] at h_fits
    -- digits alone spell no sign
    exact .literal (Numeral.nonneg_of_int64? h_fits.2 h_value)
  | string h_text =>
    have h_fits := h_w.of_cons.1
    rw [h_text] at h_fits
    exact .literal h_fits
  | parentheses _ _ _ ih => exact ih h_w.of_cons.2.of_append.1

private theorem DerivesStatement.wellSpelled {n : Nat} {w : List Token} {s : Stmt}
    (h : DerivesStatement n w s) (h_w : AllFit w) : s.WellSpelled := by
  cases h with
  | declare _ h_name _ right _ =>
    obtain ⟨h_name_fits, h_rest⟩ := h_w.of_cons.2.of_cons
    exact ⟨isName_of_fits h_name h_name_fits, right.wellSpelled h_rest.of_cons.2.of_append.1⟩
  | declareNull _ _ h_name _ =>
    -- without a value the name `null` stands for it
    have h_null : Lexeme.IsName "null" := by decide
    exact ⟨isName_of_fits h_name h_w.of_cons.2.of_cons.1, .identifier h_null⟩
  | print _ _ argument _ _ => exact argument.wellSpelled h_w.of_cons.2.of_cons.2.of_append.1
  | expression whole _ => exact whole.wellSpelled h_w.of_append.1

/-- **A program that fitting tokens derive can be spelled.** -/
theorem DerivesProgram.wellSpelled {n : Nat} {w : List Token} {p : Program}
    (h : DerivesProgram n w p) (h_w : AllFit w) : Program.WellSpelled p := by
  induction h with
  | nil => exact List.forall_mem_nil _
  | cons first _ ih =>
    obtain ⟨h_u, h_v⟩ := h_w.of_append
    exact List.forall_mem_cons.2 ⟨first.wellSpelled h_u, ih h_v⟩

end Grammar

end ScriptLang
