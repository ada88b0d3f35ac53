import Mathlib.Data.List.Basic
import Mathlib.Data.List.Induction
import ScriptLang.Proofs.Program.Infix

/-!
# Programs in the form that is shown

The form in which messages and listings show a program mixes operators in front of their operands,
assignments between theirs and members behind what they are members of, and an opening parenthesis
does not tell which of these follows. Read from the right, though, each word tells what it ends: a
name behind a dot is a member, a closing parenthesis ends an operation or an assignment, and in
front of its last operand an equals sign tells which. So the words of an expression can be taken off
the end of any words, as long as these do not end in a dot.

* `Expr.shown`, `Stmt.shown`, `Program.shown` — the words of the form that is shown.
* `Expr.lastWord`, `Expr.shown_eq` — the word that an expression ends in, and what is in front of it.
* `Expr.WellSpelled.cancels` — what an expression can be taken off from.
* `Program.eq_of_shown` — no two programs are shown by the same words.
-/

namespace ScriptLang

/-! ### The words -/

/-- The words, between parentheses. -/
def Word.parens (ws : List Word) : List Word :=
  Word.symbol .leftParen :: (ws ++ [Word.symbol .rightParen])

/-- The words of a property of an object literal, given those of its value. -/
def Word.property (key : String) (ws : List Word) : List Word :=
  ⟨.identifier, key⟩ :: Word.symbol .colon :: (ws ++ [Word.symbol .comma])

namespace Expr

mutual

/-- **The words that an expression is shown by.** -/
def shown : Expr → List Word
  | .identifier name => [⟨.identifier, name⟩]
  | .literal v => [v.word]
  | .assign target value => Word.parens (target.shown ++ Word.symbol .equal :: value.shown)
  | .object properties =>
    Word.symbol .leftBrace :: (shownProperties properties ++ [Word.symbol .rightBrace])
  | .member base property => base.shown ++ [Word.symbol .dot, ⟨.identifier, property⟩]
  | .compare c left right => Word.parens (Word.symbol c.kind :: (left.shown ++ right.shown))
  | .binary o left right => Word.parens (Word.symbol o.kind :: (left.shown ++ right.shown))
termination_by structural e => e

/-- The words of the properties of an object literal. -/
def shownProperties : List (String × Expr) → List Word
  | [] => []
  | (key, value) :: properties => Word.property key value.shown ++ shownProperties properties
termination_by structural ps => ps

end

/-- **The word that an expression ends in.** -/
def lastWord : Expr → Word
  | identifier name => ⟨.identifier, name⟩
  | literal v => v.word
  | member _ property => ⟨.identifier, property⟩
  | object _ => Word.symbol .rightBrace
  | assign .. | compare .. | binary .. => Word.symbol .rightParen

/-- The words in front of the last one. -/
def frontWords : Expr → List Word
  | identifier _ | literal _ => []
  | member base _ => base.shown ++ [Word.symbol .dot]
  | object properties => Word.symbol .leftBrace :: shownProperties properties
  | assign target value =>
    Word.symbol .leftParen :: (target.shown ++ Word.symbol .equal :: value.shown)
  | compare c left right =>
    Word.symbol .leftParen :: Word.symbol c.kind :: (left.shown ++ right.shown)
  | binary o left right =>
    Word.symbol .leftParen :: Word.symbol o.kind :: (left.shown ++ right.shown)

theorem shown_eq (e : Expr) : e.shown = e.frontWords ++ [e.lastWord] := by
  cases e with
  | member base property =>
    rw [shown, frontWords, lastWord, List.append_assoc]
    rfl
  | identifier | literal | object | assign | compare | binary => rfl

end Expr

/-- The words of a statement but for the semicolon that ends it. -/
def Stmt.shownBody : Stmt → List Word
  | expression e => e.shown
  | declare constant name e =>
    ⟨.declaration, if constant then "const" else "let"⟩ :: ⟨.identifier, name⟩ ::
      Word.symbol .equal :: e.shown
  | print e => ⟨.print, "print"⟩ :: Word.parens e.shown

/-- **The words that a statement is shown by.** -/
def Stmt.shown (s : Stmt) : List Word := s.shownBody ++ [Word.symbol .semicolon]

/-- **The words that a program is shown by.** -/
def Program.shown (p : Program) : List Word := p.flatMap Stmt.shown

/-! ### Which words there are -/

/-- Can an expression end in a word of the kind? -/
def TokenKind.endsExpression : TokenKind → Bool
  | .number | .string | .identifier | .rightBrace | .rightParen => true
  | _ => false

/-- Can there be a word of the kind in an expression? -/
def TokenKind.inExpression : TokenKind → Bool
  | .semicolon | .declaration | .print => false
  | _ => true

/-- An expression ends in a name, a literal or a closing sign. -/
theorem Expr.endsExpression_lastWord (e : Expr) : e.lastWord.kind.endsExpression = true := by
  cases e with
  | literal v => cases v <;> rfl
  | identifier | member | object | assign | compare | binary => rfl

/-- **In an expression there is no semicolon and no keyword.** -/
theorem Expr.inExpression_of_mem_shown (e : Expr) :
    ∀ w ∈ e.shown, w.kind.inExpression = true := by
  have h_symbol : ∀ kind : TokenKind, (Word.symbol kind).kind = kind := fun _ => rfl
  have h_none := List.forall_mem_nil fun w : Word => w.kind.inExpression = true
  have h_parens : ∀ ws : List Word, (∀ w ∈ ws, w.kind.inExpression = true) →
      ∀ w ∈ Word.parens ws, w.kind.inExpression = true := by
    intro ws h_ws
    unfold Word.parens
    rw [List.forall_mem_cons, List.forall_mem_append, List.forall_mem_singleton]
    exact ⟨rfl, h_ws, rfl⟩
  induction e using Expr.induction with
  | identifier name => exact List.forall_mem_singleton.2 rfl
  | literal v =>
    refine List.forall_mem_singleton.2 ?_
    cases v <;> rfl
  | assign target value ih_target ih_value =>
    refine h_parens _ ?_
    rw [List.forall_mem_append, List.forall_mem_cons]
    exact ⟨ih_target, rfl, ih_value⟩
  | object properties ih =>
    have h_properties : ∀ w ∈ shownProperties properties, w.kind.inExpression = true := by
      induction properties with
      | nil => exact h_none
      | cons p properties ih' =>
        obtain ⟨h_value, h_rest⟩ := List.forall_mem_cons.1 ih
        rw [shownProperties, Word.property, List.forall_mem_append, List.forall_mem_cons,
          List.forall_mem_cons, List.forall_mem_append, List.forall_mem_singleton]
        exact ⟨⟨rfl, rfl, h_value, rfl⟩, ih' h_rest⟩
    rw [shown, List.forall_mem_cons, List.forall_mem_append, List.forall_mem_singleton]
    exact ⟨rfl, h_properties, rfl⟩
  | member base property ih =>
    rw [shown, List.forall_mem_append, List.forall_mem_cons, List.forall_mem_singleton]
    exact ⟨ih, rfl, rfl⟩
  | compare c left right ih_left ih_right =>
    refine h_parens _ ?_
    rw [List.forall_mem_cons, List.forall_mem_append]
    exact ⟨by cases c <;> rfl, ih_left, ih_right⟩
  | binary o left right ih_left ih_right =>
    refine h_parens _ ?_
    rw [List.forall_mem_cons, List.forall_mem_append]
    exact ⟨by cases o <;> rfl, ih_left, ih_right⟩

/-! ### Taking expressions off the end -/

/-- Two lists with one word more each. -/
private theorem concat_inj {ws ws' : List Word} {w w' : Word} (h : ws ++ [w] = ws' ++ [w']) :
    ws = ws' ∧ w = w' := by
  obtain ⟨h_front, h_last⟩ := List.append_inj' h rfl
  exact ⟨h_front, List.head_eq_of_cons_eq h_last⟩

/-- **The words do not end in a dot.** -/
def NoDot (ws : List Word) : Prop := ∀ l, ws ≠ l ++ [Word.symbol .dot]

theorem noDot_nil : NoDot [] := fun l h =>
  List.append_ne_nil_of_right_ne_nil l (List.cons_ne_nil _ []) h.symm

theorem noDot_concat {w : Word} (h : w.kind ≠ .dot) (ws : List Word) : NoDot (ws ++ [w]) :=
  fun _ h_eq => h (congrArg Word.kind (concat_inj h_eq).2)

/-- No words end both in an expression and in a sign that no expression ends in. -/
theorem Expr.shown_ne_concat (ws l : List Word) (e : Expr) {w : Word}
    (h : w.kind.endsExpression = false) : ws ++ e.shown ≠ l ++ [w] := by
  intro h_eq
  rw [e.shown_eq, ← List.append_assoc] at h_eq
  rw [← (concat_inj h_eq).2, e.endsExpression_lastWord] at h
  cases h

theorem noDot_shown (ws : List Word) (e : Expr) : NoDot (ws ++ e.shown) :=
  fun l => e.shown_ne_concat ws l rfl

/-- **An expression can be taken off the end** of words that do not end in a dot in front of it: it
is the only one there, and what is in front of it is what is left. -/
def Expr.Cancels (e : Expr) : Prop :=
  ∀ (e' : Expr) (l l' : List Word), e'.WellSpelled → NoDot l → NoDot l' →
    l ++ e.shown = l' ++ e'.shown → l = l' ∧ e = e'

section Cancelling

variable {l l' : List Word}

/-- Between parentheses it is the last expression that can be taken off first. -/
private theorem cancel_parens {front front' : List Word} {value value' : Expr}
    (h : value.Cancels) (h_value : value'.WellSpelled) (h_front : ∀ m, NoDot (m ++ front))
    (h_front' : ∀ m, NoDot (m ++ front'))
    (h_eq : l ++ Word.parens (front ++ value.shown) = l' ++ Word.parens (front' ++ value'.shown)) :
    l ++ [Word.symbol .leftParen] ++ front = l' ++ [Word.symbol .leftParen] ++ front' ∧
      value = value' := by
  have h_concat : ∀ (m ws : List Word) (v : Expr), m ++ Word.parens (ws ++ v.shown) =
      m ++ [Word.symbol .leftParen] ++ ws ++ v.shown ++ [Word.symbol .rightParen] := by
    intro m ws v
    unfold Word.parens
    simp only [List.append_assoc, List.cons_append, List.nil_append]
  rw [h_concat, h_concat] at h_eq
  exact h _ _ _ h_value (h_front _) (h_front' _) (concat_inj h_eq).1

/-- What stands in front of the value of an assignment ends in an equals sign. -/
private theorem noDot_equal (target : Expr) (m : List Word) :
    NoDot (m ++ (target.shown ++ [Word.symbol .equal])) := by
  rw [← List.append_assoc]
  exact noDot_concat (by decide) _

/-- What stands in front of the second operand ends in the first. -/
private theorem noDot_operand (sign : Word) (left : Expr) (m : List Word) :
    NoDot (m ++ sign :: left.shown) := by
  rw [List.append_cons]
  exact noDot_shown _ left

private theorem shown_assign (target value : Expr) : (Expr.assign target value).shown =
    Word.parens (target.shown ++ [Word.symbol .equal] ++ value.shown) := by
  rw [Expr.shown, List.append_assoc, List.singleton_append]

private theorem cancel_assign {target value target' value' : Expr} (h : target.Cancels)
    (h' : value.Cancels) (h_target : target'.WellSpelled) (h_value : value'.WellSpelled)
    (h_eq : l ++ (Expr.assign target value).shown = l' ++ (Expr.assign target' value').shown) :
    l = l' ∧ target = target' ∧ value = value' := by
  rw [shown_assign, shown_assign] at h_eq
  obtain ⟨h_front, rfl⟩ :=
    cancel_parens h' h_value (noDot_equal target) (noDot_equal target') h_eq
  rw [← List.append_assoc, ← List.append_assoc] at h_front
  have h_paren : (Word.symbol .leftParen).kind ≠ .dot := by decide
  obtain ⟨h_open, rfl⟩ := h _ _ _ h_target (noDot_concat h_paren l) (noDot_concat h_paren l')
    (concat_inj h_front).1
  exact ⟨(concat_inj h_open).1, rfl, rfl⟩

/-- The words of an operation with the sign, whichever it is. -/
private def operation (kind : TokenKind) (left right : Expr) : List Word :=
  Word.parens (Word.symbol kind :: left.shown ++ right.shown)

/-- Operations, be they comparisons or not, by the kind of their sign. -/
private inductive IsOperation : Expr → TokenKind → Expr → Expr → Prop where
  | compare (c left right) : IsOperation (.compare c left right) c.kind left right
  | binary (o left right) : IsOperation (.binary o left right) o.kind left right

private theorem IsOperation.shown_eq {e left right : Expr} {kind : TokenKind}
    (h : IsOperation e kind left right) : e.shown = operation kind left right := by
  cases h with
  | compare | binary => rfl

private theorem IsOperation.kind_ne_dot {e left right : Expr} {kind : TokenKind}
    (h : IsOperation e kind left right) : kind ≠ .dot := by
  cases h with
  | compare c => cases c <;> decide
  | binary o => cases o <;> decide

/-- The sign tells which operation it is. -/
private theorem IsOperation.unique {e e' left right : Expr} {kind kind' : TokenKind}
    (h : IsOperation e kind left right) (h' : IsOperation e' kind' left right)
    (h_kind : kind = kind') : e = e' := by
  cases h with
  | compare c =>
    cases h' with
    | compare c' => cases c <;> cases c' <;> first | rfl | cases h_kind
    | binary o' => cases c <;> cases o' <;> cases h_kind
  | binary o =>
    cases h' with
    | compare c' => cases o <;> cases c' <;> cases h_kind
    | binary o' => cases o <;> cases o' <;> first | rfl | cases h_kind

private theorem cancel_operation {kind kind' : TokenKind} {left right left' right' : Expr}
    (h_kind : kind ≠ .dot) (h_kind' : kind' ≠ .dot) (h : left.Cancels) (h' : right.Cancels)
    (h_left : left'.WellSpelled) (h_right : right'.WellSpelled)
    (h_eq : l ++ operation kind left right = l' ++ operation kind' left' right') :
    l = l' ∧ kind = kind' ∧ left = left' ∧ right = right' := by
  obtain ⟨h_front, rfl⟩ :=
    cancel_parens h' h_right (noDot_operand _ left) (noDot_operand _ left') h_eq
  rw [List.append_cons _ _ left.shown, List.append_cons _ _ left'.shown] at h_front
  obtain ⟨h_signs, rfl⟩ := h _ _ _ h_left (noDot_concat h_kind _) (noDot_concat h_kind' _) h_front
  obtain ⟨h_open, h_sign⟩ := concat_inj h_signs
  exact ⟨(concat_inj h_open).1, congrArg Word.kind h_sign, rfl, rfl⟩

/-- An assignment does not read as an operation: in front of the last expression stands the equals
sign of the one, and the first operand of the other. -/
private theorem assign_ne_operation {target value left right : Expr} {kind : TokenKind}
    (h : value.Cancels ∧ right.WellSpelled ∨ right.Cancels ∧ value.WellSpelled) :
    l ++ (Expr.assign target value).shown ≠ l' ++ operation kind left right := by
  intro h_eq
  rw [shown_assign] at h_eq
  have h_front : l ++ [Word.symbol .leftParen] ++ (target.shown ++ [Word.symbol .equal]) =
      l' ++ [Word.symbol .leftParen] ++ Word.symbol kind :: left.shown := by
    rcases h with ⟨h_value, h_right⟩ | ⟨h_right, h_value⟩
    · exact (cancel_parens h_value h_right (noDot_equal target) (noDot_operand _ left) h_eq).1
    · exact (cancel_parens h_right h_value (noDot_operand _ left) (noDot_equal target)
        h_eq.symm).1.symm
  rw [← List.append_assoc, List.append_cons _ _ left.shown] at h_front
  exact left.shown_ne_concat _ _ rfl h_front.symm

private theorem shownProperties_concat (properties : List (String × Expr)) (key : String)
    (value : Expr) : Expr.shownProperties (properties ++ [(key, value)]) =
      Expr.shownProperties properties ++ Word.property key value.shown := by
  induction properties with
  | nil => exact List.append_nil _
  | cons p properties ih =>
    obtain ⟨key', value'⟩ := p
    rw [List.cons_append, Expr.shownProperties, ih, Expr.shownProperties, List.append_assoc]

/-- **The properties of object literals** can be taken off from the last one on. -/
private theorem cancel_properties {properties properties' : List (String × Expr)}
    (h : ∀ p ∈ properties, p.2.Cancels) (h_values : ∀ p ∈ properties', p.2.WellSpelled)
    (h_eq : l ++ Word.symbol .leftBrace :: Expr.shownProperties properties =
      l' ++ Word.symbol .leftBrace :: Expr.shownProperties properties') :
    l = l' ∧ properties = properties' := by
  have h_concat : ∀ (m : List Word) (ps : List (String × Expr)) (key : String) (v : Expr),
      m ++ Word.symbol .leftBrace :: Expr.shownProperties (ps ++ [(key, v)]) =
        m ++ Word.symbol .leftBrace :: Expr.shownProperties ps ++ [⟨.identifier, key⟩] ++
          [Word.symbol .colon] ++ v.shown ++ [Word.symbol .comma] := by
    intro m ps key v
    rw [shownProperties_concat, Word.property]
    simp only [List.append_assoc, List.cons_append, List.nil_append]
  have h_nil : ∀ m : List Word, m ++ Word.symbol .leftBrace :: Expr.shownProperties [] =
      m ++ [Word.symbol .leftBrace] := fun _ => rfl
  induction properties using List.reverseRecOn generalizing properties' with
  | nil =>
    rcases List.eq_nil_or_concat properties' with rfl | ⟨ps', ⟨key', value'⟩, rfl⟩
    · rw [h_nil, h_nil] at h_eq
      exact ⟨(concat_inj h_eq).1, rfl⟩
    · -- the brace would be a comma
      rw [List.concat_eq_append, h_nil, h_concat] at h_eq
      cases congrArg Word.kind (concat_inj h_eq).2
  | append_singleton ps p ih =>
    obtain ⟨key, value⟩ := p
    rcases List.eq_nil_or_concat properties' with rfl | ⟨ps', ⟨key', value'⟩, rfl⟩
    · rw [h_nil, h_concat] at h_eq
      cases congrArg Word.kind (concat_inj h_eq).2
    · rw [List.concat_eq_append] at h_eq h_values ⊢
      rw [h_concat, h_concat] at h_eq
      obtain ⟨h_others, h_one⟩ := List.forall_mem_append.1 h
      obtain ⟨h_values', h_value'⟩ := List.forall_mem_append.1 h_values
      have h_colon : (Word.symbol .colon).kind ≠ .dot := by decide
      -- the last value, the colon, the last key, and then the other properties
      obtain ⟨h_key, rfl⟩ := h_one _ List.mem_cons_self _ _ _ (h_value' _ List.mem_cons_self)
        (noDot_concat h_colon _) (noDot_concat h_colon _) (concat_inj h_eq).1
      obtain ⟨h_rest, h_name⟩ := concat_inj (concat_inj h_key).1
      obtain ⟨rfl, rfl⟩ := ih h_others h_values' h_rest
      obtain rfl : key = key' := congrArg Word.text h_name
      exact ⟨rfl, rfl⟩

end Cancelling

/-! ### What the last word tells -/

namespace Expr.WellSpelled

variable {e : Expr}

/-- A name ends a name or a member. -/
private theorem of_name (h : e.WellSpelled) {name : String}
    (h_last : e.lastWord = ⟨.identifier, name⟩) :
    e = .identifier name ∨ ∃ base, base.WellSpelled ∧ e = .member base name := by
  cases h with
  | identifier _ =>
    obtain rfl : _ = name := congrArg Word.text h_last
    exact .inl rfl
  | @member base property h_base _ =>
    obtain rfl : property = name := congrArg Word.text h_last
    exact .inr ⟨base, h_base, rfl⟩
  | @literal v h_v =>
    cases v with
    | boolean b => exact h_v.elim
    | number | string => cases congrArg Word.kind h_last
  | assign | object | compare | binary => cases congrArg Word.kind h_last

/-- The word of a literal ends that literal alone. -/
private theorem of_literal (h : e.WellSpelled) {v : Literal} (h_v : v.WellSpelled)
    (h_last : e.lastWord = v.word) : e = .literal v := by
  cases h with
  | @literal v' h_v' =>
    have h_word : v'.word = v.word := h_last
    cases v' with
    | boolean b => exact h_v'.elim
    | number n' =>
      cases v with
      | boolean b => exact h_v.elim
      | string s => cases congrArg Word.kind h_word
      | number n =>
        -- the number is read off its text
        have h_text : toString n'.toInt = toString n.toInt := congrArg Word.text h_word
        have h_read := Numeral.int64?_toString n'
        rw [h_text, Numeral.int64?_toString n] at h_read
        rw [Option.some.inj h_read]
    | string s' =>
      cases v with
      | boolean b => exact h_v.elim
      | number n => cases congrArg Word.kind h_word
      | string s =>
        have h_text : s' = s := congrArg Word.text h_word
        rw [h_text]
  | identifier | member | assign | object | compare | binary =>
    cases v with
    | boolean b => exact h_v.elim
    | number | string => cases congrArg Word.kind h_last

/-- A closing brace ends an object literal. -/
private theorem of_brace (h : e.WellSpelled) (h_last : e.lastWord = Word.symbol .rightBrace) :
    ∃ properties, (∀ p ∈ properties, p.2.WellSpelled) ∧ e = .object properties := by
  cases h with
  | @object properties _ values => exact ⟨properties, values, rfl⟩
  | @literal v h_v => cases v <;> cases congrArg Word.kind h_last
  | identifier | member | assign | compare | binary => cases congrArg Word.kind h_last

/-- A closing parenthesis ends an assignment or an operation. -/
private theorem of_paren (h : e.WellSpelled) (h_last : e.lastWord = Word.symbol .rightParen) :
    (∃ target value, target.WellSpelled ∧ value.WellSpelled ∧ e = .assign target value) ∨
      ∃ kind left right, left.WellSpelled ∧ right.WellSpelled ∧ IsOperation e kind left right := by
  cases h with
  | assign h_target h_value => exact .inl ⟨_, _, h_target, h_value, rfl⟩
  | compare h_left h_right => exact .inr ⟨_, _, _, h_left, h_right, .compare _ _ _⟩
  | binary h_left h_right => exact .inr ⟨_, _, _, h_left, h_right, .binary _ _ _⟩
  | @literal v h_v => cases v <;> cases congrArg Word.kind h_last
  | identifier | member | object => cases congrArg Word.kind h_last

end Expr.WellSpelled

/-- What both of two expressions end in, and what is in front of that. -/
private theorem ends_of_shown {e e' : Expr} {l l' : List Word} (h : l ++ e.shown = l' ++ e'.shown) :
    l ++ e.frontWords = l' ++ e'.frontWords ∧ e'.lastWord = e.lastWord := by
  rw [e.shown_eq, e'.shown_eq, ← List.append_assoc, ← List.append_assoc] at h
  exact ⟨(concat_inj h).1, (concat_inj h).2.symm⟩

/-- Operations can be taken off the end if their operands can. -/
private theorem IsOperation.cancels {e left right : Expr} {kind : TokenKind}
    (operation : IsOperation e kind left right) (h_left : left.Cancels) (h_right : right.Cancels) :
    e.Cancels := by
  intro e' l l' h' _ _ h_eq
  have h_last : e.lastWord = Word.symbol .rightParen := by
    cases operation with
    | compare | binary => rfl
  rcases h'.of_paren ((ends_of_shown h_eq).2.trans h_last) with
    ⟨target, value, _, h_value, rfl⟩ | ⟨kind', left', right', h_left', h_right', operation'⟩
  · rw [operation.shown_eq] at h_eq
    exact absurd h_eq.symm (assign_ne_operation (.inr ⟨h_right, h_value⟩))
  · rw [operation.shown_eq, operation'.shown_eq] at h_eq
    obtain ⟨h_front, h_kind, rfl, rfl⟩ := cancel_operation operation.kind_ne_dot
      operation'.kind_ne_dot h_left h_right h_left' h_right' h_eq
    exact ⟨h_front, operation.unique operation' h_kind⟩

/-- **An expression that can be spelled can be taken off the end** of words that do not end in a dot
in front of it. By induction on the expression; its last word tells of which forms the other one can
be. -/
theorem Expr.WellSpelled.cancels {e : Expr} (h : e.WellSpelled) : e.Cancels := by
  induction h with
  | @identifier name h_name =>
    intro e' l l' h' h_l h_l' h_eq
    obtain ⟨h_front, h_last⟩ := ends_of_shown h_eq
    rcases h'.of_name h_last with rfl | ⟨base, h_base, rfl⟩
    · rw [frontWords, List.append_nil, List.append_nil] at h_front
      exact ⟨h_front, rfl⟩
    · -- there would be a dot in front of the name
      rw [frontWords, frontWords, List.append_nil, ← List.append_assoc] at h_front
      exact absurd h_front (h_l _)
  | @literal v h_v =>
    intro e' l l' h' h_l h_l' h_eq
    obtain ⟨h_front, h_last⟩ := ends_of_shown h_eq
    obtain rfl := h'.of_literal h_v h_last
    rw [frontWords, List.append_nil, List.append_nil] at h_front
    exact ⟨h_front, rfl⟩
  | @assign target value _ _ ih_target ih_value =>
    intro e' l l' h' h_l h_l' h_eq
    obtain ⟨-, h_last⟩ := ends_of_shown h_eq
    rcases h'.of_paren h_last with
      ⟨target', value', h_target, h_value, rfl⟩ | ⟨kind, left, right, _, h_right, operation⟩
    · obtain ⟨h_front, rfl, rfl⟩ := cancel_assign ih_target ih_value h_target h_value h_eq
      exact ⟨h_front, rfl⟩
    · rw [operation.shown_eq] at h_eq
      exact absurd h_eq (assign_ne_operation (.inl ⟨ih_value, h_right⟩))
  | @object properties _ _ ih =>
    intro e' l l' h' h_l h_l' h_eq
    obtain ⟨h_front, h_last⟩ := ends_of_shown h_eq
    obtain ⟨properties', h_values, rfl⟩ := h'.of_brace h_last
    obtain ⟨h_rest, rfl⟩ := cancel_properties ih h_values h_front
    exact ⟨h_rest, rfl⟩
  | @member base property _ _ ih =>
    intro e' l l' h' h_l h_l' h_eq
    obtain ⟨h_front, h_last⟩ := ends_of_shown h_eq
    rw [frontWords, ← List.append_assoc] at h_front
    rcases h'.of_name h_last with rfl | ⟨base', h_base, rfl⟩
    · rw [frontWords, List.append_nil] at h_front
      exact absurd h_front.symm (h_l' _)
    · rw [frontWords, ← List.append_assoc] at h_front
      obtain ⟨h_rest, rfl⟩ := ih base' l l' h_base h_l h_l' (concat_inj h_front).1
      exact ⟨h_rest, rfl⟩
  | @compare c left right _ _ ih_left ih_right =>
    exact (IsOperation.compare c left right).cancels ih_left ih_right
  | @binary o left right _ _ ih_left ih_right =>
    exact (IsOperation.binary o left right).cancels ih_left ih_right

/-! ### Statements and programs -/

/-- No expression begins with a keyword. -/
private theorem shown_ne_cons (e : Expr) {w : Word} (h : w.kind.inExpression = false)
    (ws : List Word) : e.shown ≠ w :: ws := by
  intro h_eq
  have h_word := e.inExpression_of_mem_shown w (h_eq ▸ List.mem_cons_self)
  rw [h] at h_word
  cases h_word

private theorem eq_of_shown_value {e e' : Expr} (h : e.WellSpelled) (h' : e'.WellSpelled)
    (h_eq : e.shown = e'.shown) : e = e' :=
  (h.cancels e' [] [] h' noDot_nil noDot_nil h_eq).2

/-- **No two statements are shown by the same words.** Their first words tell the forms of statements
apart. -/
theorem Stmt.eq_of_shownBody {s t : Stmt} (h : s.WellSpelled) (h' : t.WellSpelled)
    (h_eq : s.shownBody = t.shownBody) : s = t := by
  cases s with
  | expression e =>
    cases t with
    | expression e' => rw [eq_of_shown_value h h' h_eq]
    | declare | print => exact absurd h_eq (shown_ne_cons e rfl _)
  | declare constant name e =>
    cases t with
    | expression e' => exact absurd h_eq.symm (shown_ne_cons e' rfl _)
    | print => cases congrArg Word.kind (List.head_eq_of_cons_eq h_eq)
    | declare constant' name' e' =>
      obtain ⟨h_keyword, h_rest⟩ := List.cons.inj h_eq
      obtain ⟨h_name, h_value⟩ := List.cons.inj h_rest
      have h_constant : constant = constant' := by
        have h_text := congrArg Word.text h_keyword
        revert h_text
        cases constant <;> cases constant' <;> decide
      have h_names : name = name' := congrArg Word.text h_name
      rw [h_constant, h_names, eq_of_shown_value h.2 h'.2 (List.tail_eq_of_cons_eq h_value)]
  | print e =>
    cases t with
    | expression e' => exact absurd h_eq.symm (shown_ne_cons e' rfl _)
    | declare => cases congrArg Word.kind (List.head_eq_of_cons_eq h_eq)
    | print e' =>
      have h_parens : e.shown ++ [Word.symbol .rightParen] = e'.shown ++ [Word.symbol .rightParen] :=
        List.tail_eq_of_cons_eq (List.tail_eq_of_cons_eq h_eq)
      rw [eq_of_shown_value h h' (concat_inj h_parens).1]

/-- There is no semicolon in a statement but the last word of it. -/
private theorem Stmt.semicolon_not_mem (s : Stmt) : Word.symbol .semicolon ∉ s.shownBody := by
  have h_expression : ∀ e : Expr, Word.symbol .semicolon ∉ e.shown := by
    intro e h_mem
    cases e.inExpression_of_mem_shown _ h_mem
  intro h_mem
  cases s with
  | expression e => exact h_expression e h_mem
  | declare constant name e =>
    rw [shownBody, List.mem_cons, List.mem_cons, List.mem_cons] at h_mem
    rcases h_mem with h_word | h_word | h_word | h_mem
    · cases congrArg Word.kind h_word
    · cases congrArg Word.kind h_word
    · cases congrArg Word.kind h_word
    · exact h_expression e h_mem
  | print e =>
    rw [shownBody, Word.parens, List.mem_cons, List.mem_cons, List.mem_append,
      List.mem_singleton] at h_mem
    rcases h_mem with h_word | h_word | h_mem | h_word
    · cases congrArg Word.kind h_word
    · cases congrArg Word.kind h_word
    · exact h_expression e h_mem
    · cases congrArg Word.kind h_word

/-- The words of a statement are those up to the first semicolon. -/
private theorem Stmt.takeWhile_shownBody (s : Stmt) (ws : List Word) :
    (s.shownBody ++ Word.symbol .semicolon :: ws).takeWhile (· ≠ Word.symbol .semicolon) =
      s.shownBody := by
  rw [List.takeWhile_append_of_pos, List.takeWhile_cons_of_neg (by simp), List.append_nil]
  intro w h_w
  rw [decide_eq_true_iff]
  rintro rfl
  exact s.semicolon_not_mem h_w

/-- **No two programs are shown by the same words.** The first semicolon ends the first
statement. -/
theorem Program.eq_of_shown {p q : Program} (h : Program.WellSpelled p)
    (h' : Program.WellSpelled q) (h_eq : Program.shown p = Program.shown q) : p = q := by
  have h_cons : ∀ (s : Stmt) (r : Program), Program.shown (s :: r) =
      s.shownBody ++ Word.symbol .semicolon :: Program.shown r := by
    intro s r
    rw [Program.shown, List.flatMap_cons, Stmt.shown, List.append_assoc]
    rfl
  induction p generalizing q with
  | nil =>
    cases q with
    | nil => rfl
    | cons t q =>
      rw [h_cons] at h_eq
      exact absurd h_eq.symm (List.append_ne_nil_of_right_ne_nil _ (List.cons_ne_nil _ _))
  | cons s p ih =>
    cases q with
    | nil =>
      rw [h_cons] at h_eq
      exact absurd h_eq (List.append_ne_nil_of_right_ne_nil _ (List.cons_ne_nil _ _))
    | cons t q =>
      obtain ⟨h_s, h_p⟩ := List.forall_mem_cons.1 h
      obtain ⟨h_t, h_q⟩ := List.forall_mem_cons.1 h'
      rw [h_cons, h_cons] at h_eq
      have h_body : s.shownBody = t.shownBody := by
        rw [← s.takeWhile_shownBody (Program.shown p), h_eq, t.takeWhile_shownBody]
      rw [h_body, List.append_cancel_left_eq] at h_eq
      rw [Stmt.eq_of_shownBody h_s h_t h_body, ih h_p h_q (List.tail_eq_of_cons_eq h_eq)]

end ScriptLang
