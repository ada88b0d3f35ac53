import ScriptLang.Proofs.Grammar.Numeral
import ScriptLang.Proofs.Token.Wording

/-!
# Programs in infix form

A program written out as a script: operators stand between their operands, every declaration has
its value, and parentheses stand only where the grammar needs them. What the grammar needs depends
on the *position* of an expression, a number from the loosest position to the tightest: 0 for a
whole expression, 1 for what may be assigned to, 2, 3 and 4 for operands of comparators, of sums
and of products, and 5 for what a member is taken of.

An object literal, with the member names behind it, is no operand. So member access is the one form
that looks at its base: at the positions 0 and 1 a literal may begin it without parentheses.

* `Program.unparse` — the infix form.
* `Program.levels` — how deeply expressions are nested inside one another in it.
* `Program.WellSpelled` — the programs whose names and literals can be spelled at all.
* `Expr.levels_mono`, `Expr.levels_zero_le` and `Expr.levels_le_zero` — how the nesting depends on
  the position.
* `Program.fits_words` — the words of the infix form are ones that their kinds can have.
-/

namespace ScriptLang

/-! ### What can be spelled -/

/-- A literal can be spelled if it is a number from zero on or a string without quotes. There is no
spelling of a truth value; the names `true` and `false` are names. -/
def Literal.WellSpelled : Literal → Prop
  | number n => 0 ≤ n
  | string s => '"' ∉ s.toList
  | boolean _ => False

/-- **An expression can be spelled** if its names and literals can, whatever its form. -/
inductive Expr.WellSpelled : Expr → Prop where
  | identifier {name} (h : Lexeme.IsName name) : WellSpelled (.identifier name)
  | literal {v} (h : v.WellSpelled) : WellSpelled (.literal v)
  | assign {target value} (h : target.WellSpelled) (h' : value.WellSpelled) :
      WellSpelled (.assign target value)
  | object {properties} (keys : ∀ p ∈ properties, Lexeme.IsName p.1)
      (values : ∀ p ∈ properties, p.2.WellSpelled) : WellSpelled (.object properties)
  | member {base property} (h : base.WellSpelled) (h' : Lexeme.IsName property) :
      WellSpelled (.member base property)
  | compare {c left right} (h : left.WellSpelled) (h' : right.WellSpelled) :
      WellSpelled (.compare c left right)
  | binary {o left right} (h : left.WellSpelled) (h' : right.WellSpelled) :
      WellSpelled (.binary o left right)

/-- A statement can be spelled if its expression and the name it declares can. -/
def Stmt.WellSpelled : Stmt → Prop
  | expression e => e.WellSpelled
  | declare _ name e => Lexeme.IsName name ∧ e.WellSpelled
  | print e => e.WellSpelled

/-- **A program can be spelled** if its statements can. -/
def Program.WellSpelled (p : Program) : Prop := ∀ s ∈ p, s.WellSpelled

/-! ### The infix form -/

/-- The word of a symbol. -/
def Word.symbol (kind : TokenKind) : Word := ⟨kind, kind.describe⟩

/-- The word of a literal. -/
def Literal.word : Literal → Word
  | number n => ⟨.number, toString n.toInt⟩
  | string s => ⟨.string, s⟩
  | boolean b => ⟨.identifier, if b then "true" else "false"⟩

/-- The tightest position that an operation stands in without parentheses. -/
def Operator.position (o : Operator) : Nat := if o.isSum then 3 else 4

/-- The words, between parentheses if they are needed. -/
def parenthesised (needed : Prop) [Decidable needed] (ws : List Word) : List Word :=
  if needed then Word.symbol .leftParen :: (ws ++ [Word.symbol .rightParen]) else ws

namespace Expr

/-- Is it an object literal, or a member of one, or a member of that, and so on? -/
def isObject : Expr → Bool
  | .object _ => true
  | .member base _ => base.isObject
  | _ => false

/-- The position of the base in a member access at the given position. -/
def basePosition (base : Expr) (position : Nat) : Nat :=
  if position ≤ 1 ∧ base.isObject = true then 1 else 5

mutual

/-- **The words of an expression** at a position. -/
def words : Expr → (position : Nat) → List Word
  | .identifier name, _ => [⟨.identifier, name⟩]
  | .literal v, _ => [v.word]
  | .assign target value, k =>
    parenthesised (0 < k) (target.words 1 ++ Word.symbol .equal :: value.words 0)
  | .object properties, k =>
    parenthesised (1 < k)
      (Word.symbol .leftBrace :: (propertyWords properties ++ [Word.symbol .rightBrace]))
  | .member base property, k =>
    base.words (base.basePosition k) ++ [Word.symbol .dot, ⟨.identifier, property⟩]
  | .compare c left right, k =>
    parenthesised (2 < k) (left.words 2 ++ Word.symbol c.kind :: right.words 3)
  | .binary o left right, k =>
    parenthesised (o.position < k)
      (left.words o.position ++ Word.symbol o.kind :: right.words (o.position + 1))
termination_by structural e => e

/-- The words of the properties of an object literal, a comma behind each of them. -/
def propertyWords : List (String × Expr) → List Word
  | [] => []
  | (key, value) :: properties =>
    ⟨.identifier, key⟩ :: Word.symbol .colon ::
      (value.words 0 ++ Word.symbol .comma :: propertyWords properties)
termination_by structural ps => ps

end

/-! ### Nesting -/

/-- How many expressions open around a form whose tightest position is `tightest`: one where a whole
expression stands, that is at the position 0 and between parentheses, and none elsewhere. -/
def opening (tightest position : Nat) : Nat := if position = 0 ∨ tightest < position then 1 else 0

mutual

/-- **How deeply expressions are nested** in the words of an expression at a position. -/
def levels : Expr → (position : Nat) → Nat
  | .identifier _, k => opening 5 k
  | .literal _, k => opening 5 k
  | .assign target value, k => max (target.levels 1) (value.levels 0) + opening 0 k
  | .object properties, k => propertyLevels properties + opening 1 k
  | .member base _, k => base.levels (base.basePosition k) + opening 5 k
  | .compare _ left right, k => max (left.levels 2) (right.levels 3) + opening 2 k
  | .binary o left right, k =>
    max (left.levels o.position) (right.levels (o.position + 1)) + opening o.position k
termination_by structural e => e

/-- How deeply expressions are nested in the properties of an object literal. -/
def propertyLevels : List (String × Expr) → Nat
  | [] => 0
  | (_, value) :: properties => max (value.levels 0) (propertyLevels properties)
termination_by structural ps => ps

end

end Expr

/-! ### Statements and programs -/

/-- The words of a statement, its semicolon included. -/
def Stmt.words : Stmt → List Word
  | expression e => e.words 0 ++ [Word.symbol .semicolon]
  | declare constant name e =>
    ⟨.declaration, if constant then "const" else "let"⟩ :: ⟨.identifier, name⟩ ::
      Word.symbol .equal :: (e.words 0 ++ [Word.symbol .semicolon])
  | print e =>
    Word.symbol .print :: Word.symbol .leftParen ::
      (e.words 0 ++ [Word.symbol .rightParen, Word.symbol .semicolon])

/-- How deeply expressions are nested in the words of a statement. -/
def Stmt.levels : Stmt → Nat
  | expression e | declare _ _ e | print e => e.levels 0

namespace Program

/-- The words of a program. -/
def words (p : Program) : List Word := p.flatMap Stmt.words

/-- **A program in infix form,** with a blank between any two words. -/
def unparse (p : Program) : String := " ".intercalate ((words p).map Word.spelling)

/-- **How deeply expressions are nested** in the infix form: as deeply as in the worst statement. -/
def levels (p : Program) : Nat := (p.map Stmt.levels).foldr max 0

theorem levels_le_iff {p : Program} {n : Nat} : levels p ≤ n ↔ ∀ s ∈ p, s.levels ≤ n := by
  induction p with
  | nil => simp [levels]
  | cons s p ih =>
    rw [List.forall_mem_cons, ← ih, levels, List.map_cons, List.foldr_cons]
    exact Nat.max_le

end Program

/-! ### Nesting and positions -/

namespace Expr

/-- A measure of properties that is the greatest of their values' is bounded where these are. -/
theorem properties_le_iff {f : List (String × Expr) → Nat} {g : Expr → Nat} (nil : f [] = 0)
    (cons : ∀ p ps, f (p :: ps) = max (g p.2) (f ps)) {properties : List (String × Expr)} {n : Nat} :
    f properties ≤ n ↔ ∀ p ∈ properties, g p.2 ≤ n := by
  induction properties with
  | nil => simp [nil]
  | cons p properties ih =>
    rw [List.forall_mem_cons, ← ih, cons]
    exact Nat.max_le

theorem propertyLevels_le_iff {properties : List (String × Expr)} {n : Nat} :
    propertyLevels properties ≤ n ↔ ∀ p ∈ properties, p.2.levels 0 ≤ n :=
  properties_le_iff (g := fun e => e.levels 0) rfl fun _ _ => rfl

@[simp] theorem opening_zero (t : Nat) : opening t 0 = 1 := rfl

theorem opening_le_one (t k : Nat) : opening t k ≤ 1 := by
  unfold opening
  split <;> decide

theorem opening_mono (t : Nat) {j k : Nat} (h : 1 ≤ j) (le : j ≤ k) :
    opening t j ≤ opening t k := by
  unfold opening
  split
  · -- at a position from 1 on only the parentheses count, and a tighter one needs them as well
    exact Nat.le_of_eq (if_pos (by omega)).symm
  · exact Nat.zero_le _

/-- At a loose position a base stands loosely, if it may, and otherwise where it always stands. -/
theorem basePosition_mono (base : Expr) {j k : Nat} (le : j ≤ k) :
    1 ≤ base.basePosition j ∧ base.basePosition j ≤ base.basePosition k := by
  unfold basePosition
  cases base.isObject with
  | true =>
    -- 1 up to the position 1, and 5 beyond it
    simp only [and_true]
    split <;> split <;> omega
  | false => simp

/-- **The tighter the position, the deeper the nesting,** whole expressions apart. -/
theorem levels_mono (e : Expr) {j k : Nat} (h : 1 ≤ j) (le : j ≤ k) : e.levels j ≤ e.levels k := by
  induction e using Expr.induction generalizing j k with
  | member base property ih =>
    -- the one form that passes its position on
    obtain ⟨h_one, h_le⟩ := base.basePosition_mono le
    rw [levels, levels]
    exact Nat.add_le_add (ih h_one h_le) (opening_mono 5 h le)
  | identifier | literal => exact opening_mono 5 h le
  | assign | object | compare | binary =>
    rw [levels, levels]
    exact Nat.add_le_add_left (opening_mono _ h le) _

/-- **A whole expression** spends one level on itself. -/
theorem levels_zero_le (e : Expr) : e.levels 0 ≤ e.levels 1 + 1 := by
  cases e with
  | identifier | literal => exact Nat.succ_le_succ (Nat.zero_le _)
  | member base property =>
    have h_base : base.basePosition 0 = base.basePosition 1 := by simp [basePosition]
    rw [levels, levels, h_base, opening_zero]
    omega
  | assign | object | compare | binary =>
    rw [levels, levels, opening_zero]
    omega

/-- A member of an object literal spends no more than the literal, as long as no operand is asked
for. -/
theorem levels_basePosition_zero (base : Expr) :
    base.levels 0 ≤ base.levels (base.basePosition 0) + 1 := by
  unfold basePosition
  split
  · exact base.levels_zero_le
  · exact Nat.le_trans base.levels_zero_le (Nat.succ_le_succ (base.levels_mono (by decide)
      (by decide)))

/-- **Parentheses allow for anything:** at the tightest position an expression is nested no deeper
than as a whole expression. -/
theorem levels_le_zero (e : Expr) : e.levels 5 ≤ e.levels 0 := by
  induction e using Expr.induction with
  | identifier | literal => exact opening_le_one 5 5
  | member base property ih =>
    have h_five : base.basePosition 5 = 5 := by simp [basePosition]
    rw [levels, levels, h_five, opening_zero]
    exact Nat.le_trans ih base.levels_basePosition_zero
  | assign | object | compare | binary =>
    rw [levels, levels, opening_zero]
    exact Nat.add_le_add_left (opening_le_one _ 5) _

end Expr

/-! ### The words fit -/

open Lexeme

private theorem fits_symbol_word {kind : TokenKind} (h : kind ∈ TokenKind.symbols) :
    Fits (Word.symbol kind).kind (Word.symbol kind).text := (fits_symbol h).2 rfl

private theorem comparator_mem_symbols (c : Comparator) : c.kind ∈ TokenKind.symbols := by
  cases c <;> decide

private theorem operator_mem_symbols (o : Operator) : o.kind ∈ TokenKind.symbols := by
  cases o <;> decide

/-- What holds of some words and of symbols holds of the words between parentheses. -/
private theorem forall_mem_parenthesised {needed : Prop} [Decidable needed] {ws : List Word}
    (h : ∀ w ∈ ws, Fits w.kind w.text) :
    ∀ w ∈ parenthesised needed ws, Fits w.kind w.text := by
  unfold parenthesised
  split
  · intro w h_w
    rcases List.mem_cons.1 h_w with rfl | h_w
    · exact fits_symbol_word (by decide)
    · rcases List.mem_append.1 h_w with h_w | h_w
      · exact h w h_w
      · obtain rfl := List.mem_singleton.1 h_w
        exact fits_symbol_word (by decide)
  · exact h

/-- What holds of the words on both sides of a symbol holds of all of them. -/
private theorem forall_mem_around (kind : TokenKind) (h_kind : kind ∈ TokenKind.symbols)
    {us vs : List Word} (h : ∀ w ∈ us, Fits w.kind w.text) (h' : ∀ w ∈ vs, Fits w.kind w.text) :
    ∀ w ∈ us ++ Word.symbol kind :: vs, Fits w.kind w.text := by
  intro w h_w
  rcases List.mem_append.1 h_w with h_w | h_w
  · exact h w h_w
  · rcases List.mem_cons.1 h_w with rfl | h_w
    · exact fits_symbol_word h_kind
    · exact h' w h_w

theorem Literal.fits_word {v : Literal} (h : v.WellSpelled) : Fits v.word.kind v.word.text := by
  cases v with
  | number n =>
    have h_text : (Literal.number n).word.text.toList = _ := Numeral.toList_toString h
    -- from zero on a number is spelled by its digits, of which there is always one
    refine ⟨?_, ?_⟩
    · rw [h_text]
      exact Nat.toDigits_ne_nil
    · intro c h_c
      rw [h_text] at h_c
      exact Nat.isDigit_of_mem_toDigits (by decide) (by decide) h_c
  | string s => exact h
  | boolean b => exact h.elim

/-- **The words of an expression fit** their kinds. -/
theorem Expr.fits_words {e : Expr} (h : e.WellSpelled) (k : Nat) :
    ∀ w ∈ e.words k, Fits w.kind w.text := by
  induction h generalizing k with
  | identifier h_name =>
    intro w h_w
    obtain rfl := List.mem_singleton.1 h_w
    exact h_name
  | literal h_literal =>
    intro w h_w
    obtain rfl := List.mem_singleton.1 h_w
    exact Literal.fits_word h_literal
  | assign _ _ ih₁ ih₂ =>
    exact forall_mem_parenthesised (forall_mem_around .equal (by decide) (ih₁ 1) (ih₂ 0))
  | @object properties keys values ih =>
    have h_properties : ∀ w ∈ propertyWords properties, Fits w.kind w.text := by
      -- the values are spoken for by `ih`, in the same order
      clear values
      induction properties with
      | nil => exact List.forall_mem_nil _
      | cons p properties ih' =>
        obtain ⟨h_key, keys⟩ := List.forall_mem_cons.1 keys
        obtain ⟨h_value, ih⟩ := List.forall_mem_cons.1 ih
        intro w h_w
        rcases List.mem_cons.1 h_w with rfl | h_w
        · exact h_key
        · rcases List.mem_cons.1 h_w with rfl | h_w
          · exact fits_symbol_word (by decide)
          · exact forall_mem_around .comma (by decide) (h_value 0) (ih' keys ih) w h_w
    have h_none : ∀ w ∈ ([] : List Word), Fits w.kind w.text := List.forall_mem_nil _
    have h_close := forall_mem_around .rightBrace (by decide) h_properties h_none
    have h_open := forall_mem_around .leftBrace (by decide) h_none h_close
    exact forall_mem_parenthesised h_open
  | member _ h_property ih =>
    refine forall_mem_around .dot (by decide) (ih _) ?_
    intro w h_w
    obtain rfl := List.mem_singleton.1 h_w
    exact h_property
  | compare _ _ ih₁ ih₂ =>
    exact forall_mem_parenthesised (forall_mem_around _ (comparator_mem_symbols _) (ih₁ 2) (ih₂ 3))
  | binary _ _ ih₁ ih₂ =>
    exact forall_mem_parenthesised (forall_mem_around _ (operator_mem_symbols _) (ih₁ _) (ih₂ _))

theorem Stmt.fits_words {s : Stmt} (h : s.WellSpelled) :
    ∀ w ∈ s.words, Fits w.kind w.text := by
  have h_none : ∀ w ∈ ([] : List Word), Fits w.kind w.text := List.forall_mem_nil _
  cases s with
  | expression e => exact forall_mem_around .semicolon (by decide) (e.fits_words h 0) h_none
  | declare constant name e =>
    obtain ⟨h_name, h_e⟩ := h
    intro w h_w
    rcases List.mem_cons.1 h_w with rfl | h_w
    · cases constant
      · exact .inl rfl
      · exact .inr rfl
    · rcases List.mem_cons.1 h_w with rfl | h_w
      · exact h_name
      · exact forall_mem_around .equal (by decide) h_none
          (forall_mem_around .semicolon (by decide) (e.fits_words h_e 0) h_none) w h_w
  | print e =>
    intro w h_w
    rcases List.mem_cons.1 h_w with rfl | h_w
    · rfl
    · exact forall_mem_around .leftParen (by decide) h_none
        (forall_mem_around .rightParen (by decide) (e.fits_words h 0)
          (forall_mem_around .semicolon (by decide) h_none h_none)) w h_w

/-- **The words of a program fit** their kinds. -/
theorem Program.fits_words {p : Program} (h : WellSpelled p) :
    ∀ w ∈ words p, Fits w.kind w.text := by
  intro w h_w
  obtain ⟨s, h_s, h_w⟩ := List.mem_flatMap.1 h_w
  exact Stmt.fits_words (h s h_s) w h_w

end ScriptLang
