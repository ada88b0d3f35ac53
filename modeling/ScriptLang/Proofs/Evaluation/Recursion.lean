import ScriptLang.Evaluation.Basic
import ScriptLang.Proofs.Program.Height

/-!
# How deep evaluation and printing go

Evaluating an expression evaluates its parts, and printing it prints them. The levels of that
recursion are counted by cutting it off: what is left to do below a given number of levels is handed
to something else, whatever that may be. If it makes no difference what that is, then the recursion
did not get there.

* `evalLevel` and `Expr.renderLevel` — one level, the parts left to something else.
* `evalWithin` and `Expr.renderWithin` — so many levels, and below them something else.
* `evalWithin_eq` and `Expr.renderWithin_eq` — no recursion is deeper than the expression is tall.
-/

namespace ScriptLang

/-! ### Printing -/

namespace Expr

/-- One level of printing an expression, its parts printed by something else. -/
def renderLevel (part : Expr → String) : Expr → String
  | identifier name => name
  | literal value => value.render
  | assign target value => "(" ++ part target ++ " = " ++ part value ++ ")"
  | object properties =>
    "\x7b " ++ properties.foldr (fun p rest => p.1 ++ ": " ++ part p.2 ++ ", " ++ rest) "" ++ "\x7d"
  | member base property => part base ++ "." ++ property
  | compare c left right => "(" ++ c.symbol ++ " " ++ part left ++ " " ++ part right ++ ")"
  | binary o left right => "(" ++ o.symbol ++ " " ++ part left ++ " " ++ part right ++ ")"

/-- **Printing so many levels,** what is below them being printed by something else. -/
def renderWithin (below : Expr → String) : Nat → Expr → String
  | 0 => below
  | depth + 1 => renderLevel (renderWithin below depth)

private theorem renderProperties_eq {part : Expr → String} {properties : List (String × Expr)}
    (h : ∀ p ∈ properties, part p.2 = p.2.render) :
    properties.foldr (fun p rest => p.1 ++ ": " ++ part p.2 ++ ", " ++ rest) "" =
      renderProperties properties := by
  induction properties with
  | nil => rfl
  | cons p properties ih =>
    obtain ⟨h_p, h⟩ := List.forall_mem_cons.1 h
    rw [List.foldr_cons, ih h, h_p, renderProperties]

/-- **Printing recurses no deeper than the expression is tall.** -/
theorem renderWithin_eq (below : Expr → String) {e : Expr} {depth : Nat} (h : e.height ≤ depth) :
    renderWithin below depth e = e.render := by
  induction depth generalizing e with
  | zero => exact absurd (Nat.le_trans e.height_pos h) (by decide)
  | succ depth ih =>
    rw [renderWithin]
    cases e with
    | identifier | literal => rfl
    | assign left right | compare _ left right | binary _ left right =>
      obtain ⟨h_left, h_right⟩ := Nat.max_le.1 (Nat.le_of_succ_le_succ h)
      rw [renderLevel, ih h_left, ih h_right, render]
    | object properties =>
      have h_properties := propertyHeight_le_iff.1 (Nat.le_of_succ_le_succ h)
      rw [renderLevel, renderProperties_eq fun p h_p => ih (h_properties p h_p), render]
    | member base property => rw [renderLevel, ih (Nat.le_of_succ_le_succ h), render]

private theorem length_le_of_mem (part : Expr → String) {properties : List (String × Expr)}
    {p : String × Expr} (h : p ∈ properties) :
    (part p.2).length ≤ (properties.foldr
      (fun p rest => p.1 ++ ": " ++ part p.2 ++ ", " ++ rest) "").length := by
  induction properties with
  | nil => cases h
  | cons q properties ih =>
    simp only [List.foldr_cons, String.length_append]
    rcases List.mem_cons.1 h with rfl | h
    · omega
    · have h_rest := ih h
      omega

/-- What is printed below the levels stays in the text, if there is something below them. -/
private theorem length_le_renderWithin (text : String) {e : Expr} {depth : Nat}
    (h : depth < e.height) : text.length ≤ (renderWithin (fun _ => text) depth e).length := by
  induction depth generalizing e with
  | zero => exact Nat.le_refl _
  | succ depth ih =>
    rw [renderWithin]
    cases e with
    | identifier | literal => exact absurd (Nat.le_of_succ_le_succ h) (Nat.not_succ_le_zero _)
    | assign left right | compare _ left right | binary _ left right =>
      have h_part : depth < left.height ∨ depth < right.height := by
        rw [height] at h
        omega
      simp only [renderLevel, String.length_append]
      rcases h_part with h | h
      · have h_left := ih h
        omega
      · have h_right := ih h
        omega
    | object properties =>
      obtain ⟨p, h_p, h_height⟩ := lt_propertyHeight_iff.1 (Nat.le_of_succ_le_succ h)
      have h_value := ih h_height
      have h_mem := length_le_of_mem (renderWithin (fun _ => text) depth) h_p
      simp only [renderLevel, String.length_append]
      omega
    | member base property =>
      have h_base := ih (Nat.le_of_succ_le_succ h)
      simp only [renderLevel, String.length_append]
      omega

/-- **Printing recurses exactly as deep as the expression is tall:** with fewer levels, a text from
below that is longer than the expression would show. -/
theorem renderWithin_eq_iff {e : Expr} {depth : Nat} :
    (∀ below, renderWithin below depth e = e.render) ↔ e.height ≤ depth := by
  refine ⟨fun h => Nat.le_of_not_lt fun h_short => ?_, fun h below => renderWithin_eq below h⟩
  have h_long := length_le_renderWithin (e.render ++ "!") h_short
  rw [h, String.length_append] at h_long
  exact absurd h_long (Nat.not_succ_le_self _)

end Expr

/-! ### Evaluation -/

open Eval

/-- One level of evaluating an expression, its parts evaluated by something else. -/
def evalLevel (s : ScopeId) (part : Expr → Eval Value) : Expr → Eval Value
  | .identifier name => lookup s name
  | .literal value => pure value.toValue
  | .assign (.identifier name) value => do
    let v ← part value
    assign s name v
    return v
  | .assign (.member base property) value => do
    let b ← part base
    let o ← objectOr .setOnNonObject b
    let v ← part value
    setProperty o property v
    return v
  | .assign target _ => throw (.invalidAssignmentTarget target.render)
  | .object properties => do
    let fields ← properties.foldlM (fun fields p => return fields.insert p.1 (← part p.2)) ∅
    create fields
  | .member base property => do
    let b ← part base
    let o ← objectOr .getOnNonObject b
    getProperty o property
  | .compare c left right => do
    let a ← part left
    let b ← part right
    compareValues c a b
  | .binary o left right => do
    let a ← part left
    let b ← part right
    ofResult (o.apply a b)

/-- **Evaluating so many levels,** what is below them being evaluated by something else. -/
def evalWithin (s : ScopeId) (below : Expr → Eval Value) : Nat → Expr → Eval Value
  | 0 => below
  | depth + 1 => evalLevel s (evalWithin s below depth)

private theorem evalProperties_eq {s : ScopeId} {part : Expr → Eval Value}
    {properties : List (String × Expr)} (h : ∀ p ∈ properties, part p.2 = eval s p.2)
    (fields : Table Value) :
    properties.foldlM (fun fields p => return fields.insert p.1 (← part p.2)) fields =
      evalProperties s fields properties := by
  induction properties generalizing fields with
  | nil => rfl
  | cons p properties ih =>
    obtain ⟨h_p, h⟩ := List.forall_mem_cons.1 h
    rw [List.foldlM_cons, h_p, evalProperties, bind_assoc]
    refine bind_congr fun v => ?_
    rw [pure_bind]
    exact ih h (fields.insert p.1 v)

/-- **Evaluation recurses no deeper than the expression is tall.** -/
theorem evalWithin_eq (s : ScopeId) (below : Expr → Eval Value) {e : Expr} {depth : Nat}
    (h : e.height ≤ depth) : evalWithin s below depth e = eval s e := by
  induction depth generalizing e with
  | zero => exact absurd (Nat.le_trans e.height_pos h) (by decide)
  | succ depth ih =>
    rw [evalWithin]
    cases e with
    | identifier | literal => rfl
    | assign target value =>
      obtain ⟨h_target, h_value⟩ := Nat.max_le.1 (Nat.le_of_succ_le_succ h)
      cases target with
      | identifier name => rw [evalLevel, ih h_value, eval]
      | member base property =>
        -- the member itself is not evaluated, which saves a level
        have h_base : base.height ≤ depth := Nat.le_of_succ_le h_target
        rw [evalLevel, ih h_base, ih h_value, eval]
      | literal | assign | object | compare | binary => rfl
    | object properties =>
      have h_properties := Expr.propertyHeight_le_iff.1 (Nat.le_of_succ_le_succ h)
      rw [evalLevel, evalProperties_eq fun p h_p => ih (h_properties p h_p), eval]
    | member base property => rw [evalLevel, ih (Nat.le_of_succ_le_succ h), eval]
    | compare _ left right | binary _ left right =>
      obtain ⟨h_left, h_right⟩ := Nat.max_le.1 (Nat.le_of_succ_le_succ h)
      rw [evalLevel, ih h_left, ih h_right, eval]

end ScriptLang
