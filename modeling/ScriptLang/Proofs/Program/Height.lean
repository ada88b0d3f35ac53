import ScriptLang.Proofs.Program.Infix

/-!
# How tall expressions are

An expression is as tall as the longest way down its parts. Two things make it tall. One is that
expressions are nested inside one another in the infix form. The other is that operations and
members are strung together without any nesting, each being the first operand of the next one, as
in `a + b + c` or `a.b.c`. Between two levels of nesting there are four kinds of such chains, one
inside the other: of comparisons, sums, products and members.

* `Expr.height` — the longest way down.
* `Expr.links` and `Expr.longestChain` — how many operations and members are strung together, at the
  top of an expression and anywhere in it.
* `Expr.height_le` — nesting and chains bound the height.
-/

namespace ScriptLang

namespace Expr

/-! ### Measures -/

mutual

/-- **The height of an expression:** how many expressions there are on the longest way down. -/
def height : Expr → Nat
  | .identifier _ => 1
  | .literal _ => 1
  | .assign target value => max target.height value.height + 1
  | .object properties => propertyHeight properties + 1
  | .member base _ => base.height + 1
  | .compare _ left right => max left.height right.height + 1
  | .binary _ left right => max left.height right.height + 1
termination_by structural e => e

/-- The height of the tallest value in the properties of an object literal. -/
def propertyHeight : List (String × Expr) → Nat
  | [] => 0
  | (_, value) :: properties => max value.height (propertyHeight properties)
termination_by structural ps => ps

end

/-- How many operations and members are strung together at the top of an expression, each of them
the first operand of the one before. -/
def links : Expr → Nat
  | .member base _ => base.links + 1
  | .compare _ left _ => left.links + 1
  | .binary _ left _ => left.links + 1
  | .identifier _ | .literal _ | .assign .. | .object _ => 0

mutual

/-- **The longest chain** of operations and members anywhere in an expression. -/
def longestChain : Expr → Nat
  | .identifier _ => 0
  | .literal _ => 0
  | .assign target value => max target.longestChain value.longestChain
  | .object properties => longestPropertyChain properties
  | .member base property => max (member base property).links base.longestChain
  | .compare c left right =>
    max (compare c left right).links (max left.longestChain right.longestChain)
  | .binary o left right =>
    max (binary o left right).links (max left.longestChain right.longestChain)
termination_by structural e => e

/-- The longest chain in the properties of an object literal. -/
def longestPropertyChain : List (String × Expr) → Nat
  | [] => 0
  | (_, value) :: properties => max value.longestChain (longestPropertyChain properties)
termination_by structural ps => ps

end

theorem height_pos (e : Expr) : 1 ≤ e.height := by
  cases e with
  | identifier | literal => exact Nat.le_refl 1
  | assign | object | member | compare | binary => exact Nat.le_add_left 1 _

theorem propertyHeight_le_iff {properties : List (String × Expr)} {n : Nat} :
    propertyHeight properties ≤ n ↔ ∀ p ∈ properties, p.2.height ≤ n :=
  properties_le_iff rfl fun _ _ => rfl

theorem lt_propertyHeight_iff {properties : List (String × Expr)} {n : Nat} :
    n < propertyHeight properties ↔ ∃ p ∈ properties, n < p.2.height := by
  rw [← Nat.not_le, propertyHeight_le_iff]
  simp

theorem longestPropertyChain_le_iff {properties : List (String × Expr)} {n : Nat} :
    longestPropertyChain properties ≤ n ↔ ∀ p ∈ properties, p.2.longestChain ≤ n :=
  properties_le_iff rfl fun _ _ => rfl

/-- The chain at the top is one of the chains. -/
theorem links_le {e : Expr} {n : Nat} (h : e.longestChain ≤ n) : e.links ≤ n := by
  cases e with
  | identifier | literal | assign | object => exact Nat.zero_le n
  | member | compare | binary =>
    rw [longestChain] at h
    exact (Nat.max_le.1 h).1

/-! ### Nesting and chains bound the height -/

/-- How tall an expression can be at a position without any expression nested in it, if no chain is
longer than `n` and the chain at its top has so many links. From the position on there may be a
chain for each kind of operand that is not tighter yet, and at the position 0 it is the level of
nesting that pays for all of them. -/
def room (n links position : Nat) : Nat :=
  if position = 0 then 0 else (5 - max 2 position) * (n + 1) + links + 1

/-- What a level of nesting pays for. -/
def levelHeight (n : Nat) : Nat := 4 * n + 5

/-- **A level of nesting has room** for anything that is short of the level around it. -/
private theorem room_lt_levelHeight {n links : Nat} (h : links ≤ n) (k : Nat) :
    room n links k < levelHeight n := by
  have h_chains : (5 - max 2 k) * (n + 1) ≤ 3 * (n + 1) := Nat.mul_le_mul_right _ (by omega)
  unfold room levelHeight
  split <;> omega

/-- A looser position leaves more room. -/
private theorem room_anti (n links : Nat) {j k : Nat} (h : 1 ≤ j) (le : j ≤ k) :
    room n links k ≤ room n links j := by
  have h_chains : (5 - max 2 k) * (n + 1) ≤ (5 - max 2 j) * (n + 1) :=
    Nat.mul_le_mul_right _ (by omega)
  rw [room, room, if_neg (by omega), if_neg (by omega)]
  omega

/-- Behind the first operand of an operation there is one chain less to come. -/
private theorem room_succ_lt {n links t : Nat} (h : links ≤ n) (h_t : 2 ≤ t) (h_t' : t ≤ 4)
    (links' : Nat) : room n links (t + 1) < room n links' t := by
  have h_positions : 5 - max 2 t = 5 - max 2 (t + 1) + 1 := by omega
  rw [room, room, if_neg (by omega), if_neg (by omega), h_positions, Nat.succ_mul]
  omega

/-- A link more at the top needs that much more room. -/
private theorem room_succ_links {n links k : Nat} (h : 1 ≤ k) :
    room n (links + 1) k = room n links k + 1 := by
  rw [room, room, if_neg (by omega), if_neg (by omega)]
  omega

/-- **What fits at its tightest position fits at all of them,** since a level of nesting opens at a
tighter one. -/
private theorem le_room_of_opening {n links height inner t : Nat} (h_links : links ≤ n)
    (h : ∀ l, inner ≤ l → height ≤ levelHeight n * l + room n links t) {k l : Nat}
    (h_l : inner + opening t k ≤ l) : height ≤ levelHeight n * l + room n links k := by
  unfold opening at h_l
  split at h_l
  next =>
    -- the level that opens makes up for the room at the tightest position
    obtain ⟨l, rfl⟩ : ∃ l', l = l' + 1 := ⟨l - 1, by omega⟩
    have h_inner := h l (by omega)
    have h_room := room_lt_levelHeight h_links t
    rw [Nat.mul_succ]
    omega
  next h_k =>
    have h_room : room n links t ≤ room n links k := room_anti n links (by omega) (by omega)
    have h_inner := h l h_l
    omega

/-- **Both operands fit** where the operation is at its tightest position. -/
private theorem operands_le_room {n t l : Nat} (h_t : 2 ≤ t) (h_t' : t ≤ 4) {left right : Expr}
    (h_chain : right.longestChain ≤ n)
    (h_left : left.height ≤ levelHeight n * l + room n left.links t)
    (h_right : right.height ≤ levelHeight n * l + room n right.links (t + 1)) :
    max left.height right.height + 1 ≤ levelHeight n * l + room n (left.links + 1) t := by
  have h_room := room_succ_lt (links_le h_chain) h_t h_t' (left.links + 1)
  rw [room_succ_links (by omega)] at h_room ⊢
  omega

/-- The base of a member has no more room than the member. -/
private theorem room_basePosition_le (n links : Nat) (base : Expr) {k : Nat} (h : 1 ≤ k) :
    room n links (base.basePosition k) ≤ room n links k := by
  unfold basePosition
  split
  next h_loose =>
    obtain rfl : k = 1 := by omega
    exact Nat.le_refl _
  next =>
    -- at the position 5 there is room for no chain but the one at the top
    have h_chains : (5 - max 2 5) * (n + 1) ≤ (5 - max 2 k) * (n + 1) :=
      Nat.mul_le_mul_right _ (Nat.zero_le _)
    rw [room, room, if_neg (by decide), if_neg (by omega)]
    omega

/-- **Nesting, chains and the position bound the height.** By induction on the expression: an operand
is shorter by one, and so is the chain at its top if it is the first one; another operand stands at
a tighter position, or a level of nesting opens around it. -/
theorem height_le_room {n : Nat} (e : Expr) (h : e.longestChain ≤ n) {k l : Nat}
    (h_l : e.levels k ≤ l) : e.height ≤ levelHeight n * l + room n e.links k := by
  induction e using Expr.induction generalizing k l with
  | identifier | literal =>
    have h_opening : 0 + opening 5 k ≤ l := Nat.le_trans (Nat.le_of_eq (Nat.zero_add _)) h_l
    exact le_room_of_opening (links_le h) (fun l _ => Nat.le_add_left 1 _) h_opening
  | assign target value ih_target ih_value =>
    obtain ⟨h_target, h_value⟩ := Nat.max_le.1 h
    -- a level opens wherever an assignment stands, and has room for both of its sides
    have h_opening : opening 0 k = 1 := if_pos (Nat.eq_zero_or_pos k)
    rw [levels, h_opening] at h_l
    obtain ⟨l, rfl⟩ : ∃ l', l = l' + 1 := ⟨l - 1, by omega⟩
    obtain ⟨h_l_target, h_l_value⟩ := Nat.max_le.1 (Nat.le_of_succ_le_succ h_l)
    have h_height_target := ih_target h_target h_l_target
    have h_height_value := ih_value h_value h_l_value
    have h_room_target := room_lt_levelHeight (links_le h_target) 1
    have h_room_value := room_lt_levelHeight (links_le h_value) 0
    rw [height, Nat.mul_succ]
    omega
  | object properties ih =>
    refine le_room_of_opening (links_le h) (fun l h_inner => ?_) h_l
    rw [longestChain, longestPropertyChain_le_iff] at h
    have h_height : propertyHeight properties ≤ levelHeight n * l := by
      refine propertyHeight_le_iff.2 fun p h_p => ?_
      exact ih p h_p (h p h_p) (propertyLevels_le_iff.1 h_inner p h_p)
    exact Nat.add_le_add h_height (Nat.le_add_left 1 _)
  | member base property ih =>
    rw [longestChain] at h
    have h_base := (Nat.max_le.1 h).2
    rw [levels] at h_l
    rw [height, links]
    rcases Nat.eq_zero_or_pos k with rfl | h_k
    · -- a whole expression, so the level that opens has room for the base
      obtain ⟨l, rfl⟩ : ∃ l', l = l' + 1 := ⟨l - 1, by rw [opening_zero] at h_l; omega⟩
      have h_height := ih h_base (Nat.le_of_succ_le_succ h_l)
      have h_room := room_lt_levelHeight (links_le h_base) (base.basePosition 0)
      rw [Nat.mul_succ]
      omega
    · have h_height := ih h_base (Nat.le_trans (Nat.le_add_right _ _) h_l)
      have h_room := room_basePosition_le n base.links base h_k
      rw [room_succ_links h_k]
      omega
  | compare c left right ih_left ih_right =>
    refine le_room_of_opening (links_le h) (fun l h_inner => ?_) h_l
    rw [longestChain] at h
    obtain ⟨h_left, h_right⟩ := Nat.max_le.1 (Nat.max_le.1 h).2
    obtain ⟨h_l_left, h_l_right⟩ := Nat.max_le.1 h_inner
    exact operands_le_room (by decide) (by decide) h_right (ih_left h_left h_l_left)
      (ih_right h_right h_l_right)
  | binary o left right ih_left ih_right =>
    have h_position : 2 ≤ o.position ∧ o.position ≤ 4 := by cases o <;> decide
    refine le_room_of_opening (links_le h) (fun l h_inner => ?_) h_l
    rw [longestChain] at h
    obtain ⟨h_left, h_right⟩ := Nat.max_le.1 (Nat.max_le.1 h).2
    obtain ⟨h_l_left, h_l_right⟩ := Nat.max_le.1 h_inner
    exact operands_le_room h_position.1 h_position.2 h_right (ih_left h_left h_l_left)
      (ih_right h_right h_l_right)

/-- **Nesting and chains bound the height** of a whole expression. -/
theorem height_le {e : Expr} {n l : Nat} (h : e.longestChain ≤ n) (h_l : e.levels 0 ≤ l) :
    e.height ≤ l * levelHeight n := by
  rw [Nat.mul_comm]
  exact e.height_le_room h h_l

end Expr

end ScriptLang
