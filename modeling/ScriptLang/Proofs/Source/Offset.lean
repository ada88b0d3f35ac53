import Mathlib.Data.List.DropRight
import Mathlib.Order.Basic
import ScriptLang.Source.Span

/-!
# Positions by offset

The position at an offset of a text can be read off the characters in front of it, without carrying
it along: the line feeds among them say which line it is, and the characters behind the last of them
how far into the line. Positions carried along while a text is read are the same.

* `Position.atOffset` — the position at an offset, by counting.
* `Position.advance_start` — carrying a position along is counting.
* `Position.atOffset_lt` — a later offset has a later position.
* `Span.covering_eq` — the span of a stretch of a text, by the offsets of its first and its last
  character.
* `Span.covering_eq_add`, `Span.covering_append` — spans add up.
-/

namespace ScriptLang

namespace Position

/-- **The position at an offset of a text.** Its line is one more than there are line feeds in front
of it, its column one more than there are characters between the last of these, or the beginning of
the text, and the offset. -/
def atOffset (cs : List Char) (k : Nat) : Position where
  line := 1 + (cs.take k).count '\n'
  column := 1 + ((cs.take k).rtakeWhile (· ≠ '\n')).length

/-- **Carrying a position along** from the beginning of a text is counting lines and columns. -/
theorem advance_start (cs : List Char) :
    start.advance cs = ⟨1 + cs.count '\n', 1 + (cs.rtakeWhile (· ≠ '\n')).length⟩ := by
  -- the last character decides whether the line goes on
  induction cs using List.reverseRecOn with
  | nil => rfl
  | append_singleton cs c ih =>
    rw [advance_append, ih, advance_cons, advance_nil, next, List.count_append]
    by_cases h : c = '\n'
    · subst h
      rw [if_pos rfl, List.rtakeWhile_concat_neg _ _ _ (by simp)]
      rfl
    · have h_count : [c].count '\n' = 0 := List.count_eq_zero.2 fun h_mem =>
        h (List.mem_singleton.1 h_mem).symm
      have h_column : ((cs ++ [c]).rtakeWhile (· ≠ '\n')).length =
          (cs.rtakeWhile (· ≠ '\n')).length + 1 := by
        rw [List.rtakeWhile_concat_pos _ _ _ (by simp [h]), List.length_append,
          List.length_singleton]
      rw [if_neg h, h_count, h_column]
      rfl

/-- The position that is come to with so many characters of a text read. -/
theorem advance_start_append (pre rest : List Char) :
    start.advance pre = atOffset (pre ++ rest) pre.length := by
  rw [advance_start, atOffset, List.take_left]

/-- Text within a line takes up one column for each of its characters. -/
theorem advance_within_line (p : Position) {cs : List Char} (h : '\n' ∉ cs) :
    p.advance cs = ⟨p.line, p.column + cs.length⟩ := by
  induction cs generalizing p with
  | nil => rfl
  | cons c cs ih =>
    obtain ⟨h_c, h_cs⟩ := not_or.1 (mt List.mem_cons.2 h)
    rw [advance_cons, next, if_neg (Ne.symm h_c), ih _ h_cs, List.length_cons, Nat.add_assoc,
      Nat.add_comm 1]

/-! ### The order of positions -/

/-- One position is before another: in an earlier line, or earlier in the same. -/
instance : LT Position := ⟨fun p q => p.line < q.line ∨ p.line = q.line ∧ p.column < q.column⟩

theorem lt_def {p q : Position} :
    p < q ↔ p.line < q.line ∨ p.line = q.line ∧ p.column < q.column := Iff.rfl

instance : Preorder Position where
  le_refl p := .inr ⟨rfl, Nat.le_refl _⟩
  le_trans p q r h h' := by
    rw [le_def] at h h' ⊢
    omega
  lt_iff_le_not_ge p q := by
    rw [lt_def, le_def, le_def]
    omega

/-- A character takes the position on. -/
theorem lt_next (p : Position) (c : Char) : p < p.next c := by
  unfold next
  split
  · exact .inl (Nat.lt_succ_self _)
  · exact .inr ⟨rfl, Nat.lt_succ_self _⟩

theorem lt_advance (p : Position) {cs : List Char} (h : cs ≠ []) : p < p.advance cs := by
  induction cs generalizing p with
  | nil => exact absurd rfl h
  | cons c cs ih =>
    rw [advance_cons]
    cases cs with
    | nil => exact p.lt_next c
    | cons d ds => exact lt_trans (p.lt_next c) (ih _ (List.cons_ne_nil d ds))

theorem le_advance (p : Position) (cs : List Char) : p ≤ p.advance cs := by
  by_cases h : cs = []
  · rw [h, advance_nil]
  · exact (p.lt_advance h).le

private theorem eq_of_le_of_le {p q : Position} (h : p ≤ q) (h' : q ≤ p) : p = q := by
  obtain ⟨line, column⟩ := p
  obtain ⟨line', column'⟩ := q
  simp only [le_def, mk.injEq] at h h' ⊢
  omega

/-- **A later offset has a later position.** -/
theorem atOffset_lt {cs : List Char} {i j : Nat} (h : i < j) (h_j : j ≤ cs.length) :
    atOffset cs i < atOffset cs j := by
  obtain ⟨d, rfl⟩ := Nat.exists_eq_add_of_le (Nat.le_of_lt h)
  have h_between : (cs.drop i).take d ≠ [] := by
    rw [← List.length_pos_iff, List.length_take, List.length_drop]
    omega
  have h_at : ∀ k, atOffset cs k = start.advance (cs.take k) := fun k =>
    (advance_start (cs.take k)).symm
  rw [h_at, h_at, List.take_add, advance_append]
  exact lt_advance _ h_between

theorem atOffset_le {cs : List Char} {i j : Nat} (h : i ≤ j) (h_j : j ≤ cs.length) :
    atOffset cs i ≤ atOffset cs j := by
  rcases Nat.lt_or_eq_of_le h with h_lt | rfl
  · exact (atOffset_lt h_lt h_j).le
  · exact le_rfl

end Position

namespace Span

/-- **The span of a stretch of a text** goes from the position of its first character to that of its
last. -/
theorem covering_eq (pre rest : List Char) {text : List Char} (h : text ≠ []) :
    covering (Position.start.advance pre) text =
      ⟨.atOffset (pre ++ (text ++ rest)) pre.length,
        .atOffset (pre ++ (text ++ rest)) (pre.length + text.length - 1)⟩ := by
  have h_text : pre ++ (text ++ rest) =
      pre ++ text.dropLast ++ (text.getLast h :: rest) := by
    rw [List.append_assoc, ← List.singleton_append, ← List.append_assoc text.dropLast,
      List.dropLast_append_getLast]
  have h_length : pre.length + text.length - 1 = (pre ++ text.dropLast).length := by
    have h_pos := List.length_pos_iff.2 h
    rw [List.length_append, List.length_dropLast]
    omega
  rw [covering, Position.advance_start_append pre (text ++ rest), h_length, h_text,
    ← Position.advance_start_append, Position.advance_append, ← h_text,
    ← Position.advance_start_append]

/-! ### Spans that add up -/

/-- Spans in the order of the text add up to the one from where the first begins to where the second
ends. -/
theorem add_of_le {s t : Span} (h_first : s.first ≤ t.first) (h_last : s.last ≤ t.last) :
    s + t = ⟨s.first, t.last⟩ := by
  have h_end : (if t.last ≤ s.last then s.last else t.last) = t.last := by
    split
    · next h => exact Position.eq_of_le_of_le h_last h
    · rfl
  show Span.mk (if s.first ≤ t.first then s.first else t.first) _ = _
  rw [if_pos h_first, h_end]

/-- **The span of a stretch** is that of its first character and that of its last one together. -/
theorem covering_eq_add (p : Position) (cs : List Char) :
    covering p cs = point p + point (p.advance cs.dropLast) := by
  have h_le := p.le_advance cs.dropLast
  exact (add_of_le (s := point p) (t := point _) h_le h_le).symm

/-- **The spans of two stretches,** one right behind the other, add up to the span of both. -/
theorem covering_append (p : Position) {cs ds : List Char} (h_cs : cs ≠ []) (h_ds : ds ≠ []) :
    covering p cs + covering (p.advance cs) ds = covering p (cs ++ ds) := by
  have h_last : p.advance cs.dropLast ≤ (p.advance cs).advance ds.dropLast := by
    calc p.advance cs.dropLast
        ≤ (p.advance cs.dropLast).advance [cs.getLast h_cs] := Position.le_advance _ _
      _ = p.advance cs := by rw [← Position.advance_append, List.dropLast_append_getLast]
      _ ≤ (p.advance cs).advance ds.dropLast := Position.le_advance _ _
  have h_first : (covering p cs).first ≤ (covering (p.advance cs) ds).first := p.le_advance cs
  rw [add_of_le h_first h_last]
  show Span.mk p ((p.advance cs).advance ds.dropLast) = ⟨p, p.advance (cs ++ ds).dropLast⟩
  rw [List.dropLast_append_of_ne_nil h_ds, Position.advance_append]

end Span

end ScriptLang
