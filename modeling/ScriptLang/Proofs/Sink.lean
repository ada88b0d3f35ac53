import ScriptLang.Sink

/-!
# What an output still takes

How much more an output takes depends on its remaining capacity alone, not on what was written
before. So two outputs with the same remaining capacity take the same part of whatever is written to
both of them, and have the same remaining capacity afterwards.

A limit does nothing but cut off: what is written to an output with a limit is what would be written
without one, as far as the limit. And for what an output takes in the end it does not matter into
how many pieces a text is divided, if the first piece that does not fit is the last one written.

* `Sink.remaining`, `Sink.remaining_write_congr` — what an output still takes.
* `Sink.truncate`, `Sink.write_truncate`, `Sink.takes_truncate` — an output cut off at a limit.
* `Sink.write_append_of_takes`, `Sink.write_append_of_not_takes` — writing in pieces.
-/

namespace ScriptLang.Sink

/-- How many bytes more fit, if there is a limit. -/
def remaining (s : Sink) : Option Nat := s.capacity.map fun limit => limit - s.written.size

/-- How much fits depends on the remaining capacity alone. -/
theorem fitting_eq (s : Sink) (n : Nat) : s.fitting n = s.remaining.elim n (min n) := by
  unfold fitting remaining
  cases s.capacity <;> rfl

/-- What is written takes up that much of the remaining capacity. -/
theorem remaining_write (s : Sink) (bytes : ByteArray) :
    (s.write bytes).remaining = s.remaining.map fun limit => limit - s.fitting bytes.size := by
  unfold remaining
  rw [capacity_write, Option.map_map]
  have h_size : (s.write bytes).written.size = s.written.size + s.fitting bytes.size := by
    have h_le : s.fitting bytes.size ≤ bytes.size := by
      unfold fitting
      split
      · exact Nat.le_refl _
      · exact Nat.min_le_left _ _
    show (s.written ++ bytes.extract 0 (s.fitting bytes.size)).size = _
    rw [ByteArray.size_append, ByteArray.size_extract, Nat.min_eq_left h_le, Nat.sub_zero]
  refine congrArg (Option.map · s.capacity) (funext fun limit => ?_)
  show limit - (s.write bytes).written.size = limit - s.written.size - s.fitting bytes.size
  rw [h_size, Nat.sub_add_eq]

variable {s₁ s₂ : Sink}

theorem fitting_congr (h : s₁.remaining = s₂.remaining) (n : Nat) :
    s₁.fitting n = s₂.fitting n := by
  rw [fitting_eq, fitting_eq, h]

theorem takes_congr (h : s₁.remaining = s₂.remaining) (bytes : ByteArray) :
    s₁.takes bytes = s₂.takes bytes := by
  unfold takes
  rw [fitting_congr h]

/-- **Writing the same keeps the remaining capacities the same.** -/
theorem remaining_write_congr (h : s₁.remaining = s₂.remaining) (bytes : ByteArray) :
    (s₁.write bytes).remaining = (s₂.write bytes).remaining := by
  rw [remaining_write, remaining_write, h, fitting_congr h]

/-! ### Cutting off -/

private theorem extract_of_size_le {bytes : ByteArray} {n : Nat} (h : bytes.size ≤ n) :
    bytes.extract 0 n = bytes :=
  ByteArray.ext (by rw [ByteArray.data_extract]; exact Array.extract_eq_self_of_le h)

/-- What is cut off from the first of two parts is cut off from both. -/
theorem extract_append_of_le {a : ByteArray} {n : Nat} (h : n ≤ a.size) (b : ByteArray) :
    (a ++ b).extract 0 n = a.extract 0 n := by
  rw [ByteArray.extract_append, Nat.zero_sub, Nat.sub_eq_zero_of_le h, ByteArray.extract_same,
    ByteArray.append_empty]

/-- What is cut off behind the first of two parts is cut off from the second. -/
theorem extract_append_add (a b : ByteArray) (n : Nat) :
    (a ++ b).extract 0 (a.size + n) = a ++ b.extract 0 n := by
  rw [ByteArray.extract_append, Nat.zero_sub, Nat.add_sub_cancel_left,
    extract_of_size_le (Nat.le_add_right _ _)]

/-- **An output cut off at a limit:** what is beyond it was not written, and never will be. -/
def truncate (limit : Nat) (s : Sink) : Sink := ⟨s.written.extract 0 limit, some limit⟩

/-- Within the limit nothing is cut off. -/
theorem truncate_of_le {s : Sink} {limit : Nat} (h : s.written.size ≤ limit) :
    s.truncate limit = { s with capacity := some limit } := by
  unfold truncate
  rw [extract_of_size_le h]

/-- How much fits into an output without a limit, and how much fits once it has one. -/
private theorem fitting_truncate {s : Sink} {limit : Nat} (h : s.written.size ≤ limit) (n : Nat) :
    (s.truncate limit).fitting n = min n (limit - s.written.size) := by
  rw [truncate_of_le h]
  rfl

private theorem written_write_of_unlimited {s : Sink} (h : s.capacity = none)
    (bytes : ByteArray) : (s.write bytes).written = s.written ++ bytes :=
  written_write_of_takes (takes_of_unlimited h bytes)

/-- **Writing to an output with a limit is writing without one,** and cutting off what is beyond the
limit. -/
theorem write_truncate {s : Sink} {limit : Nat} (h : s.capacity = none)
    (h_fits : s.written.size ≤ limit) (bytes : ByteArray) :
    (s.truncate limit).write bytes = (s.write bytes).truncate limit := by
  have h_bytes : bytes.extract 0 (min bytes.size (limit - s.written.size)) =
      bytes.extract 0 (limit - s.written.size) := by
    rcases Nat.le_total bytes.size (limit - s.written.size) with h_le | h_le
    · rw [Nat.min_eq_left h_le, ByteArray.extract_zero_size,
        extract_of_size_le h_le]
    · rw [Nat.min_eq_right h_le]
  have h_written : ((s.truncate limit).write bytes).written =
      ((s.write bytes).truncate limit).written := by
    calc ((s.truncate limit).write bytes).written
        = s.written.extract 0 limit ++
            bytes.extract 0 ((s.truncate limit).fitting bytes.size) := rfl
      _ = s.written.extract 0 limit ++ bytes.extract 0 (limit - s.written.size) := by
          rw [fitting_truncate h_fits, h_bytes]
      _ = (s.written ++ bytes).extract 0 limit := by
          rw [ByteArray.extract_append, Nat.zero_sub]
      _ = ((s.write bytes).truncate limit).written := by
          rw [← written_write_of_unlimited h]
          rfl
  unfold truncate at h_written ⊢
  exact congrArg (Sink.mk · (some limit)) h_written

/-- **What fits under a limit** is what does not lead beyond it. -/
theorem takes_truncate {s : Sink} {limit : Nat} (h : s.capacity = none)
    (h_fits : s.written.size ≤ limit) (bytes : ByteArray) :
    (s.truncate limit).takes bytes ↔ (s.write bytes).written.size ≤ limit := by
  rw [written_write_of_unlimited h, ByteArray.size_append]
  unfold takes
  rw [fitting_truncate h_fits, decide_eq_true_iff]
  omega

/-! ### Writing in pieces -/

/-- Nothing always fits, and writing it changes nothing. -/
theorem write_empty (s : Sink) : s.takes .empty ∧ s.write .empty = s := by
  have h_fitting : s.fitting ByteArray.empty.size = ByteArray.empty.size := by
    unfold fitting
    split
    · rfl
    · exact Nat.zero_min _
  have h_takes : s.takes .empty := decide_eq_true h_fitting
  refine ⟨h_takes, ?_⟩
  have h_written := written_write_of_takes h_takes
  rw [ByteArray.append_empty] at h_written
  exact congrArg (Sink.mk · s.capacity) h_written

/-- Behind a piece that fits there is room for as much as if both were one. -/
private theorem fitting_append {s : Sink} {a : ByteArray} (h : s.takes a) (n : Nat) :
    s.fitting (a.size + n) = a.size + (s.write a).fitting n := by
  have h_size : (s.write a).written.size = s.written.size + a.size := by
    rw [written_write_of_takes h, ByteArray.size_append]
  unfold takes at h
  rw [decide_eq_true_iff] at h
  unfold fitting at h ⊢
  rw [capacity_write]
  split
  · rfl
  · next limit h_limit =>
    rw [h_limit] at h
    dsimp only at h
    rw [h_size]
    omega

/-- **What follows a piece that fits** is taken just as if it were written with it. -/
theorem write_append_of_takes {s : Sink} {a : ByteArray} (h : s.takes a) (b : ByteArray) :
    (s.write a).write b = s.write (a ++ b) ∧ (s.write a).takes b = s.takes (a ++ b) := by
  have h_fitting : s.fitting (a ++ b).size = a.size + (s.write a).fitting b.size := by
    rw [ByteArray.size_append]
    exact fitting_append h b.size
  constructor
  · have h_written : ((s.write a).write b).written = (s.write (a ++ b)).written := by
      calc ((s.write a).write b).written
          = (s.written ++ a) ++ b.extract 0 ((s.write a).fitting b.size) := by
            rw [← written_write_of_takes h]
            rfl
        _ = s.written ++ (a ++ b).extract 0 (a.size + (s.write a).fitting b.size) := by
            rw [ByteArray.append_assoc, extract_append_add]
        _ = (s.write (a ++ b)).written := by
            rw [← h_fitting]
            rfl
    exact congrArg (Sink.mk · s.capacity) h_written
  · unfold takes
    rw [h_fitting, ByteArray.size_append]
    exact decide_eq_decide.2 (Nat.add_left_cancel_iff).symm

/-- **Behind a piece that does not fit** nothing is taken. -/
theorem write_append_of_not_takes {s : Sink} {a : ByteArray} (h : ¬s.takes a) (b : ByteArray) :
    s.write (a ++ b) = s.write a ∧ ¬s.takes (a ++ b) := by
  unfold takes at h ⊢
  rw [decide_eq_true_iff] at h ⊢
  -- there is a limit, and the first piece alone goes beyond it
  obtain ⟨limit, h_limit⟩ : ∃ limit, s.capacity = some limit := by
    refine Option.ne_none_iff_exists'.1 fun h_none => h ?_
    unfold fitting
    rw [h_none]
  have h_fitting : ∀ n, s.fitting n = min n (limit - s.written.size) := by
    intro n
    unfold fitting
    rw [h_limit]
  rw [h_fitting] at h
  have h_room : limit - s.written.size < a.size := by omega
  have h_append : s.fitting (a ++ b).size = s.fitting a.size := by
    rw [h_fitting, h_fitting, ByteArray.size_append]
    omega
  constructor
  · have h_le : s.fitting a.size ≤ a.size := by
      rw [h_fitting]
      exact Nat.min_le_left _ _
    unfold write
    rw [h_append, extract_append_of_le h_le]
  · rw [h_append, h_fitting, ByteArray.size_append]
    omega

end ScriptLang.Sink
