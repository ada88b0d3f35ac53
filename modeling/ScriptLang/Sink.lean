/-!
# Output

A `Sink` takes bytes in order, up to a limit if it has one. What does not fit is lost, and the
write that it was part of fails.
-/

namespace ScriptLang

/-- The bytes written so far, and how many there may be in all. -/
structure Sink where
  written : ByteArray
  capacity : Option Nat

namespace Sink

/-- The sink with nothing written yet. -/
def empty (capacity : Option Nat) : Sink := ⟨.empty, capacity⟩

/-- How many of `n` more bytes fit. -/
def fitting (s : Sink) (n : Nat) : Nat :=
  match s.capacity with
  | none => n
  | some limit => min n (limit - s.written.size)

/-- The sink with those of the bytes added that fit. -/
def write (s : Sink) (bytes : ByteArray) : Sink :=
  { s with written := s.written ++ bytes.extract 0 (s.fitting bytes.size) }

/-- Do all of the bytes fit? -/
def takes (s : Sink) (bytes : ByteArray) : Bool := s.fitting bytes.size = bytes.size

@[simp] theorem capacity_write (s : Sink) (bytes : ByteArray) :
    (s.write bytes).capacity = s.capacity := rfl

/-- Without a limit everything fits. -/
theorem takes_of_unlimited {s : Sink} (h : s.capacity = none) (bytes : ByteArray) :
    s.takes bytes := by
  simp [takes, fitting, h]

/-- What fits entirely is written entirely. -/
theorem written_write_of_takes {s : Sink} {bytes : ByteArray} (h : s.takes bytes) :
    (s.write bytes).written = s.written ++ bytes := by
  simp only [takes, decide_eq_true_eq] at h
  simp [write, h]

end Sink

end ScriptLang
