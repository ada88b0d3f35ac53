import ScriptLang.Proofs.Evaluation.Declarations
import ScriptLang.Proofs.Evaluation.Law
import ScriptLang.Proofs.Sink

/-!
# Runs on outputs with a limit

Expressions have nothing to do with the output, and neither have declarations. So runs on the same
machine with different outputs do the same until one of the outputs does not take a line that is
printed. With a limit on the output a run is therefore the run without, up to the first line that
goes beyond the limit; of that line the part that fits is still written.

* `Silent` — a computation that has nothing to do with the output; `eval_silent`.
* `printLine_eq_forM` — it does not matter into how many pieces a line is divided, whether all of it
  is taken or not.
* `exec_truncate` — a statement on an output with a limit.
* `CutOff`, `run_truncated` — where a run is cut off, and that it is otherwise the run without a
  limit.
-/

namespace ScriptLang

/-! ### Computations that are silent -/

/-- The machine with its output changed. -/
def Machine.mapSink (f : Sink → Sink) (m : Machine) : Machine := { m with sink := f m.sink }

@[simp] theorem Machine.scopes_mapSink (f : Sink → Sink) (m : Machine) :
    (m.mapSink f).scopes = m.scopes := rfl

@[simp] theorem Machine.heap_mapSink (f : Sink → Sink) (m : Machine) :
    (m.mapSink f).heap = m.heap := rfl

/-- An outcome with its machine changed. -/
def onMachine {ε α : Type} (f : Machine → Machine) :
    EStateM.Result ε Machine α → EStateM.Result ε Machine α
  | .ok a m => .ok a (f m)
  | .error e m => .error e (f m)

/-- Only the machine that an outcome has is changed. -/
theorem onMachine_congr {ε α : Type} {f g : Machine → Machine} {r : EStateM.Result ε Machine α}
    (h : f (finalMachine r) = g (finalMachine r)) : onMachine f r = onMachine g r := by
  cases r with
  | ok a m => exact congrArg (EStateM.Result.ok a) h
  | error e m => exact congrArg (EStateM.Result.error e) h

/-- **A computation that has nothing to do with the output:** a change to the output, whichever it
is, may as well be made afterwards. -/
def Silent {ε α : Type} (x : EStateM ε Machine α) : Prop :=
  ∀ f m, x (m.mapSink f) = onMachine (·.mapSink f) (x m)

section Silence

variable {ε α β : Type}

/-- What is silent leaves the output as it is. -/
theorem Silent.sink_eq {x : EStateM ε Machine α} (h : Silent x) (m : Machine) :
    (finalMachine (x m)).sink = m.sink := by
  -- it may as well be put back to what it was
  have h_back : x m = onMachine (·.mapSink fun _ => m.sink) (x m) := h (fun _ => m.sink) m
  rw [h_back]
  cases x m with
  | ok a m' => rfl
  | error e m' => rfl

theorem silent_pure (a : α) : Silent (pure a : EStateM ε Machine α) := fun _ _ => rfl

theorem silent_throw (e : ε) : Silent (throw e : EStateM ε Machine α) := fun _ _ => rfl

theorem Silent.bind {x : EStateM ε Machine α} {g : α → EStateM ε Machine β} (h : Silent x)
    (h_g : ∀ a, Silent (g a)) : Silent (x >>= g) := by
  intro f m
  have h_x := h f m
  cases h_eq : x m with
  | ok a m' =>
    rw [h_eq] at h_x
    rw [bind_apply_of_ok h_eq, bind_apply_of_ok h_x]
    exact h_g a f m'
  | error e m' =>
    rw [h_eq] at h_x
    rw [bind_apply_of_error h_eq, bind_apply_of_error h_x]
    rfl

/-- A look at scopes and objects. -/
theorem silent_look (f : Environment → Heap → Except RuntimeError α) :
    Silent fun m => Eval.ofResult (f m.scopes m.heap) m := by
  intro g m
  show Eval.ofResult (f m.scopes m.heap) (m.mapSink g) =
    onMachine (·.mapSink g) (Eval.ofResult (f m.scopes m.heap) m)
  cases f m.scopes m.heap with
  | ok a => rfl
  | error e => rfl

theorem silent_updateScopes (f : Environment → Except RuntimeError Environment) :
    Silent (Eval.updateScopes f) := by
  intro g m
  unfold Eval.updateScopes
  rw [Machine.scopes_mapSink]
  cases f m.scopes with
  | ok e => rfl
  | error e => rfl

end Silence

/-- Being silent is a law of evaluation. -/
private def silentLaw (s : ScopeId) : Law s where
  Holds := Silent
  pure := silent_pure
  bind := Silent.bind
  refuse _ := silent_throw _
  lookup name := silent_look fun scopes _ => scopes.get s name
  assign name v := silent_updateScopes fun e => e.assign s name v
  create _ := fun _ _ => rfl
  objectOr refusal v _ := by
    cases v with
    | object o => exact silent_pure o
    | null | boolean | number | string => exact fun _ _ => rfl
  getProperty o property := by
    intro f m
    unfold Eval.getProperty
    rw [Machine.heap_mapSink]
    cases (m.heap.fields o).get? property with
    | none => rfl
    | some v => rfl
  setProperty _ _ _ := fun _ _ => rfl
  compareValues c a b := by
    intro f m
    unfold Eval.compareValues
    cases c.apply? a b with
    | none => rfl
    | some holds => rfl
  operator o a b := silent_look fun _ _ => o.apply a b

/-- **Expressions have nothing to do with the output.** -/
theorem eval_silent (s : ScopeId) (e : Expr) : Silent (eval s e) := (silentLaw s).eval e

/-- **Statements that do not print have nothing to do with the output.** -/
theorem exec_silent (s : ScopeId) {statement : Stmt} (h : ∀ e, statement ≠ .print e) :
    Silent (exec s statement) := by
  cases statement with
  | expression e => exact eval_silent s e
  | print e => exact absurd rfl (h e)
  | declare constant name e =>
    refine (eval_silent s e).bind fun v => ?_
    exact (silent_updateScopes _).bind fun _ => silent_pure _

/-! ### Printing -/

/-- The line that printing a value writes. -/
def Heap.line (h : Heap) (v : Value) : String := h.text v ++ "\n"

/-- The machine after a line was printed, as far as the output takes it. -/
def Machine.afterPrint (m : Machine) (v : Value) : Machine :=
  m.mapSink fun k => k.write (m.heap.line v).toUTF8

/-- Without a limit on the output all of the line is written. -/
theorem Machine.size_afterPrint {m : Machine} (h : m.sink.capacity = none) (v : Value) :
    (m.afterPrint v).sink.written.size =
      m.sink.written.size + (m.heap.line v).utf8ByteSize := by
  show (m.sink.write (m.heap.line v).toUTF8).written.size = _
  rw [Sink.written_write_of_takes (Sink.takes_of_unlimited h _), ByteArray.size_append]
  rfl

/-- Printing a value fails if the output does not take all of the line. -/
theorem printLine_apply (v : Value) (m : Machine) :
    Eval.printLine v m =
      if m.sink.takes (m.heap.line v).toUTF8 then .ok () (m.afterPrint v)
      else .error .brokenPipe (m.afterPrint v) := rfl

/-- Printing a value, with its expression evaluated already. -/
theorem exec_print_of_ok {s : ScopeId} {e : Expr} {m m' : Machine} {v : Value}
    (h : eval s e m = .ok v m') :
    exec s (.print e) m =
      if m'.sink.takes (m'.heap.line v).toUTF8 then .ok .null (m'.afterPrint v)
      else .error .brokenPipe (m'.afterPrint v) := by
  have h_bind : exec s (.print e) m =
      (do Eval.printLine v; return .null : Eval Value) m' := bind_apply_of_ok h
  rw [h_bind]
  have h_line := printLine_apply v m'
  split
  · next h_takes =>
    rw [if_pos h_takes] at h_line
    exact bind_apply_of_ok h_line
  · next h_takes =>
    rw [if_neg h_takes] at h_line
    exact bind_apply_of_error h_line

theorem exec_print_of_error {s : ScopeId} {e : Expr} {m m' : Machine} {err : RuntimeError}
    (h : eval s e m = .error err m') : exec s (.print e) m = .error err m' :=
  bind_apply_of_error h

/-- Writing changes the output alone. -/
private theorem write_apply (text : String) (m : Machine) :
    Eval.write text m =
      if m.sink.takes text.toUTF8 then .ok () (m.mapSink fun k => k.write text.toUTF8)
      else .error .brokenPipe (m.mapSink fun k => k.write text.toUTF8) := rfl

/-- Writing a text is writing the first part of it, and then the rest unless that failed. -/
theorem write_append (a b : String) :
    Eval.write (a ++ b) = (do Eval.write a; Eval.write b) := by
  funext m
  have h_bytes : (a ++ b).toUTF8 = a.toUTF8 ++ b.toUTF8 := String.toByteArray_append
  by_cases h_a : m.sink.takes a.toUTF8
  · obtain ⟨h_sink, h_takes⟩ := Sink.write_append_of_takes h_a b.toUTF8
    have h_first : Eval.write a m = .ok () (m.mapSink fun k => k.write a.toUTF8) := by
      rw [write_apply, if_pos h_a]
    have h_machine : (m.mapSink fun k => k.write a.toUTF8).mapSink (fun k => k.write b.toUTF8) =
        m.mapSink fun k => k.write (a.toUTF8 ++ b.toUTF8) :=
      congrArg (Machine.mk m.scopes m.heap) h_sink
    have h_room : (m.mapSink fun k => k.write a.toUTF8).sink.takes b.toUTF8 =
        m.sink.takes (a.toUTF8 ++ b.toUTF8) := h_takes
    rw [bind_apply_of_ok h_first, write_apply, write_apply, h_bytes, h_machine, h_room]
  · obtain ⟨h_sink, h_takes⟩ := Sink.write_append_of_not_takes h_a b.toUTF8
    have h_first : Eval.write a m = .error .brokenPipe (m.mapSink fun k => k.write a.toUTF8) := by
      rw [write_apply, if_neg h_a]
    have h_machine : (m.mapSink fun k => k.write (a.toUTF8 ++ b.toUTF8)) =
        m.mapSink fun k => k.write a.toUTF8 :=
      congrArg (Machine.mk m.scopes m.heap) h_sink
    rw [bind_apply_of_error h_first, write_apply, h_bytes, if_neg h_takes, h_machine]

/-- **It does not matter into how many pieces a line is divided** when a value is printed: they are
written one after the other, up to the first that the output does not take. -/
theorem printLine_eq_forM {m : Machine} {v : Value} {pieces : List String}
    (h : String.join pieces = m.heap.line v) :
    Eval.printLine v m = (pieces.forM Eval.write) m := by
  have h_pieces : ∀ pieces : List String,
      Eval.write (String.join pieces) = pieces.forM Eval.write := by
    intro pieces
    induction pieces with
    | nil =>
      funext m
      obtain ⟨h_takes, h_sink⟩ := m.sink.write_empty
      have h_machine : (m.mapSink fun k => k.write "".toUTF8) = m :=
        congrArg (Machine.mk m.scopes m.heap) h_sink
      rw [String.join_nil, write_apply, h_machine]
      exact if_pos h_takes
    | cons piece pieces ih =>
      rw [String.join_cons, write_append, ih]
      rfl
  rw [← h_pieces, h]
  rfl

/-! ### Statements -/

section Statements

variable {s : ScopeId} {m : Machine} {limit : Nat}

/-- The output has no limit, and goes on from the given bytes. -/
private def appending (s : ScopeId) (written : ByteArray) : Invariant s where
  Machines m := m.sink.capacity = none ∧ ∃ o, m.sink.written = written ++ o
  Values _ := True
  plain _ _ := trivial
  lookup _ _ _ _ _ := trivial
  create _ _ h _ := ⟨h, trivial⟩
  getProperty _ _ _ _ _ _ _ := trivial

private theorem assignments (s : ScopeId) (written : ByteArray) :
    (appending s written).Assignments where
  assign _ _ _ _ h _ _ := h
  setProperty _ _ _ _ h _ _ := h

private theorem statements (s : ScopeId) (written : ByteArray) :
    (appending s written).Statements where
  declare _ _ _ _ _ h _ _ := h
  write m bytes h := by
    obtain ⟨h_capacity, o, h_written⟩ := h
    refine ⟨h_capacity, o ++ bytes, ?_⟩
    rw [Sink.written_write_of_takes (Sink.takes_of_unlimited h_capacity bytes), h_written,
      ByteArray.append_assoc]

/-- **What was written stays written,** and a limit does not come up. -/
theorem runFrom_appends (s : ScopeId) (last : Value) (p : Program) (h : m.sink.capacity = none) :
    (finalMachine (runFrom s last p m)).sink.capacity = none ∧
      ∃ o, (finalMachine (runFrom s last p m)).sink.written = m.sink.written ++ o :=
  ((statements s m.sink.written).runFrom (.inr (assignments s _)) trivial m
    ⟨h, .empty, ByteArray.append_empty.symm⟩).machine

private theorem exec_appends (s : ScopeId) (statement : Stmt) (h : m.sink.capacity = none) :
    (finalMachine (exec s statement m)).sink.capacity = none :=
  ((statements s m.sink.written).exec statement (.inr (assignments s _)) m
    ⟨h, .empty, ByteArray.append_empty.symm⟩).machine.1

/-- **A statement whose line goes beyond the limit:** its operand was evaluated before that, and the
part of the line that fits is written, which is what fails. -/
structure Breaks (s : ScopeId) (limit : Nat) (m : Machine) (statement : Stmt) (e : Expr) (v : Value)
    (m₁ : Machine) : Prop where
  print : statement = .print e
  operand : eval s e m = .ok v m₁
  exceeds : limit < (m₁.afterPrint v).sink.written.size
  line : Eval.printLine v (m₁.mapSink (.truncate limit)) =
    .error .brokenPipe ((m₁.afterPrint v).mapSink (.truncate limit))
  outcome : exec s statement (m.mapSink (.truncate limit)) =
    .error .brokenPipe ((m₁.afterPrint v).mapSink (.truncate limit))

/-- Into however many pieces that line is divided, the same of it is written. -/
theorem Breaks.pieces {statement : Stmt} {e : Expr} {v : Value} {m₁ : Machine}
    (breaks : Breaks s limit m statement e v m₁) {pieces : List String}
    (h : String.join pieces = m₁.heap.line v) :
    (pieces.forM Eval.write) (m₁.mapSink (.truncate limit)) =
      .error .brokenPipe ((m₁.afterPrint v).mapSink (.truncate limit)) := by
  have h_limited : String.join pieces = (m₁.mapSink (.truncate limit)).heap.line v := h
  exact (printLine_eq_forM h_limited).symm.trans breaks.line

/-- **A statement on an output with a limit** does the same as on one without, unless it prints a
line that goes beyond the limit. -/
theorem exec_truncate (s : ScopeId) (statement : Stmt) (h : m.sink.capacity = none)
    (h_fits : m.sink.written.size ≤ limit) :
    (exec s statement (m.mapSink (.truncate limit)) =
        onMachine (·.mapSink (.truncate limit)) (exec s statement m) ∧
      (finalMachine (exec s statement m)).sink.written.size ≤ limit) ∨
    ∃ e v m₁, exec s statement m = .ok .null (m₁.afterPrint v) ∧
      Breaks s limit m statement e v m₁ := by
  by_cases h_print : ∃ e, statement = .print e
  · obtain ⟨e, rfl⟩ := h_print
    have h_limited := eval_silent s e (.truncate limit) m
    have h_sink := (eval_silent s e).sink_eq m
    cases h_eval : eval s e m with
    | error err m₁ =>
      rw [h_eval] at h_limited h_sink
      rw [exec_print_of_error h_eval, exec_print_of_error h_limited]
      refine .inl ⟨rfl, ?_⟩
      rw [h_sink]
      exact h_fits
    | ok v m₁ =>
      rw [h_eval] at h_limited h_sink
      have h_unlimited : m₁.sink.capacity = none := by
        rw [← h]
        exact congrArg Sink.capacity h_sink
      have h_size : m₁.sink.written.size ≤ limit := by
        have h_written : m₁.sink.written = m.sink.written := congrArg Sink.written h_sink
        rw [h_written]
        exact h_fits
      have h_after : exec s (.print e) m = .ok .null (m₁.afterPrint v) := by
        rw [exec_print_of_ok h_eval, if_pos (Sink.takes_of_unlimited h_unlimited _)]
      -- the line is cut off just as what is written is
      have h_cut : (m₁.mapSink (.truncate limit)).afterPrint v =
          (m₁.afterPrint v).mapSink (.truncate limit) :=
        congrArg (Machine.mk m₁.scopes m₁.heap) (Sink.write_truncate h_unlimited h_size _)
      have h_takes : (m₁.mapSink (.truncate limit)).sink.takes (m₁.heap.line v).toUTF8 ↔
          (m₁.afterPrint v).sink.written.size ≤ limit :=
        Sink.takes_truncate h_unlimited h_size _
      have h_exec := exec_print_of_ok h_limited
      have h_print := printLine_apply v (m₁.mapSink (.truncate limit))
      rw [h_cut, Machine.heap_mapSink] at h_exec h_print
      by_cases h_line : (m₁.afterPrint v).sink.written.size ≤ limit
      · rw [if_pos (h_takes.2 h_line)] at h_exec
        rw [h_exec, h_after]
        exact .inl ⟨rfl, h_line⟩
      · rw [if_neg (mt h_takes.1 h_line)] at h_exec h_print
        exact .inr ⟨e, v, m₁, h_after, rfl, h_eval, Nat.lt_of_not_le h_line, h_print, h_exec⟩
  · -- nothing is written
    have silent : Silent (exec s statement) := exec_silent s fun e h_e => h_print ⟨e, h_e⟩
    refine .inl ⟨silent _ m, ?_⟩
    rw [silent.sink_eq]
    exact h_fits

/-! ### Programs -/

/-- **A run on an output with a limit** is the run without, or it comes to the first statement whose
line goes beyond the limit, and stops there. -/
private theorem runFrom_truncate (s : ScopeId) (last : Value) (p : Program)
    (h : m.sink.capacity = none) (h_fits : m.sink.written.size ≤ limit) :
    (runFrom s last p (m.mapSink (.truncate limit)) =
        onMachine (·.mapSink (.truncate limit)) (runFrom s last p m) ∧
      (finalMachine (runFrom s last p m)).sink.written.size ≤ limit) ∨
    ∃ before statement after last' m₀ e v m₁ o,
      p = before ++ statement :: after ∧
      runFrom s last before m = .ok last' m₀ ∧ m₀.sink.written.size ≤ limit ∧
      Breaks s limit m₀ statement e v m₁ ∧
      runFrom s last p (m.mapSink (.truncate limit)) =
        .error ⟨.brokenPipe, statement⟩ ((m₁.afterPrint v).mapSink (.truncate limit)) ∧
      (finalMachine (runFrom s last p m)).sink.written =
        (m₁.afterPrint v).sink.written ++ o := by
  induction p generalizing last m with
  | nil => exact .inl ⟨rfl, h_fits⟩
  | cons statement p ih =>
    obtain ⟨h_exec, h_size⟩ | ⟨e, v, m₁, h_exec, breaks⟩ := exec_truncate s statement h h_fits
    · cases h_first : exec s statement m with
      | error cause m₁ =>
        rw [h_first] at h_exec h_size
        rw [runFrom_of_error h_first, runFrom_of_error h_exec]
        exact .inl ⟨rfl, h_size⟩
      | ok v m₁ =>
        have h_unlimited : (finalMachine (exec s statement m)).sink.capacity = none :=
          exec_appends s statement h
        rw [h_first] at h_exec h_size h_unlimited
        have h_rest : runFrom s last (statement :: p) (m.mapSink (.truncate limit)) =
            runFrom s v p (m₁.mapSink (.truncate limit)) := runFrom_of_ok h_exec last p
        rw [runFrom_of_ok h_first, h_rest]
        -- the statement that stops the rest is behind this one
        obtain h_same | ⟨before, st, after, last', m₀, e, v', m₂, o, rfl, h_before, h_stop⟩ :=
          ih v h_unlimited h_size
        · exact .inl h_same
        · refine .inr ⟨statement :: before, st, after, last', m₀, e, v', m₂, o, rfl, ?_, h_stop⟩
          exact (runFrom_of_ok h_first last before).trans h_before
    · -- it is this one, and the run without a limit goes on behind it
      have h_unlimited : (finalMachine (exec s statement m)).sink.capacity = none :=
        exec_appends s statement h
      rw [h_exec] at h_unlimited
      obtain ⟨-, o, h_o⟩ := runFrom_appends s .null p h_unlimited
      refine .inr ⟨[], statement, p, last, m, e, v, m₁, o, rfl, rfl, h_fits, breaks,
        runFrom_of_error breaks.outcome last p, ?_⟩
      rw [runFrom_of_ok h_exec]
      exact h_o

end Statements

/-- The machine with another limit on its output. -/
def Machine.withCapacity (m : Machine) (capacity : Option Nat) : Machine :=
  m.mapSink fun k => { k with capacity }

/-- Where what is written is within the limit, only the limit is new. -/
theorem Machine.mapSink_truncate {m : Machine} {limit : Nat} (h : m.sink.written.size ≤ limit) :
    m.mapSink (.truncate limit) = m.withCapacity (some limit) :=
  congrArg (Machine.mk m.scopes m.heap) (Sink.truncate_of_le h)

/-- **A run is cut off** because its output takes only so many bytes: it stops at the first print
statement with which the bytes written become more than that. Its operand was evaluated, and scopes
and objects are as they were at that time; of its line the part that fits is written. This is so
into however many pieces the line is divided, if they are written one after the other. -/
def CutOff (s : ScopeId) (p : Program) (m : Machine) (n : Nat) (o : ByteArray) : Prop :=
  ∃ before e after last m₀ v m₁ o₀,
    p = before ++ .print e :: after ∧
    run s before (m.withCapacity none) = .ok last m₀ ∧
    m₀.sink.written = m.sink.written ++ o₀ ∧ o₀.size ≤ n ∧
    eval s e m₀ = .ok v m₁ ∧ n < o₀.size + (m₁.heap.line v).utf8ByteSize ∧
    run s p (m.withCapacity (some (m.sink.written.size + n))) =
      .error ⟨.brokenPipe, .print e⟩
        { m₁ with
          sink := ⟨m.sink.written ++ o.extract 0 n, some (m.sink.written.size + n)⟩ } ∧
    ∀ pieces : List String, String.join pieces = m₁.heap.line v →
      (pieces.forM Eval.write) (m₁.withCapacity (some (m.sink.written.size + n))) =
        .error .brokenPipe
          { m₁ with
            sink := ⟨m.sink.written ++ o.extract 0 n, some (m.sink.written.size + n)⟩ }

/-- **A limit on the output only cuts off.** Let `o` be what a run writes without a limit. If that
is no more than the output takes, the run with the limit has the same outcome, and leaves the same
machine but for the limit. Otherwise the run is cut off at the limit. -/
theorem run_truncated (s : ScopeId) (p : Program) (m : Machine) (n : Nat) :
    ∃ o, (finalMachine (run s p (m.withCapacity none))).sink.written = m.sink.written ++ o ∧
      (o.size ≤ n → run s p (m.withCapacity (some (m.sink.written.size + n))) =
        onMachine (·.withCapacity (some (m.sink.written.size + n)))
          (run s p (m.withCapacity none))) ∧
      (n < o.size → CutOff s p m n o) := by
  have h_unlimited : (m.withCapacity none).sink.capacity = none := rfl
  have h_fits : (m.withCapacity none).sink.written.size ≤ m.sink.written.size + n :=
    Nat.le_add_right _ _
  obtain ⟨-, o, h_o⟩ := runFrom_appends s .null p h_unlimited
  have h_written : (finalMachine (run s p (m.withCapacity none))).sink.written =
      m.sink.written ++ o := h_o
  have h_limited : (m.withCapacity none).mapSink (.truncate (m.sink.written.size + n)) =
      m.withCapacity (some (m.sink.written.size + n)) := Machine.mapSink_truncate h_fits
  refine ⟨o, h_written, ?_⟩
  rw [← h_limited]
  obtain ⟨h_same, h_size⟩ | ⟨before, statement, after, last, m₀, e, v, m₁, o', rfl, h_before,
      h_room, breaks, h_stop, h_rest⟩ := runFrom_truncate s .null p h_unlimited h_fits
  · -- all of it fits, and so nothing is cut off
    have h_all : o.size ≤ n := by
      rw [h_o, ByteArray.size_append] at h_size
      exact Nat.le_of_add_le_add_left h_size
    have h_result := onMachine_congr (Machine.mapSink_truncate h_size)
    exact ⟨fun _ => h_same.trans h_result, fun h_less => absurd h_all (Nat.not_le.2 h_less)⟩
  · obtain rfl := breaks.print
    have h_operand := breaks.operand
    have h_exceeds := breaks.exceeds
    obtain ⟨h_before_unlimited, o₀, h_o₀⟩ := runFrom_appends s .null before h_unlimited
    rw [h_before] at h_before_unlimited h_o₀
    have h_sink := (eval_silent s e).sink_eq m₀
    rw [h_operand] at h_sink
    have h_m₁ : m₁.sink = ⟨m.sink.written ++ o₀, none⟩ :=
      Eq.trans h_sink (congr (congrArg Sink.mk h_o₀) h_before_unlimited)
    -- what is written with the line that goes beyond the limit
    have h_line : (m₁.afterPrint v).sink.written.size =
        m.sink.written.size + (o₀.size + (m₁.heap.line v).utf8ByteSize) := by
      rw [Machine.size_afterPrint (congrArg Sink.capacity h_m₁), h_m₁, ByteArray.size_append,
        Nat.add_assoc]
    have h_cut : (m₁.afterPrint v).sink.written.extract 0 (m.sink.written.size + n) =
        m.sink.written ++ o.extract 0 n := by
      rw [← Sink.extract_append_add, ← h_written,
        ← Sink.extract_append_of_le (Nat.le_of_lt h_exceeds) o']
      exact congrArg (ByteArray.extract · 0 _) h_rest.symm
    refine ⟨fun h_all => ?_, fun _ => ?_⟩
    · -- what is written in the end is no less
      have h_total := congrArg ByteArray.size (h_written.symm.trans h_rest)
      rw [ByteArray.size_append, ByteArray.size_append] at h_total
      omega
    · have h_size : m₀.sink.written.size = m.sink.written.size + o₀.size := by
        rw [← ByteArray.size_append]
        exact congrArg ByteArray.size h_o₀
      refine ⟨before, e, after, last, m₀, v, m₁, o₀, rfl, h_before, h_o₀, ?_, h_operand, ?_, ?_,
        fun pieces h_pieces => ?_⟩
      · omega
      · omega
      · rw [← h_limited, ← h_cut]
        exact h_stop
      · -- the pieces are written to the output as it was when the operand had been evaluated
        have h_m₁_fits : m₁.sink.written.size ≤ m.sink.written.size + n := by
          rw [show m₁.sink = m₀.sink from h_sink]
          exact h_room
        rw [← Machine.mapSink_truncate h_m₁_fits, ← h_cut]
        exact breaks.pieces h_pieces

/-- Two lines of three bytes each, and room for four. -/
theorem run_truncated_of_lines :
    ∃ o, (4 < o.size ∧
      CutOff Environment.root [.print (.literal (.string "ab")), .print (.literal (.string "cd"))]
        (.initial none) 4 o) ∧
      o.extract 0 4 = "ab\nc".toUTF8 := by
  obtain ⟨o, h_o, -, h_cut⟩ := run_truncated Environment.root
    [.print (.literal (.string "ab")), .print (.literal (.string "cd"))] (.initial none) 4
  have h_all : o = "ab\ncd\n".toUTF8 := by
    rw [← ByteArray.empty_append (b := o)]
    exact h_o.symm.trans (by decide +kernel)
  have h_size : 4 < o.size := by
    rw [h_all]
    decide +kernel
  refine ⟨o, ⟨h_size, h_cut h_size⟩, ?_⟩
  rw [h_all]
  decide +kernel

end ScriptLang
