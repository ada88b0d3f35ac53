import ScriptLang.Proofs.Script.Reading

/-!
# Scripts fed piece by piece

A long script may be fed to a machine piece by piece, as long as each piece is a script of its own.
The pieces, put together line by line, spell the statements of all of them, and running those is
running the pieces one after the other and stopping at the first error.

* `readProgram_lines` — what the pieces spell together.
* `runFrom_flatten` — running the programs in a row, by induction on how many there are.
* `readProgram_and_run_lines` — both, from any state of the machine and in any scope.
-/

namespace ScriptLang

open Grammar

/-! ### Reading -/

/-- Two scripts on lines of their own spell the statements of the one and then of the other. -/
private theorem readProgram_line {a b : String} {p q : Program} (h_a : readProgram a = .ok p)
    (h_b : readProgram b = .ok q) : readProgram (a ++ "\n" ++ b) = .ok (p ++ q) := by
  obtain ⟨u, h_u, h_p⟩ := readProgram_eq_ok.1 h_a
  obtain ⟨v, h_v, h_q⟩ := readProgram_eq_ok.1 h_b
  -- nothing is left open in the first script, so the line break ends what it says
  refine readProgram_eq_ok.2 ⟨u ++ v, ?_, h_p.append h_q⟩
  have h_complete : (wording a.toList).complete = true := by rw [h_u]
  have h_text : (a ++ "\n" ++ b).toList = a.toList ++ '\n' :: b.toList := by
    rw [String.toList_append, String.toList_append, List.append_assoc]
    rfl
  rw [h_text, wording_lines h_complete, h_u, h_v, List.map_append]
  rfl

/-- **Scripts on lines of their own** spell the statements of all of them. -/
theorem readProgram_lines {sources : List String} {programs : List Program}
    (h : sources.map readProgram = programs.map .ok) :
    readProgram ("\n".intercalate sources) = .ok programs.flatten := by
  induction sources generalizing programs with
  | nil =>
    obtain rfl := List.map_eq_nil_iff.1 h.symm
    exact readProgram_eq_ok.2 ⟨[], wording_nil, .nil⟩
  | cons a sources ih =>
    obtain ⟨p, programs, rfl, h_a, h_rest⟩ := List.map_eq_cons_iff.1 h.symm
    cases sources with
    | nil =>
      obtain rfl := List.map_eq_nil_iff.1 h_rest
      rw [String.intercalate_singleton, List.flatten_cons, List.flatten_nil, List.append_nil]
      exact h_a.symm
    | cons b sources =>
      rw [String.intercalate_cons_cons, List.flatten_cons]
      exact readProgram_line h_a.symm (ih h_rest.symm)

/-! ### Running -/

/-- **The value of programs in a row,** given the value of each: that of the last one that has a
statement, and the given one if there is none. -/
def valueOfRow (last : Value) (results : List (Program × Value)) : Value :=
  ((results.filter fun r => !r.1.isEmpty).getLast?.map Prod.snd).getD last

/-- The first program of a row counts unless a later one does. -/
private theorem valueOfRow_cons (last : Value) (p : Program) (v : Value)
    (results : List (Program × Value)) :
    valueOfRow last ((p, v) :: results) = valueOfRow (if p.isEmpty then last else v) results := by
  cases p with
  | nil => rfl
  | cons statement p =>
    -- a later program with statements comes last among those that have any
    simp only [valueOfRow, List.filter_cons, List.isEmpty_cons, Bool.not_false, if_true,
      List.getLast?_cons, Bool.false_eq_true, if_false]
    cases (results.filter fun r => !r.1.isEmpty).getLast? <;> rfl

/-- The value to start with counts only if there is nothing to run. -/
private theorem runFrom_eq_run (s : ScopeId) (last : Value) (p : Program) (m : Machine) :
    runFrom s last p m =
      (do let v ← run s p; return if p.isEmpty then last else v : EStateM _ _ _) m := by
  cases p with
  | nil => rfl
  | cons statement p => simp [run, runFrom]

/-- **Running programs in a row** is running them one after the other up to the first error. -/
theorem runFrom_flatten (s : ScopeId) (last : Value) (programs : List Program) :
    runFrom s last programs.flatten = (do
      let values ← programs.mapM (run s)
      return valueOfRow last (programs.zip values)) := by
  induction programs generalizing last with
  | nil => simp [runFrom, valueOfRow]
  | cons p programs ih =>
    calc runFrom s last (p :: programs).flatten
        = (do let v ← runFrom s last p; runFrom s v programs.flatten) := by
          rw [List.flatten_cons, runFrom_append]
      _ = (do
            let v ← run s p
            runFrom s (if p.isEmpty then last else v) programs.flatten) := by
          rw [show runFrom s last p = _ from funext (runFrom_eq_run s last p)]
          simp
      _ = (do
            let v ← run s p
            let values ← programs.mapM (run s)
            return valueOfRow last ((p, v) :: programs.zip values)) := by
          simp only [ih, valueOfRow_cons]
      _ = (do
            let values ← (p :: programs).mapM (run s)
            return valueOfRow last ((p :: programs).zip values)) := by
          simp

/-! ### Both -/

/-- One step of a run after another, from the state that the first leaves. -/
private theorem bind_eq_match {ε σ α β : Type} (x : EStateM ε σ α) (f : α → EStateM ε σ β) (m : σ) :
    (x >>= f) m =
      match x m with
      | .ok a m' => f a m'
      | .error e m' => .error e m' := rfl

/-- **Feeding a script piece by piece is feeding it whole.** Scripts that each spell a program spell
together, on lines of their own, the statements of all of them. And in any scope, from any state of
the machine, running those statements is running the programs one after the other on the same
machine, up to the first error: with the same error in the same statement and the same state if
there is one, and else with the same state and the value of the last program that has a statement,
which is `null` if none has. -/
theorem readProgram_and_run_lines {sources : List String} {programs : List Program}
    (h : sources.map readProgram = programs.map .ok) :
    readProgram ("\n".intercalate sources) = .ok programs.flatten ∧
      ∀ (s : ScopeId) (m : Machine), run s programs.flatten m =
        match programs.mapM (run s) m with
        | .ok values m' => .ok (valueOfRow .null (programs.zip values)) m'
        | .error e m' => .error e m' := by
  refine ⟨readProgram_lines h, fun s m => ?_⟩
  -- the value to start with is `null`, which is what is left if nothing has a statement
  rw [run, runFrom_flatten]
  rw [bind_eq_match]
  cases programs.mapM (run s) m with
  | ok values m' => rfl
  | error e m' => rfl

/-- A declaration and its use, with an empty script between them. -/
theorem readProgram_and_run_lines_of_declaration :
    readProgram "let x = 1;\n\nx;" =
        .ok [.declare false "x" (.literal (.number 1)), .expression (.identifier "x")] ∧
      run Environment.root
          [.declare false "x" (.literal (.number 1)), .expression (.identifier "x")]
          (.initial none) =
        match [[Stmt.declare false "x" (.literal (.number 1))], [],
          [.expression (.identifier "x")]].mapM (run Environment.root) (.initial none) with
        | .ok values m' => .ok (values.getLast?.getD .null) m'
        | .error e m' => .error e m' := by
  have h_read : ["let x = 1;", "", "x;"].map readProgram =
      [[.declare false "x" (.literal (.number 1))], [], [.expression (.identifier "x")]].map
        .ok := by
    have h_declare : readProgram "let x = 1;" = .ok [.declare false "x" (.literal (.number 1))] :=
      eq_ok_of_toOption (by decide +kernel)
    have h_nothing : readProgram "" = .ok [] := eq_ok_of_toOption (by decide +kernel)
    have h_use : readProgram "x;" = .ok [.expression (.identifier "x")] :=
      eq_ok_of_toOption (by decide +kernel)
    rw [List.map_cons, List.map_cons, List.map_cons, h_declare, h_nothing, h_use]
    rfl
  obtain ⟨h_program, h_run⟩ := readProgram_and_run_lines h_read
  refine ⟨h_program, ?_⟩
  exact h_run Environment.root (.initial none)

end ScriptLang
