import ScriptLang.Proofs.Environment.Split
import ScriptLang.Proofs.Evaluation.Declarations
import ScriptLang.Proofs.Session.Arising

/-!
# Running a program in a new scope

A program runs in a new scope as it runs in the scope around it, if that one binds none of the
names that the program declares. What it declares goes into the new scope instead, and everything
else goes where it went: an assignment that comes before a declaration of its name finds the same
binding further out, and one that comes after it finds what was declared. The run also stops where
it stopped, with the same error. In the end the two scopes have between them what the one would
have.

* `RunsSplit` — outcomes that are the same but for one scope's being in two.
* `ChildRun.ScopeFree` — steps that have nothing to do with scopes, and so do the same in both runs.
* `run_child` — the run in a new scope beside the run in the scope around it.
-/

namespace ScriptLang

open Environment

/-- **The same outcome, but for one scope's being in two:** both are the same value or the same
error in the same statement, with the same objects and the same output. -/
inductive RunsSplit (s c : ScopeId) :
    EStateM.Result ExecutionError Machine Value → EStateM.Result ExecutionError Machine Value →
      Prop where
  | ok {v e₁ e₂ heap sink} (split : Split e₁ e₂ s c) :
      RunsSplit s c (.ok v ⟨e₁, heap, sink⟩) (.ok v ⟨e₂, heap, sink⟩)
  | error {err e₁ e₂ heap sink} (split : Split e₁ e₂ s c) :
      RunsSplit s c (.error err ⟨e₁, heap, sink⟩) (.error err ⟨e₂, heap, sink⟩)

/-! ### Elementary steps -/

namespace ChildRun

open Comparison

variable {Declares : String → Prop} {s c : ScopeId}

/-- Machines that are the same but for one scope's being in two. -/
private abbrev comparison (Declares : String → Prop) (s c : ScopeId) : Comparison where
  World := Unit
  le _ _ := True
  le_refl _ := trivial
  le_trans _ _ := trivial
  Machines _ m₁ m₂ := m₁.heap = m₂.heap ∧ m₁.sink = m₂.sink ∧
    SplitFor Declares m₁.scopes m₂.scopes s c

/-- **A step that has nothing to do with scopes:** they do not matter, and they stay as they are. -/
def ScopeFree {α : Type} (x : Eval α) : Prop :=
  ∀ heap sink, ∃ heap' sink', (∃ a, ∀ e, x ⟨e, heap, sink⟩ = .ok a ⟨e, heap', sink'⟩) ∨
    ∃ err, ∀ e, x ⟨e, heap, sink⟩ = .error err ⟨e, heap', sink'⟩

/-- What has nothing to do with scopes goes on alike, and has the same result in both runs. -/
private theorem ScopeFree.related {α : Type} {x : Eval α} (h : ScopeFree x)
    {R : Unit → α → α → Prop} (h_R : ∀ w a, R w a a) (w : Unit) :
    (comparison Declares s c).Related w x x R := by
  rintro w' _ ⟨e₁, heap, sink⟩ ⟨e₂, _, _⟩ ⟨rfl, rfl, split⟩
  obtain ⟨heap', sink', ⟨a, h_x⟩ | ⟨err, h_x⟩⟩ := h heap sink
  · rw [h_x e₁, h_x e₂]
    exact .ok ((comparison Declares s c).le_refl w') ⟨rfl, rfl, split⟩ (h_R w' a)
  · rw [h_x e₁, h_x e₂]
    exact .error ((comparison Declares s c).le_refl w') ⟨rfl, rfl, split⟩

theorem scopeFree_ofResult {α : Type} (r : Except RuntimeError α) :
    ScopeFree (Eval.ofResult r) := by
  intro heap sink
  refine ⟨heap, sink, ?_⟩
  cases r with
  | ok a => exact .inl ⟨a, fun _ => rfl⟩
  | error err => exact .inr ⟨err, fun _ => rfl⟩

theorem scopeFree_create (fields : Table Value) : ScopeFree (Eval.create fields) :=
  fun heap sink => ⟨heap.create fields, sink, .inl ⟨.object heap.nextId, fun _ => rfl⟩⟩

theorem scopeFree_objectOr (refusal : String → RuntimeError) (v : Value) :
    ScopeFree (Eval.objectOr refusal v) := by
  intro heap sink
  refine ⟨heap, sink, ?_⟩
  cases v with
  | object o => exact .inl ⟨o, fun _ => rfl⟩
  | null | boolean | number | string =>
    exact .inr ⟨refusal (heap.text _), fun _ => rfl⟩

theorem scopeFree_getProperty (o : ObjectId) (property : String) :
    ScopeFree (Eval.getProperty o property) := by
  intro heap sink
  refine ⟨heap, sink, ?_⟩
  unfold Eval.getProperty
  cases h : (heap.fields o).get? property with
  | some v => exact .inl ⟨v, fun _ => by rw [h]⟩
  | none => exact .inr ⟨.undefinedProperty property, fun _ => by rw [h]⟩

theorem scopeFree_setProperty (o : ObjectId) (property : String) (v : Value) :
    ScopeFree (Eval.setProperty o property v) :=
  fun heap sink => ⟨heap.set o property v, sink, .inl ⟨(), fun _ => rfl⟩⟩

theorem scopeFree_compareValues (comparator : Comparator) (a b : Value) :
    ScopeFree (Eval.compareValues comparator a b) := by
  intro heap sink
  refine ⟨heap, sink, ?_⟩
  unfold Eval.compareValues
  cases comparator.apply? a b with
  | some holds => exact .inl ⟨.boolean holds, fun _ => rfl⟩
  | none => exact .inr ⟨.invalidComparison (heap.text a) comparator (heap.text b), fun _ => rfl⟩

theorem scopeFree_printLine (v : Value) : ScopeFree (Eval.printLine v) := by
  intro heap sink
  -- what the output takes stays written in any case
  refine ⟨heap, sink.write (heap.text v ++ "\n").toUTF8, ?_⟩
  unfold Eval.printLine Eval.write
  by_cases h : sink.takes (heap.text v ++ "\n").toUTF8
  · exact .inl ⟨(), fun _ => if_pos h⟩
  · exact .inr ⟨.brokenPipe, fun _ => if_neg h⟩

/-- A change to the scopes that is refused in both or leaves one scope in two. -/
private theorem related_updateScopes {f₁ f₂ : Environment → Except RuntimeError Environment}
    (h : ∀ e₁ e₂, SplitFor Declares e₁ e₂ s c →
      Outcomes (fun e₁' e₂' => SplitFor Declares e₁' e₂' s c) (f₁ e₁) (f₂ e₂)) (w : Unit) :
    (comparison Declares s c).Related w (Eval.updateScopes f₁) (Eval.updateScopes f₂)
      unconditional := by
  rintro w' _ ⟨e₁, heap, sink⟩ ⟨e₂, _, _⟩ ⟨rfl, rfl, split⟩
  have h_outcomes := h e₁ e₂ split
  unfold Eval.updateScopes
  dsimp only
  generalize f₁ e₁ = r₁ at h_outcomes ⊢
  generalize f₂ e₂ = r₂ at h_outcomes ⊢
  cases h_outcomes with
  | error err => exact .error ((comparison Declares s c).le_refl w') ⟨rfl, rfl, split⟩
  | ok split' => exact .ok ((comparison Declares s c).le_refl w') ⟨rfl, rfl, split'⟩ trivial

/-- **The run in the scope beside the run in the inner part of it.** -/
private def simulation (Declares : String → Prop) (s c : ScopeId) : Simulation s c where
  toComparison := comparison Declares s c
  Values _ v₁ v₂ := v₁ = v₂
  values_mono _ h := h
  plain _ _ _ := rfl
  lookup w name := by
    rintro w' _ ⟨e₁, heap, sink⟩ ⟨e₂, _, _⟩ ⟨rfl, rfl, split⟩
    -- a name has one value, whichever part it is in
    have h_get : e₁.get s name = e₂.get c name := split.get name
    unfold Eval.lookup
    dsimp only
    rw [h_get]
    exact (scopeFree_ofResult _).related (fun _ _ => rfl) w' w' trivial _ _ ⟨rfl, rfl, split⟩
  assign w name v₁ v₂ := by
    rintro rfl
    exact related_updateScopes (fun _ _ split => split.assign name v₁) w
  Declares := Declares
  declare w name constant v₁ v₂ h_name := by
    rintro rfl
    exact related_updateScopes (fun _ _ split => split.declare h_name ⟨v₁, constant⟩) w
  create w t₁ t₂ h_t := by
    obtain rfl : t₁ = t₂ := h_t.eq fun _ _ h => h
    exact (scopeFree_create t₁).related (fun _ _ => rfl) w
  objectOr w refusal v₁ v₂ := by
    rintro rfl
    exact (scopeFree_objectOr refusal v₁).related
      (R := fun _ o₁ o₂ => Value.object o₁ = .object o₂) (fun _ _ => rfl) w
  getProperty w property o₁ o₂ := by
    rintro ⟨⟩
    exact (scopeFree_getProperty o₁ property).related (fun _ _ => rfl) w
  setProperty w property o₁ o₂ v₁ v₂ := by
    rintro ⟨⟩ rfl
    exact (scopeFree_setProperty o₁ property v₁).related (fun _ _ => trivial) w
  compareValues w comparator a₁ a₂ b₁ b₂ := by
    rintro rfl rfl
    exact (scopeFree_compareValues comparator a₁ b₁).related (fun _ _ => rfl) w
  operator w o a₁ a₂ b₁ b₂ := by
    rintro rfl rfl
    exact (scopeFree_ofResult (o.apply a₁ b₁)).related (fun _ _ => rfl) w
  printLine w v₁ v₂ := by
    rintro rfl
    exact (scopeFree_printLine v₁).related (fun _ _ => trivial) w

end ChildRun

/-! ### Runs -/

/-- **A program runs in a new scope as in the scope around it.** On a machine that arises, let a
scope that is there bind none of the names that a program declares. Then the program has the same
outcome in the scope itself and in a new scope inside it: the same value or the same error, the same
objects and the same output. All other scopes are the same afterwards, and what the scope binds
after the one run, the scope and the new one bind together after the other, each name in one of
them. -/
theorem run_child {m : Machine} (h : m.Arises) {s : ScopeId} (h_s : m.scopes.Live s) {p : Program}
    (fresh : ∀ name ∈ p.declared, m.scopes.binding? s name = none) :
    RunsSplit s m.scopes.nextId (run s p m)
      (run m.scopes.nextId p { m with scopes := m.scopes.child s }) := by
  -- at the start the new scope binds nothing, and the scope around it all that it bound
  have split : SplitFor (· ∈ p.declared) m.scopes (m.scopes.child s) s m.scopes.nextId :=
    h.requested.arranged.splitFor_child h_s fresh
  have h_declared : ∀ constant name e, .declare constant name e ∈ p → name ∈ p.declared :=
    fun constant name e h_mem => List.mem_filterMap.2 ⟨_, h_mem, rfl⟩
  have h_agree := (ChildRun.simulation (· ∈ p.declared) s m.scopes.nextId).related_run p h_declared
    () () trivial m { m with scopes := m.scopes.child s } ⟨rfl, rfl, split⟩
  generalize run s p m = r₁ at h_agree ⊢
  generalize run m.scopes.nextId p { m with scopes := m.scopes.child s } = r₂ at h_agree ⊢
  cases h_agree with
  | @ok _ v₁ v₂ m₁ m₂ _ machines results =>
    obtain ⟨e₁, heap, sink⟩ := m₁
    obtain ⟨e₂, _, _⟩ := m₂
    obtain ⟨rfl, rfl, split'⟩ := machines
    obtain rfl : v₁ = v₂ := results
    exact .ok split'.toSplit
  | @error _ err m₁ m₂ _ machines =>
    obtain ⟨e₁, heap, sink⟩ := m₁
    obtain ⟨e₂, _, _⟩ := m₂
    obtain ⟨rfl, rfl, split'⟩ := machines
    exact .error split'.toSplit

/-- A scope that binds a name, and one inside it that binds another. -/
private def Machine.surrounded : Machine :=
  (Machine.initial none).perform
    [.child root, .run ⟨1⟩ [.declare false "y" (.literal (.number 1))], .child ⟨1⟩,
      .run ⟨2⟩ [.declare false "x" (.literal (.number 2))]]

private theorem Machine.arises_surrounded : surrounded.Arises := by
  have h_start : (Machine.initial none).Arises := .initial none
  have h_outer := h_start.applied (.child root) (by rintro _ ⟨⟩; exact Nat.lt_of_sub_eq_succ rfl)
  have h_declared := h_outer.applied (.run ⟨1⟩ [.declare false "y" (.literal (.number 1))]) nofun
  have h_inner := h_declared.applied (.child ⟨1⟩)
    (by rintro _ ⟨⟩; exact Nat.lt_of_sub_eq_succ rfl)
  exact h_inner.applied (.run ⟨2⟩ [.declare false "x" (.literal (.number 2))]) nofun

/-- A program that assigns to a name from further out, declares that name, assigns it to one from
the scope around, and stops. -/
private def Program.shadowing : Program :=
  [.expression (.assign (.identifier "y") (.literal (.number 5))),
    .declare false "y" (.literal (.number 7)),
    .expression (.assign (.identifier "x") (.identifier "y")), .expression (.identifier "z")]

/-- The first assignment goes to the scope further out, and what is declared afterwards goes into
the scope itself, or into the new one. -/
theorem run_child_of_shadowing :
    RunsSplit ⟨2⟩ ⟨3⟩ (run ⟨2⟩ Program.shadowing Machine.surrounded)
        (run ⟨3⟩ Program.shadowing
          { Machine.surrounded with scopes := Machine.surrounded.scopes.child ⟨2⟩ }) ∧
      ∃ m', run ⟨2⟩ Program.shadowing Machine.surrounded =
          .error ⟨.undeclaredVariable "z", .expression (.identifier "z")⟩ m' ∧
        m'.scopes.get ⟨1⟩ "y" = .ok (.number 5) ∧ m'.scopes.get ⟨2⟩ "y" = .ok (.number 7) := by
  have h_live : Machine.surrounded.scopes.Live ⟨2⟩ := rfl
  have h_fresh : ∀ name ∈ Program.shadowing.declared,
      Machine.surrounded.scopes.binding? ⟨2⟩ name = none := by
    intro name h_name
    rw [List.mem_singleton.1 h_name]
    rfl
  exact ⟨run_child Machine.arises_surrounded h_live h_fresh, _, rfl, rfl, rfl⟩

end ScriptLang
