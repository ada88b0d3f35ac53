import ScriptLang.Proofs.Environment.Chains
import ScriptLang.Proofs.Session.Reachable
import ScriptLang.Proofs.Sink

/-!
# What a run depends on

The outcome of a run depends on the scopes along its chain, on the objects that can be reached from
them and on the remaining capacity of the output. Two machines that agree in these, up to the
identities of objects, are *alike*, and every program then does the same on both. So nothing that
happens depends on scopes off the chain, on objects that cannot be reached, or on the identities
that objects were given.

Objects that a run creates get the identities that are next on each machine, so the renaming grows
in the course of it. That is what the simulation is for: its worlds are renamings.

* `Machine.Alike` — machines that are alike for programs in two scopes.
* `Machine.Alike.reaches` — what can be reached on one can be reached on the other.
* `run_noninterference` — what runs on reachable machines do.
-/

namespace ScriptLang

/-! ### Machines that are alike -/

/-- **Machines that are alike** for programs in a scope of each, up to renaming. -/
structure Machine.Alike (β : Renaming) (m₁ : Machine) (s₁ : ScopeId) (m₂ : Machine)
    (s₂ : ScopeId) : Prop where
  heaps : Heap.Alike β m₁.heap m₂.heap
  chains : ∃ n, Environment.ChainsAlike β m₁.scopes m₂.scopes n s₁ s₂
  remaining : m₁.sink.remaining = m₂.sink.remaining

/-- **A renaming that pairs off** objects of two kinds is one to one, and each object of either kind
has a partner of the other. -/
structure Renaming.PairsOff (β : Renaming) (P₁ P₂ : ObjectId → Prop) : Prop where
  oneToOne : Relator.BiUnique β
  left : ∀ o₁, P₁ o₁ → ∃ o₂, β o₁ o₂ ∧ P₂ o₂
  right : ∀ o₂, P₂ o₂ → ∃ o₁, β o₁ o₂ ∧ P₁ o₁

namespace Machine.Alike

variable {β : Renaming} {m₁ m₂ : Machine} {s₁ s₂ : ScopeId}

theorem symm (alike : Alike β m₁ s₁ m₂ s₂) : Alike β.swap m₂ s₂ m₁ s₁ where
  heaps := alike.heaps.symm
  chains := alike.chains.imp fun _ h => h.symm
  remaining := alike.remaining.symm

/-- What is bound in a scope has its like in the scope that corresponds to it. -/
private theorem bound {n : Nat} (chains : Environment.ChainsAlike β m₁.scopes m₂.scopes n s₁ s₂)
    {scope : Scope} {name : String} {o₁ : ObjectId} {constant : Bool}
    (h : m₁.scopes.scope? s₁ = some scope)
    (h_name : scope.bindings.get? name = some ⟨.object o₁, constant⟩) :
    ∃ o₂, β o₁ o₂ ∧ m₂.Reaches s₂ o₂ := by
  have h_bindings : ∃ scope₂, m₂.scopes.scope? s₂ = some scope₂ ∧
      scope.bindings.Rel (Binding.Rel β) scope₂.bindings := by
    cases chains with
    | gone h₁ _ => rw [h] at h₁; cases h₁
    | outermost h₁ h₂ _ _ bindings => rw [h] at h₁; cases h₁; exact ⟨_, h₂, bindings⟩
    | inside h₁ h₂ _ _ bindings _ => rw [h] at h₁; cases h₁; exact ⟨_, h₂, bindings⟩
  obtain ⟨scope₂, h_scope₂, bindings⟩ := h_bindings
  obtain ⟨⟨v₂, constant₂⟩, h_name₂, _, h_v⟩ := bindings.exists_of_get? h_name
  cases h_v with
  | plain h_plain => exact absurd rfl (h_plain o₁)
  | object h_o => exact ⟨_, h_o, .bound h_scope₂ h_name₂⟩

/-- **What can be reached on one machine can be reached on the other.** The induction is on how it
is reached, so the scopes go outwards with it. -/
theorem reaches (alike : Alike β m₁ s₁ m₂ s₂) {o₁ : ObjectId} (h : m₁.Reaches s₁ o₁) :
    ∃ o₂, β o₁ o₂ ∧ m₂.Reaches s₂ o₂ := by
  induction h generalizing s₂ with
  | bound h h_name =>
    obtain ⟨n, chains⟩ := alike.chains
    exact bound chains h h_name
  | @around s₁ p₁ o₁ h further ih =>
    obtain ⟨n, chains⟩ := alike.chains
    unfold Environment.parent? at h
    cases chains with
    | gone h₁ _ => rw [h₁] at h; cases h
    | outermost h₁ _ parent₁ _ _ =>
      rw [h₁, Option.bind_some, parent₁] at h
      cases h
    | @inside n _ _ _ scope₂ _ p₂ h₁ h₂ parent₁ parent₂ _ around =>
      rw [h₁, Option.bind_some, parent₁] at h
      cases h
      -- from the scopes around, the same machines are alike along the shorter chains
      obtain ⟨o₂, h_o, h_reaches⟩ := ih ⟨alike.heaps, ⟨n, around⟩, alike.remaining⟩
      have h_parent : m₂.scopes.parent? s₂ = some p₂ := by
        unfold Environment.parent?
        rw [h₂, Option.bind_some, parent₂]
      exact ⟨o₂, h_o, .around h_parent h_reaches⟩
  | stored owner h ih =>
    obtain ⟨o₂, h_o, h_reaches⟩ := ih alike
    -- the like of the owner has the like of the value under the same key
    obtain ⟨v₂, h_v₂, h_v⟩ := (alike.heaps.fields h_o).exists_of_get? h
    cases h_v with
    | plain h_plain => exact absurd rfl (h_plain _)
    | object h_o' => exact ⟨_, h_o', .stored h_reaches h_v₂⟩

/-- The renaming pairs off what can be reached. -/
theorem pairsOff (alike : Alike β m₁ s₁ m₂ s₂) :
    β.PairsOff (m₁.Reaches s₁) (m₂.Reaches s₂) where
  oneToOne := alike.heaps.oneToOne
  left _ h := alike.reaches h
  right _ h := alike.symm.reaches h

end Machine.Alike

/-! ### Runs that agree -/

/-- **Machines that are still alike** after a run on each, under a renaming that may have grown. -/
structure Machine.StillAlike (β β' : Renaming) (m₁ m₁' : Machine) (s₁ : ScopeId)
    (m₂ m₂' : Machine) (s₂ : ScopeId) : Prop where
  grown : ∀ o₁ o₂, β o₁ o₂ → β' o₁ o₂
  alike : Alike β' m₁' s₁ m₂' s₂
  reached : β'.PairsOff (m₁'.Reaches s₁) (m₂'.Reaches s₂)
  /-- The same was added to both outputs. -/
  written : ∃ out, m₁'.sink.written = m₁.sink.written ++ out ∧
    m₂'.sink.written = m₂.sink.written ++ out

/-- **Runs that agree:** both give related values or both stop with the same error, in the same
statement, and the machines are still alike. -/
inductive RunsAgree (β : Renaming) (m₁ : Machine) (s₁ : ScopeId) (m₂ : Machine) (s₂ : ScopeId) :
    EStateM.Result ExecutionError Machine Value → EStateM.Result ExecutionError Machine Value →
      Prop where
  | ok {β' v₁ v₂ m₁' m₂'} (still : Machine.StillAlike β β' m₁ m₁' s₁ m₂ m₂' s₂)
      (values : v₁.Rel β' v₂) : RunsAgree β m₁ s₁ m₂ s₂ (.ok v₁ m₁') (.ok v₂ m₂')
  | error {β' e m₁' m₂'} (still : Machine.StillAlike β β' m₁ m₁' s₁ m₂ m₂' s₂) :
      RunsAgree β m₁ s₁ m₂ s₂ (.error e m₁') (.error e m₂')

/-! ### Elementary steps -/

namespace Noninterference

open Comparison

variable {s₁ s₂ : ScopeId} {start₁ start₂ : ByteArray}

/-- Machines that are alike, and to whose outputs the same was added since the start. -/
private abbrev comparison (s₁ s₂ : ScopeId) (start₁ start₂ : ByteArray) : Comparison where
  World := Renaming
  le β β' := ∀ o₁ o₂, β o₁ o₂ → β' o₁ o₂
  le_refl _ _ _ h := h
  le_trans h h' o₁ o₂ h_o := h' o₁ o₂ (h o₁ o₂ h_o)
  Machines β m₁ m₂ := Machine.Alike β m₁ s₁ m₂ s₂ ∧
    ∃ out, m₁.sink.written = start₁ ++ out ∧ m₂.sink.written = start₂ ++ out

/-- A change to the scopes that keeps chains alike. -/
private theorem related_updateScopes {β : Renaming}
    {f₁ f₂ : Environment → Except RuntimeError Environment}
    (h : ∀ β', (∀ o₁ o₂, β o₁ o₂ → β' o₁ o₂) → ∀ n e₁ e₂,
      Environment.ChainsAlike β' e₁ e₂ n s₁ s₂ →
        Outcomes (fun e₁' e₂' => Environment.ChainsAlike β' e₁' e₂' n s₁ s₂)
          (f₁ e₁) (f₂ e₂)) :
    (comparison s₁ s₂ start₁ start₂).Related β (Eval.updateScopes f₁) (Eval.updateScopes f₂)
      unconditional := by
  rintro β' le m₁ m₂ ⟨alike, h_out⟩
  obtain ⟨n, chains⟩ := alike.chains
  have h_outcomes := h β' le n m₁.scopes m₂.scopes chains
  unfold Eval.updateScopes
  generalize f₁ m₁.scopes = r₁ at h_outcomes ⊢
  generalize f₂ m₂.scopes = r₂ at h_outcomes ⊢
  cases h_outcomes with
  | error e => exact .error (fun _ _ h => h) ⟨alike, h_out⟩
  | ok chains' =>
    exact .ok (fun _ _ h => h) ⟨⟨alike.heaps, ⟨n, chains'⟩, alike.remaining⟩, h_out⟩ trivial

/-- What is no object is refused with its text. -/
private theorem objectOr_of_plain {refusal : String → RuntimeError} {v : Value}
    (h : ∀ o, v ≠ .object o) (m : Machine) :
    Eval.objectOr refusal v m = .error (refusal (m.heap.text v)) m := by
  cases v with
  | object o => exact absurd rfl (h o)
  | null | boolean | number | string => rfl

/-- The same text written to both outputs. -/
private theorem related_write {β : Renaming} (text : String) :
    (comparison s₁ s₂ start₁ start₂).Related β (Eval.write text) (Eval.write text)
      unconditional := by
  rintro β' le m₁ m₂ ⟨alike, out, h_out₁, h_out₂⟩
  -- with the same remaining capacity as much of the text fits, whatever was written before
  have h_fitting := Sink.fitting_congr alike.remaining text.toUTF8.size
  have h_alike : Machine.Alike β' { m₁ with sink := m₁.sink.write text.toUTF8 } s₁
      { m₂ with sink := m₂.sink.write text.toUTF8 } s₂ :=
    ⟨alike.heaps, alike.chains, Sink.remaining_write_congr alike.remaining _⟩
  have h_written : ∃ out, (m₁.sink.write text.toUTF8).written = start₁ ++ out ∧
      (m₂.sink.write text.toUTF8).written = start₂ ++ out := by
    refine ⟨out ++ text.toUTF8.extract 0 (m₁.sink.fitting text.toUTF8.size), ?_, ?_⟩
    · rw [← ByteArray.append_assoc, ← h_out₁]
      rfl
    · rw [← ByteArray.append_assoc, ← h_out₂, h_fitting]
      rfl
  unfold Eval.write
  dsimp only
  rw [Sink.takes_congr alike.remaining]
  split
  · exact .ok (fun _ _ h => h) ⟨h_alike, h_written⟩ trivial
  · exact .error (fun _ _ h => h) ⟨h_alike, h_written⟩

/-- **Runs on machines that are alike.** Each elementary step keeps them alike. -/
private def simulation (s₁ s₂ : ScopeId) (start₁ start₂ : ByteArray) : Simulation s₁ s₂ where
  toComparison := comparison s₁ s₂ start₁ start₂
  Values β v₁ v₂ := v₁.Rel β v₂
  values_mono le h := h.mono le
  plain _ _ h := .plain h
  lookup β name := by
    rintro β' le m₁ m₂ ⟨alike, h_out⟩
    obtain ⟨n, chains⟩ := alike.chains
    have h_outcomes := chains.get name
    unfold Eval.lookup Eval.ofResult
    generalize m₁.scopes.get s₁ name = r₁ at h_outcomes ⊢
    generalize m₂.scopes.get s₂ name = r₂ at h_outcomes ⊢
    cases h_outcomes with
    | error e => exact .error (fun _ _ h => h) ⟨alike, h_out⟩
    | ok h_v => exact .ok (fun _ _ h => h) ⟨alike, h_out⟩ h_v
  assign β name v₁ v₂ h_v := related_updateScopes fun β' le n e₁ e₂ chains =>
    chains.assign name (h_v.mono le)
  Declares _ := True
  declare β name constant v₁ v₂ _ h_v := related_updateScopes fun β' le n e₁ e₂ chains =>
    chains.declare name ⟨rfl, h_v.mono le⟩
  create β t₁ t₂ h_t := by
    rintro β' le m₁ m₂ ⟨alike, h_out⟩
    obtain ⟨n, chains⟩ := alike.chains
    -- the two new objects are related from now on
    have later : ∀ o₁ o₂, β' o₁ o₂ → β'.extend m₁.heap m₂.heap o₁ o₂ := fun _ _ => .inl
    have heaps := alike.heaps.create (h_t.mono fun _ _ h => h.mono le)
    exact .ok later ⟨⟨heaps, ⟨n, chains.mono later⟩, alike.remaining⟩, h_out⟩
      (.object (.inr ⟨rfl, rfl⟩))
  objectOr β refusal v₁ v₂ h_v := by
    rintro β' le m₁ m₂ ⟨alike, h_out⟩
    -- the refusal quotes the value, which has the same text on both sides
    have h_text := alike.heaps.text_eq (h_v.mono le)
    cases h_v with
    | object h_o =>
      exact .ok (fun _ _ h => h) ⟨alike, h_out⟩ (.object (le _ _ h_o))
    | plain h_plain =>
      rw [objectOr_of_plain h_plain, objectOr_of_plain h_plain, h_text]
      exact .error (fun _ _ h => h) ⟨alike, h_out⟩
  getProperty β property o₁ o₂ h_o := by
    rintro β' le m₁ m₂ ⟨alike, h_out⟩
    have h_property := alike.heaps.fields (le _ _ h_o.objects) property
    unfold Eval.getProperty
    generalize (m₁.heap.fields o₁).get? property = v₁ at h_property ⊢
    generalize (m₂.heap.fields o₂).get? property = v₂ at h_property ⊢
    cases h_property with
    | none => exact .error (fun _ _ h => h) ⟨alike, h_out⟩
    | some h_v => exact .ok (fun _ _ h => h) ⟨alike, h_out⟩ h_v
  setProperty β property o₁ o₂ v₁ v₂ h_o h_v := by
    rintro β' le m₁ m₂ ⟨alike, h_out⟩
    have heaps := alike.heaps.set (le _ _ h_o.objects) property (h_v.mono le)
    exact .ok (fun _ _ h => h) ⟨⟨heaps, alike.chains, alike.remaining⟩, h_out⟩ trivial
  compareValues β c a₁ a₂ b₁ b₂ h_a h_b := by
    rintro β' le m₁ m₂ ⟨alike, h_out⟩
    unfold Eval.compareValues
    rw [Value.Rel.apply?_eq alike.heaps.oneToOne c (h_a.mono le) (h_b.mono le),
      alike.heaps.text_eq (h_a.mono le), alike.heaps.text_eq (h_b.mono le)]
    cases c.apply? a₂ b₂ with
    | none => exact .error (fun _ _ h => h) ⟨alike, h_out⟩
    | some holds => exact .ok (fun _ _ h => h) ⟨alike, h_out⟩ (.plain (by rintro o ⟨⟩))
  operator β o a₁ a₂ b₁ b₂ h_a h_b := by
    rintro β' le m₁ m₂ ⟨alike, h_out⟩
    unfold Eval.ofResult
    rw [Value.Rel.apply_eq o h_a h_b]
    cases h : o.apply a₂ b₂ with
    | error e => exact .error (fun _ _ h => h) ⟨alike, h_out⟩
    | ok v => exact .ok (fun _ _ h => h) ⟨alike, h_out⟩ (.plain (Operator.apply_ne_object h))
  printLine β v₁ v₂ h_v := by
    rintro β' le m₁ m₂ ⟨alike, h_out⟩
    unfold Eval.printLine
    rw [alike.heaps.text_eq (h_v.mono le)]
    exact related_write _ β' (fun _ _ h => h) m₁ m₂ ⟨alike, h_out⟩

end Noninterference

/-! ### Runs -/

/-- **Programs do the same on machines that are alike.** -/
theorem Machine.Alike.runsAgree {β : Renaming} {m₁ m₂ : Machine} {s₁ s₂ : ScopeId}
    (alike : Alike β m₁ s₁ m₂ s₂) (p : Program) :
    RunsAgree β m₁ s₁ m₂ s₂ (run s₁ p m₁) (run s₂ p m₂) := by
  -- at the start nothing was added to either output
  have h_start : ∃ out, m₁.sink.written = m₁.sink.written ++ out ∧
      m₂.sink.written = m₂.sink.written ++ out :=
    ⟨.empty, ByteArray.append_empty.symm, ByteArray.append_empty.symm⟩
  have h_agree := (Noninterference.simulation s₁ s₂ m₁.sink.written m₂.sink.written).related_run
    p (fun _ _ _ _ => trivial) β β (fun _ _ h => h) m₁ m₂ ⟨alike, h_start⟩
  generalize run s₁ p m₁ = r₁ at h_agree ⊢
  generalize run s₂ p m₂ = r₂ at h_agree ⊢
  cases h_agree with
  | ok later machines results =>
    exact .ok ⟨later, machines.1, machines.1.pairsOff, machines.2⟩ results
  | error later machines => exact .error ⟨later, machines.1, machines.1.pairsOff, machines.2⟩

/-- **Noninterference up to the identity of objects.** On two reachable machines, let the chains of
two scopes be alike under a one-to-one renaming of objects that can be reached from them, related
objects have related properties, and the outputs have the same remaining capacity. Then every
program does the same in both scopes. -/
theorem run_noninterference {m₁ m₂ : Machine} (reachable₁ : m₁.Reachable)
    (reachable₂ : m₂.Reachable) {β : Renaming} {s₁ s₂ : ScopeId} {n : Nat}
    (oneToOne : Relator.BiUnique β)
    (reached : ∀ o₁ o₂, β o₁ o₂ → m₁.Reaches s₁ o₁ ∧ m₂.Reaches s₂ o₂)
    (fields : ∀ o₁ o₂, β o₁ o₂ → (m₁.heap.fields o₁).Rel (Value.Rel β) (m₂.heap.fields o₂))
    (chains : Environment.ChainsAlike β m₁.scopes m₂.scopes n s₁ s₂)
    (remaining : m₁.sink.remaining = m₂.sink.remaining) (p : Program) :
    RunsAgree β m₁ s₁ m₂ s₂ (run s₁ p m₁) (run s₂ p m₂) := by
  -- what can be reached on a reachable machine exists, so the identities of new objects are new
  have h_exist : ∀ {o₁ o₂}, β o₁ o₂ → o₁.index < m₁.heap.size ∧ o₂.index < m₂.heap.size := by
    intro o₁ o₂ h_o
    obtain ⟨h_one, h_two⟩ := reached o₁ o₂ h_o
    exact ⟨reachable₁.closed.index_lt_size h_one, reachable₂.closed.index_lt_size h_two⟩
  have h_heaps : Heap.Alike β m₁.heap m₂.heap := ⟨oneToOne, h_exist, fields _ _⟩
  exact Machine.Alike.runsAgree ⟨h_heaps, ⟨n, chains⟩, remaining⟩ p

/-! ### An instance -/

/-- The renaming of one object. -/
def Renaming.single (o₁ o₂ : ObjectId) : Renaming := fun a₁ a₂ => a₁ = o₁ ∧ a₂ = o₂

theorem Renaming.biUnique_single (o₁ o₂ : ObjectId) : Relator.BiUnique (single o₁ o₂) :=
  ⟨fun _ _ _ h h' => h.1.trans h'.1.symm, fun _ _ _ h h' => h.2.trans h'.2.symm⟩

/-- A machine on which the outermost scope of an environment binds a name to an object. -/
def Machine.holding (e : Environment) (h : Heap) (sink : Sink) (o : ObjectId) : Machine :=
  ⟨e.bind Environment.root "x" ⟨.object o, false⟩, h, sink⟩

/-- The only object there is, and nothing was written. -/
def Machine.fresh : Machine :=
  holding .initial (Heap.empty.create ∅) (.empty (some 3)) ⟨0⟩

/-- There is another scope and another object, and something was written. -/
def Machine.used : Machine :=
  holding (Environment.initial.child Environment.root) ((Heap.empty.create ∅).create ∅)
    ((Sink.empty (some 5)).write "a\n".toUTF8) ⟨1⟩

/-- Fresh root scopes are alike, and so they are with the objects that they bind. -/
private theorem chainsAlike_holding {o₁ o₂ : ObjectId} :
    Environment.ChainsAlike (Renaming.single o₁ o₂)
      (Environment.initial.bind Environment.root "x" ⟨.object o₁, false⟩)
      ((Environment.initial.child Environment.root).bind Environment.root "x" ⟨.object o₂, false⟩)
      1 Environment.root Environment.root := by
  have h_null : Binding.Rel (Renaming.single o₁ o₂) ⟨.null, true⟩ ⟨.null, true⟩ :=
    ⟨rfl, .plain (by rintro o ⟨⟩)⟩
  have h_boolean : ∀ b, Binding.Rel (Renaming.single o₁ o₂) ⟨.boolean b, true⟩ ⟨.boolean b, true⟩ :=
    fun _ => ⟨rfl, .plain (by rintro o ⟨⟩)⟩
  have h_constants : Environment.constants.Rel (Binding.Rel (Renaming.single o₁ o₂))
      Environment.constants :=
    (((Table.rel_empty _).insert "null" h_null).insert "true" (h_boolean true)).insert "false"
      (h_boolean false)
  have h_roots : Environment.ChainsAlike (Renaming.single o₁ o₂) .initial
      (Environment.initial.child Environment.root) 1 Environment.root Environment.root :=
    .outermost rfl rfl rfl rfl h_constants
  exact h_roots.bind_self "x" ⟨rfl, .object ⟨rfl, rfl⟩⟩

private theorem reachable_fresh : Machine.fresh.Reachable := by
  have h_run : run Environment.root [.declare false "x" (.object [])]
      ((Session.start (some 3)).machine 0) = .ok .null Machine.fresh := rfl
  exact ⟨_, 0, .ran (.start (some 3)) h_run, rfl⟩

private theorem reachable_used : Machine.used.Reachable := by
  have h_run : run Environment.root [.print (.literal (.string "a")), .expression (.object []),
      .declare false "x" (.object [])]
      (((Session.start (some 5)).child 0 Environment.root).2.machine 0) =
        .ok .null Machine.used := rfl
  exact ⟨_, 0, .ran (.child (.start (some 5)) 0 Environment.root) h_run, rfl⟩

/-- A program that puts an object into itself and prints it, on a machine with one object and on one
where it is the second of two. On both the output takes three bytes of what is printed. -/
theorem run_noninterference_on_used :
    Machine.fresh.Reachable ∧ Machine.used.Reachable ∧
      Machine.fresh.sink.remaining = Machine.used.sink.remaining ∧
      RunsAgree (Renaming.single ⟨0⟩ ⟨1⟩) Machine.fresh Environment.root Machine.used
        Environment.root
        (run Environment.root [.expression (.assign (.member (.identifier "x") "self")
          (.identifier "x")), .print (.identifier "x")] Machine.fresh)
        (run Environment.root [.expression (.assign (.member (.identifier "x") "self")
          (.identifier "x")), .print (.identifier "x")] Machine.used) := by
  refine ⟨reachable_fresh, reachable_used, rfl, ?_⟩
  refine run_noninterference reachable_fresh reachable_used (Renaming.biUnique_single _ _) ?_ ?_
    chainsAlike_holding rfl _
  · rintro _ _ ⟨rfl, rfl⟩
    have h_x : ∀ b : Binding, (Environment.constants.insert "x" b).get? "x" = some b := fun _ => rfl
    exact ⟨.bound rfl (h_x _), .bound rfl (h_x _)⟩
  · rintro _ _ ⟨rfl, rfl⟩
    exact Table.rel_empty _

end ScriptLang
