import Mathlib.Data.List.Nodup
import ScriptLang.Proofs.Environment.Bindings

/-!
# Requests to an environment

Scopes are opened and discarded, and names are declared and assigned to, in any order. Each new
scope takes a slot of its own behind all others, and whatever else is asked for leaves the number
of slots as it is. So the identities that are given out are the numbers of the slots, in order.

* `Environment.Request`, `Environment.perform` — what can be asked of an environment, and the
  environment after a list of requests.
* `Environment.Requested` — the environments that requests lead to.
* `Environment.apply_cases` — all that a request can do.
* `Environment.issued`, `Environment.nodup_issued` — the identities given out, each of them once.
* `Environment.sweep` — how far discarding a scope has come.
-/

namespace ScriptLang

namespace Environment

/-! ### Requests -/

/-- **What can be asked of an environment.** Declarations and assignments may be refused. -/
inductive Request where
  | push (parent : ScopeId)
  | discard (s : ScopeId)
  | declare (s : ScopeId) (name : String) (binding : Binding)
  | assign (s : ScopeId) (name : String) (value : Value)

/-- The environment after a request, which changes nothing if it is refused. -/
def apply (e : Environment) : Request → Environment
  | .push parent => e.child parent
  | .discard s => e.discard s
  | .declare s name b => (e.declare s name b).toOption.getD e
  | .assign s name v => (e.assign s name v).toOption.getD e

/-- **The environment after a list of requests.** -/
def perform (e : Environment) (requests : List Request) : Environment := requests.foldl apply e

@[simp] theorem perform_nil (e : Environment) : e.perform [] = e := rfl

@[simp] theorem perform_cons (e : Environment) (request : Request) (requests : List Request) :
    e.perform (request :: requests) = (e.apply request).perform requests := rfl

/-- The identity that a request gives out, if it opens a scope. -/
def answer? (e : Environment) : Request → Option ScopeId
  | .push _ => some e.nextId
  | .discard _ | .declare .. | .assign .. => none

/-- **The identities that requests give out,** in order. -/
def issued (e : Environment) : List Request → List ScopeId
  | [] => []
  | request :: requests => (e.answer? request).toList ++ (e.apply request).issued requests

/-- An identity that was given out. -/
def Issued (e : Environment) (s : ScopeId) : Prop := s.index < e.slots.size

/-- A scope that is there. -/
def Live (e : Environment) (s : ScopeId) : Prop := (e.scope? s).isSome

/-- **Scopes are opened inside such** as have a property at the time. -/
def OpensInside (P : Environment → ScopeId → Prop) : Environment → List Request → Prop
  | _, [] => True
  | e, request :: requests =>
    (∀ parent, request = .push parent → P e parent) ∧ OpensInside P (e.apply request) requests

theorem OpensInside.mono {P Q : Environment → ScopeId → Prop} (le : ∀ e s, P e s → Q e s)
    {e : Environment} {requests : List Request} (h : OpensInside P e requests) :
    OpensInside Q e requests := by
  induction requests generalizing e with
  | nil => trivial
  | cons request requests ih =>
    obtain ⟨h_first, h_rest⟩ := h
    exact ⟨fun parent h_push => le e parent (h_first parent h_push), ih h_rest⟩

/-- One more request is made of the environment that the others lead to. -/
private theorem OpensInside.append {P : Environment → ScopeId → Prop} {e : Environment}
    {requests : List Request} (h : OpensInside P e requests) {request : Request}
    (h_last : ∀ parent, request = .push parent → P (e.perform requests) parent) :
    OpensInside P e (requests ++ [request]) := by
  induction requests generalizing e with
  | nil => exact ⟨h_last, trivial⟩
  | cons first requests ih =>
    obtain ⟨h_first, h_rest⟩ := h
    exact ⟨h_first, ih h_rest h_last⟩

/-- **An environment that requests lead to** from the initial one, if they open scopes only inside
such as were opened before. -/
def Requested (e : Environment) : Prop :=
  ∃ requests, OpensInside Issued initial requests ∧ initial.perform requests = e

theorem requested_initial : initial.Requested := ⟨[], trivial, rfl⟩

theorem Requested.apply {e : Environment} (h : e.Requested) (request : Request)
    (inside : ∀ parent, request = .push parent → e.Issued parent) :
    (e.apply request).Requested := by
  obtain ⟨requests, h_requests, rfl⟩ := h
  refine ⟨requests ++ [request], h_requests.append inside, ?_⟩
  rw [perform, List.foldl_append]
  rfl

variable {e : Environment}

/-- Only identities that were given out are those of scopes. -/
theorem Live.issued {s : ScopeId} (h : e.Live s) : e.Issued s := by
  obtain ⟨scope, h_scope⟩ := Option.isSome_iff_exists.1 h
  exact index_lt_size h_scope

/-- **All that a request can do:** it opens a scope, it discards one, or it binds a name; or it is
refused. -/
theorem apply_cases (e : Environment) (request : Request) :
    (∃ parent, request = .push parent ∧ e.apply request = e.child parent) ∨
      (∃ s, e.apply request = e.discard s ∧ e.answer? request = none) ∨
      (∃ s name b, e.apply request = e.bind s name b ∧ e.answer? request = none) ∨
      (e.apply request = e ∧ e.answer? request = none) := by
  cases request with
  | push parent => exact .inl ⟨parent, rfl, rfl⟩
  | discard s => exact .inr (.inl ⟨s, rfl, rfl⟩)
  | declare s name b =>
    have h_apply : e.apply (.declare s name b) = (e.declare s name b).toOption.getD e := rfl
    rw [h_apply]
    cases h : e.declare s name b with
    | error _ => exact .inr (.inr (.inr ⟨rfl, rfl⟩))
    | ok e' =>
      obtain ⟨_, _, h_bind⟩ := declare_eq_ok h
      exact .inr (.inr (.inl ⟨s, name, b, h_bind, rfl⟩))
  | assign s name v =>
    have h_apply : e.apply (.assign s name v) = (e.assign s name v).toOption.getD e := rfl
    rw [h_apply]
    cases h : e.assign s name v with
    | error _ => exact .inr (.inr (.inr ⟨rfl, rfl⟩))
    | ok e' =>
      obtain ⟨o, b, _, _, _, h_bind⟩ := assign_eq_ok h
      exact .inr (.inr (.inl ⟨o, name, _, h_bind, rfl⟩))

/-! ### The numbers of slots -/

@[simp] theorem size_child (e : Environment) (parent : ScopeId) :
    (e.child parent).slots.size = e.slots.size + 1 := by
  simp [child]

@[simp] theorem size_clearOrphan (e : Environment) (s : ScopeId) :
    (e.clearOrphan s).slots.size = e.slots.size := by
  unfold clearOrphan clear
  split <;> simp

/-- **How far discarding a scope has come** when it has passed over so many slots behind it. -/
def sweep (e : Environment) (s : ScopeId) (k : Nat) : Environment :=
  (List.range' (s.index + 1) k).foldl (fun e i => e.clearOrphan ⟨i⟩) (e.clear s)

@[simp] theorem sweep_zero (e : Environment) (s : ScopeId) : e.sweep s 0 = e.clear s := rfl

/-- One slot further. -/
theorem sweep_succ (e : Environment) (s : ScopeId) (k : Nat) :
    e.sweep s (k + 1) = (e.sweep s k).clearOrphan ⟨s.index + 1 + k⟩ := by
  unfold sweep
  rw [List.range'_1_concat, List.foldl_append, List.foldl_cons, List.foldl_nil]

/-- Discarding passes over all slots behind the scope. -/
theorem discard_eq_sweep {s : ScopeId} (h_root : s ≠ root) (h_issued : e.Issued s) :
    e.discard s = e.sweep s (e.slots.size - (s.index + 1)) := by
  unfold discard sweep
  exact if_neg fun h => h.elim h_root (Nat.not_le.2 h_issued)

/-- The root is not discarded, and neither is what never was. -/
theorem discard_of_eq_root_or {s : ScopeId} (h : s = root ∨ ¬e.Issued s) : e.discard s = e := by
  unfold discard
  exact if_pos (h.imp_right Nat.not_lt.1)

@[simp] theorem size_sweep (e : Environment) (s : ScopeId) (k : Nat) :
    (e.sweep s k).slots.size = e.slots.size := by
  induction k with
  | zero => simp [clear]
  | succ k ih => rw [sweep_succ, size_clearOrphan, ih]

@[simp] theorem size_discard (e : Environment) (s : ScopeId) :
    (e.discard s).slots.size = e.slots.size := by
  by_cases h : s = root ∨ ¬e.Issued s
  · rw [discard_of_eq_root_or h]
  · have h_root : s ≠ root := fun h_eq => h (.inl h_eq)
    have h_issued : e.Issued s := not_not.1 fun h_not => h (.inr h_not)
    rw [discard_eq_sweep h_root h_issued, size_sweep]

/-- A request gives out the next identity or none, and there is one more slot exactly if it does. -/
theorem size_apply (e : Environment) (request : Request) :
    (e.apply request).slots.size = e.slots.size + (e.answer? request).toList.length := by
  obtain ⟨parent, rfl, h⟩ | ⟨s, h, h_none⟩ | ⟨s, name, b, h, h_none⟩ | ⟨h, h_none⟩ :=
    apply_cases e request
  · rw [h, size_child]
    rfl
  · rw [h, h_none, size_discard]
    rfl
  · rw [h, h_none, size_bind]
    rfl
  · rw [h, h_none]
    rfl

/-- **The identities that requests give out** are the next ones, each of them once. -/
theorem map_index_issued (e : Environment) (requests : List Request) :
    (e.issued requests).map ScopeId.index =
      List.range' e.slots.size ((e.perform requests).slots.size - e.slots.size) ∧
      e.slots.size ≤ (e.perform requests).slots.size := by
  induction requests generalizing e with
  | nil => exact ⟨by rw [perform_nil, Nat.sub_self]; rfl, Nat.le_refl _⟩
  | cons request requests ih =>
    obtain ⟨h_rest, h_le⟩ := ih (e.apply request)
    have h_size := size_apply e request
    rw [issued, List.map_append, h_rest, perform_cons]
    cases h_answer : e.answer? request with
    | none =>
      rw [h_answer] at h_size
      rw [h_size] at h_le ⊢
      exact ⟨rfl, h_le⟩
    | some s =>
      rw [h_answer] at h_size
      -- the first one is the next, and the others follow it
      have h_s : s.index = e.slots.size := by
        cases request with
        | push parent => exact congrArg ScopeId.index (Option.some.inj h_answer).symm
        | discard | declare | assign => cases h_answer
      have h_one : e.slots.size + 1 ≤ ((e.apply request).perform requests).slots.size :=
        h_size ▸ h_le
      refine ⟨?_, Nat.le_of_succ_le h_one⟩
      have h_count : ((e.apply request).perform requests).slots.size - e.slots.size =
          ((e.apply request).perform requests).slots.size - (e.slots.size + 1) + 1 := by
        omega
      rw [h_count, List.range'_succ, h_size, ← h_s]
      rfl

/-- **No identity is given out twice,** that of the root included, and those that were given out are
those of the slots. -/
theorem nodup_issued (requests : List Request) :
    (root :: initial.issued requests).Nodup ∧
      ∀ s, s ∈ root :: initial.issued requests ↔ (initial.perform requests).Issued s := by
  obtain ⟨h_index, h_le⟩ := map_index_issued initial requests
  have h_one : initial.slots.size = 1 := rfl
  rw [h_one] at h_index h_le
  have h_all : (root :: initial.issued requests).map ScopeId.index =
      List.range (initial.perform requests).slots.size := by
    rw [List.map_cons, h_index, List.range_eq_range']
    have h_size : (initial.perform requests).slots.size =
        (initial.perform requests).slots.size - 1 + 1 := by omega
    conv => rhs; rw [h_size, List.range'_succ]
    rfl
  refine ⟨.of_map ScopeId.index (h_all ▸ List.nodup_range), fun s => ?_⟩
  have h_injective : Function.Injective ScopeId.index := fun s t h => congrArg ScopeId.mk h
  rw [← List.mem_map_of_injective h_injective, h_all, List.mem_range]
  rfl

end Environment

end ScriptLang
