import ScriptLang.Script

/-!
# Sessions

A `Session` has several environments that share their objects and their output. A new environment
starts as a copy of one that is there; from then on each has scopes of its own, and still what a
script does to an object shows in all of them.
-/

namespace ScriptLang

/-- Environments that share their objects and their output. -/
structure Session where
  environments : Array Environment
  heap : Heap
  sink : Sink

namespace Session

/-- A session with one fresh environment. -/
def start (capacity : Option Nat) : Session := ⟨#[.initial], .empty, .empty capacity⟩

/-- An environment of the session; a fresh one if there is none in this place. -/
def environment (t : Session) (i : Nat) : Environment := t.environments[i]?.getD .initial

/-- The machine that scripts of an environment run on. -/
def machine (t : Session) (i : Nat) : Machine := ⟨t.environment i, t.heap, t.sink⟩

/-- The session after the machine of an environment has changed. -/
def update (t : Session) (i : Nat) (m : Machine) : Session :=
  ⟨t.environments.modify i fun _ => m.scopes, m.heap, m.sink⟩

/-- Reads a script and runs it in a scope of an environment. -/
def runScript (i : Nat) (s : ScopeId) (source : String) : EStateM ScriptError Session Value :=
  fun t =>
    match ScriptLang.runScript s source (t.machine i) with
    | .ok v m => .ok v (t.update i m)
    | .error e m => .error e (t.update i m)

/-- Opens a scope in an environment. -/
def child (t : Session) (i : Nat) (parent : ScopeId) : ScopeId × Session :=
  ((t.environment i).nextId,
    { t with environments := t.environments.modify i (·.child parent) })

/-- Discards a scope of an environment, and the scopes inside it. -/
def discard (t : Session) (i : Nat) (s : ScopeId) : Session :=
  { t with environments := t.environments.modify i (·.discard s) }

/-- Adds a copy of an environment, and gives the place of the copy. -/
def clone (t : Session) (i : Nat) : Nat × Session :=
  (t.environments.size, { t with environments := t.environments.push (t.environment i) })

end Session

end ScriptLang
