import TypedQuery.Session.Fault

/-!
# Backends

A backend hands out connections and transactions.  What they do is an action on a state, which
stands for the server and everything between: the action ends with a value or a fault, or it
never ends.
-/

namespace TypedQuery

/-- An action on a state: it may end with a fault, and it may never end. -/
abbrev SessionM (σ α : Type) := ExceptT Fault (OptionT (StateM σ)) α

namespace SessionM

variable {σ α : Type}

/-- The action that never ends. -/
def silence : SessionM σ α := ExceptT.mk (OptionT.mk (pure none))

/-- Runs an action: how it ended, if it did, and the state it left. -/
def outcome (action : SessionM σ α) (state : σ) : Option (Outcome α) × σ := action.run.run state

def ofFunction (f : σ -> Outcome α × σ) : SessionM σ α :=
  ExceptT.mk (OptionT.mk fun state => (some (f state).1, (f state).2))

def ofOutcome (o : Outcome α) : SessionM σ α := ofFunction fun state => (o, state)

/-- An action on a part of a greater state. -/
def focus {τ : Type} (part : τ -> σ) (replace : σ -> τ -> τ) (action : SessionM σ α) :
    SessionM τ α :=
  ExceptT.mk (OptionT.mk fun whole =>
    let (outcome, state) := action.outcome (part whole)
    (outcome, replace state whole))

/-- Watches an action: its outcome, or none if it does not end. -/
def watched (action : SessionM σ α) : SessionM σ (Option (Outcome α)) :=
  ofFunction fun state => (.ok (action.outcome state).1, (action.outcome state).2)

end SessionM

/-- Runs commands on one connection. -/
structure Transport (σ : Type) where
  run : Command -> SessionM σ ResultCursor
  /-- The server session, for cancelling; none if commands cannot be cancelled. -/
  sessionId : SessionM σ (Option Int32) := pure none

/-- A connection inside an open transaction. -/
structure OpenTransaction (σ : Type) extends Transport σ where
  commit : SessionM σ Unit
  rollback : SessionM σ Unit
  /-- Leaves the transaction without a decision, which rolls it back. -/
  abandon : SessionM σ Unit

structure Backend (σ : Type) where
  connect : SessionM σ (Transport σ)
  begin : IsolationLevel -> SessionM σ (OpenTransaction σ)
  /-- Aborts what a session is running, from outside of it. -/
  cancel : Int32 -> SessionM σ Unit := fun _ => pure ()

end TypedQuery
