import TypedQuery.Session.Database

/-!
# Clients

A client uses a database, with at most one transaction open.  Statements run inside that
transaction while there is one, and on a connection of their own otherwise.
-/

namespace TypedQuery

/-- What a client has: the state of the server, and the open transaction. -/
structure Client (σ : Type) where
  state : σ
  transaction : Option (Transaction σ) := none

abbrev ClientM (σ α : Type) := SessionM (Client σ) α

namespace Client

variable {σ α : Type}

/-- An action that has nothing to do with the open transaction. -/
def perform (action : SessionM σ α) : ClientM σ α :=
  SessionM.focus Client.state (fun state c => { c with state }) action

/-- Acts inside the open transaction, or without one. -/
def within (inside : Transaction σ -> SessionM σ α) (outside : SessionM σ α) : ClientM σ α := do
  match (<- get).transaction with
  | some t => perform (inside t)
  | none => perform outside

def execute (db : Database σ) (s : Statement α) : ClientM σ α :=
  within (·.execute s) (db.execute s)

def fetchAll (db : Database σ) (s : Statement (List α)) : ClientM σ (List α) :=
  within (·.fetchAll s) (db.fetchAll s)

def fetchOptional (db : Database σ) (s : Statement (List α)) : ClientM σ (Option α) :=
  within (·.fetchOptional s) (db.fetchOptional s)

def fetchOne (db : Database σ) (s : Statement (List α)) : ClientM σ α :=
  within (·.fetchOne s) (db.fetchOne s)

def run (db : Database σ) (b : Batch α) : ClientM σ (Outcome Unit × List (Pending α)) :=
  within (·.run b) (db.run b)

/-- Ends the open transaction, if there is one. -/
def finish (how : Transaction σ -> SessionM σ Unit) : ClientM σ Unit := do
  if let some t := (<- get).transaction then
    modify fun c => { c with transaction := none }
    perform (how t)

def commit : ClientM σ Unit := finish Transaction.commit

def rollback : ClientM σ Unit := finish Transaction.rollback

/-- Leaves the open transaction without a decision. -/
def leave : ClientM σ Unit := finish Transaction.abandon

/-- Opens a transaction, which takes the place of the one that is open. -/
def begin (db : Database σ) (isolation : IsolationLevel) : ClientM σ Unit := do
  let t <- perform (db.begin isolation)
  leave
  modify fun c => { c with transaction := some t }

end Client

end TypedQuery
