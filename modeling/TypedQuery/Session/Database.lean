import TypedQuery.Session.Batch
import TypedQuery.Session.Bootstrap

/-!
# Databases and transactions

Statements run either on a connection that is taken for just one call, or inside a transaction.
A transaction ends by commit or rollback, and is rolled back when it is left open.
-/

namespace TypedQuery

variable {σ α : Type}

def requireRow (rows : List α) : Outcome α :=
  match rows with
  | row :: _ => .ok row
  | [] => .error (.server .rowNotFound)

structure Database (σ : Type) where
  backend : Backend σ

structure Transaction (σ : Type) where
  inner : OpenTransaction σ
  isolation : IsolationLevel

namespace Database

def bootstrap (db : Database σ) : SessionM σ Unit := do
  let connection <- db.backend.connect
  let _ <- connection.run Bootstrap.command

def begin (db : Database σ) (isolation : IsolationLevel) : SessionM σ (Transaction σ) := do
  return ⟨<- db.backend.begin isolation, isolation⟩

/-- Sends a batch on a connection of its own; without a connection the batch is dropped. -/
def run (db : Database σ) (b : Batch α) : SessionM σ (Outcome Unit × List (Pending α)) := do
  if b.isEmpty then return (.ok (), [])
  else
    match <- SessionM.watched db.backend.connect with
    | some (.ok connection) => b.runOn connection
    | some (.error fault) => return (.error fault, b.dropped)
    | none => SessionM.silence

def execute (db : Database σ) (s : Statement α) : SessionM σ α := do
  let connection <- db.backend.connect
  connection.execute s

def fetchAll (db : Database σ) (s : Statement (List α)) : SessionM σ (List α) := db.execute s

def fetchOptional (db : Database σ) (s : Statement (List α)) : SessionM σ (Option α) := do
  return (<- db.execute s).head?

def fetchOne (db : Database σ) (s : Statement (List α)) : SessionM σ α := do
  SessionM.ofOutcome (requireRow (<- db.execute s))

/-- Runs one text and gives its first result set.  A command that does not end is cancelled, as
far as the session can be told, and the call times out. -/
def rawQuery (db : Database σ) (sql : String) (limit : Duration) : SessionM σ ResultSet := do
  let connection <- db.backend.connect
  let session <- connection.sessionId
  match <- SessionM.watched (connection.run (.single (Fragment.empty.text sql))) with
  | some answer =>
      let cursor <- SessionM.ofOutcome answer
      return cursor.advance.1.getD {}
  | none =>
      if let some id := session then
        if (<- SessionM.watched (db.backend.cancel id)).isNone then SessionM.silence
      throw (.timeout limit)

end Database

namespace Transaction

def run (t : Transaction σ) (b : Batch α) : SessionM σ (Outcome Unit × List (Pending α)) :=
  b.runOn t.inner.toTransport

def execute (t : Transaction σ) (s : Statement α) : SessionM σ α := t.inner.toTransport.execute s

def fetchAll (t : Transaction σ) (s : Statement (List α)) : SessionM σ (List α) := t.execute s

def fetchOptional (t : Transaction σ) (s : Statement (List α)) : SessionM σ (Option α) := do
  return (<- t.execute s).head?

def fetchOne (t : Transaction σ) (s : Statement (List α)) : SessionM σ α := do
  SessionM.ofOutcome (requireRow (<- t.execute s))

def commit (t : Transaction σ) : SessionM σ Unit := t.inner.commit

def rollback (t : Transaction σ) : SessionM σ Unit := t.inner.rollback

def abandon (t : Transaction σ) : SessionM σ Unit := t.inner.abandon

end Transaction

end TypedQuery
