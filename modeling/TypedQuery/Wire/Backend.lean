import TypedQuery.Session.Backend
import TypedQuery.Wire.Column
import TypedQuery.Wire.Parameter

/-!
# Backend over a server

A single statement with parameters is prepared: it goes with numbered placeholders, and its
results come as bytes.  Everything else goes as one text with all values written out, and its
results come as text.  Types that are not built in are looked up when a result first shows them.
-/

namespace TypedQuery
namespace Wire

/-- A result set as the server sends it; a cell without bytes is NULL. -/
structure RawSet where
  columns : List Oid
  rows : List (List (Option (List UInt8)))
  affected : Nat

/-- What a server does, as actions on a state. -/
structure Server (σ : Type) where
  connect : SessionM σ Unit
  query : String -> SessionM σ (List RawSet)
  prepared : String -> List Bound -> SessionM σ (List RawSet)
  /-- The element types of those types that are arrays. -/
  elements : List Oid -> SessionM σ (List (Oid × Oid))
  processId : SessionM σ Int32
  cancel : Int32 -> SessionM σ Unit

/-- A server and what is known of its types. -/
structure Link (σ : Type) where
  server : σ
  types : TypeCatalog := {}

variable {σ α : Type}

def onServer (action : SessionM σ α) : SessionM (Link σ) α :=
  SessionM.focus Link.server (fun server link => { link with server }) action

/-- How a command is sent. -/
inductive Outgoing where
  | prepared (rendered : Rendered)
  | simple (sql : String)

def Outgoing.ofCommand (command : Command) : Outgoing :=
  let rendered := command.render (.bound .dollar)
  if command.size = 1 ∧ ¬ rendered.params.isEmpty ∧ rendered.params.values.all isBindable then
    .prepared rendered
  else .simple (command.render .simple).sql

/-- Types of shown columns that are not known, each once and in order. -/
def unknownTypes (types : TypeCatalog) (sets : List RawSet) : List Oid :=
  let shown := (sets.filter fun set => !set.rows.isEmpty).flatMap (·.columns)
  let unknown := shown.filter fun type => (types.classify? type).isNone
  (unknown.mergeSort (· ≤ ·)).eraseDups

def resolveTypes (server : Server σ) (sets : List RawSet) : SessionM (Link σ) Unit := do
  let unknown := unknownTypes (<- get).types sets
  if !unknown.isEmpty then
    let found <- onServer (server.elements unknown)
    let element? (type : Oid) : Option Oid := (found.find? (·.1 == type)).map (·.2)
    modify fun link =>
      { link with
        types := unknown.foldl (fun types type => types.record type (element? type)) link.types }

def decodeField (types : TypeCatalog) (format : Format) (type : Oid)
    (cell : Option (List UInt8)) : Outcome Value :=
  match cell with
  | none => .ok .null
  | some bytes => decodeCell format ((types.classify? type).getD .label) bytes

def RawSet.decode (types : TypeCatalog) (format : Format) (set : RawSet) : Outcome ResultSet := do
  let rows <- set.rows.mapM fun row =>
    (set.columns.zip row).mapM fun (type, cell) => decodeField types format type cell
  return ⟨rows, set.affected⟩

def run (server : Server σ) (command : Command) : SessionM (Link σ) ResultCursor := do
  let (format, sets) <- match Outgoing.ofCommand command with
    | .prepared rendered => do
        let parameters <- SessionM.ofOutcome (reported (rendered.params.values.mapM bind))
        pure (Format.binary, <- onServer (server.prepared rendered.sql parameters))
    | .simple sql => do pure (Format.text, <- onServer (server.query sql))
  resolveTypes server sets
  let types := (<- get).types
  let results <- SessionM.ofOutcome (sets.mapM (RawSet.decode types format))
  return ⟨results⟩

def connect (server : Server σ) : SessionM (Link σ) (Transport (Link σ)) := do
  onServer server.connect
  return { run := run server, sessionId := do return some (<- onServer server.processId) }

def begin (server : Server σ) (isolation : IsolationLevel) :
    SessionM (Link σ) (OpenTransaction (Link σ)) := do
  let connection <- connect server
  let control (sql : String) : SessionM (Link σ) Unit := do
    let _ <- onServer (server.query sql)
  control "BEGIN"
  let _ <- onServer (server.prepared ("SET TRANSACTION ISOLATION LEVEL " ++ isolation.sql) [])
  return { toTransport := connection, commit := control "COMMIT", rollback := control "ROLLBACK"
           abandon := control "ROLLBACK" }

def backend (server : Server σ) : Backend (Link σ) :=
  { connect := connect server, begin := begin server,
    cancel := fun id => onServer (server.cancel id) }

end Wire
end TypedQuery
