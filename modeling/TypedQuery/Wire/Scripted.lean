import TypedQuery.Settings.Login
import TypedQuery.Wire.Backend

/-!
# Scripted server

A server that answers from a list of prepared replies and keeps what it was sent.  A statement
that finds no reply has one empty result.  Transaction control does not use up replies.
-/

namespace TypedQuery
namespace Wire

/-- A prepared reply to one message. -/
inductive ServerReply where
  | sets (sets : List RawSet)
  | failure (sqlstate : String)
  /-- No answer comes until the statement is cancelled. -/
  | silence

inductive Traffic where
  | startup (login : Login)
  | query (sql : String)
  | prepared (sql : String) (parameters : List Bound)
  | lookup (types : List Oid)
  | processId
  | cancel (session : Int32)

structure Script where
  login : Login
  replies : List ServerReply := []
  /-- Types of users, array types with the type of their elements and others with zero. -/
  types : List (Oid × Oid) := []
  log : List Traffic := []

namespace Script

def queue (s : Script) (reply : ServerReply) : Script := { s with replies := s.replies ++ [reply] }

/-- The process that serves every connection. -/
def pid : Int32 := 4242

/-- The number of rows in a command tag: the digits at the start of its last word. -/
def affectedOfTag (tag : String) : Nat :=
  let last := (tag.toList.reverse.takeWhile (· != ' ')).reverse
  Number.ofDigits (Number.takeDigits last).1

def emptySet : RawSet := ⟨[], [], 0⟩

def note (entry : Traffic) : SessionM Script Unit :=
  modify fun s => { s with log := s.log ++ [entry] }

def reply : SessionM Script (List RawSet) := do
  let s <- get
  set { s with replies := s.replies.tail }
  match s.replies.head? with
  | none => return [emptySet]
  | some (.sets sets) => return sets
  | some (.failure sqlstate) => throw (.server (.database (some sqlstate)))
  | some .silence => SessionM.silence

/-- Only the first connection is noted.  Nobody listens on a socket that a login names. -/
def connect : SessionM Script Unit := do
  let s <- get
  if s.login.socket.isSome then throw (.server .other)
  else if s.log.isEmpty then note (.startup s.login)

def query (sql : String) : SessionM Script (List RawSet) := do
  note (.query sql)
  if ["BEGIN", "COMMIT", "ROLLBACK"].contains sql then return [emptySet] else reply

/-- A statement with parameters has one result. -/
def prepared (sql : String) (parameters : List Bound) : SessionM Script (List RawSet) := do
  note (.prepared sql parameters)
  if "SET TRANSACTION".toList.isPrefixOf sql.toList then return [emptySet]
  else return [(<- reply).headD emptySet]

def elements (types : List Oid) : SessionM Script (List (Oid × Oid)) := do
  note (.lookup types)
  return (<- get).types.filter fun (type, element) => types.contains type && element != 0

def server : Server Script where
  connect := connect
  query := query
  prepared := prepared
  elements := elements
  processId := do
    note .processId
    return pid
  cancel := fun session => note (.cancel session)

end Script

end Wire
end TypedQuery
