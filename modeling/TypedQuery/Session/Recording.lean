import TypedQuery.Session.Backend

/-!
# Recording backend

A backend without a server: it keeps what it was asked, and answers commands from a list of
prepared replies.  A command that finds no reply gets an empty result for each statement.
-/

namespace TypedQuery

/-- A prepared reply to one command. -/
inductive Reply where
  | results (sets : List ResultSet)
  | fault (fault : Fault)
  /-- The command is never answered. -/
  | silence

inductive Recorded where
  | connected
  | began (isolation : IsolationLevel)
  | ran (command : Command)
  | committed
  | rolledBack
  | cancelled (session : Int32)

structure Recorder where
  replies : List Reply := []
  /-- The session id that connections report. -/
  session : Option Int32 := none
  events : List Recorded := []

namespace Recorder

def note (r : Recorder) (event : Recorded) : Recorder := { r with events := r.events ++ [event] }

def queue (r : Recorder) (reply : Reply) : Recorder := { r with replies := r.replies ++ [reply] }

def record (event : Recorded) : SessionM Recorder Unit := modify (·.note event)

/-- Takes the next reply, if one was prepared. -/
def takeReply : SessionM Recorder (Option Reply) := do
  let r <- get
  set { r with replies := r.replies.tail }
  return r.replies.head?

def run (command : Command) : SessionM Recorder ResultCursor := do
  record (.ran command)
  match <- takeReply with
  | none => return ⟨command.segments.map fun _ => {}⟩
  | some (.results sets) => return ⟨sets⟩
  | some (.fault fault) => throw fault
  | some .silence => SessionM.silence

def connect : SessionM Recorder (Transport Recorder) := do
  record .connected
  return { run, sessionId := do return (<- get).session }

def begin (isolation : IsolationLevel) : SessionM Recorder (OpenTransaction Recorder) := do
  record (.began isolation)
  return {
    run, commit := record .committed
    rollback := record .rolledBack, abandon := record .rolledBack }

/-- Cancelling takes a reply too, and fails with a prepared fault. -/
def cancel (session : Int32) : SessionM Recorder Unit := do
  record (.cancelled session)
  match <- takeReply with
  | some (.fault fault) => throw fault
  | _ => return ()

def backend : Backend Recorder := { connect, begin, cancel }

end Recorder

end TypedQuery
