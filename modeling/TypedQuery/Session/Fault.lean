import TypedQuery.Session.Command
import TypedQuery.Session.Duration

/-!
# Faults of a session

What can go wrong when statements run: building and decoding errors, errors of the server, a
batch that failed as a whole, and results that never came.
-/

namespace TypedQuery

/-- An error on the way to the server or from it; a database error may carry an SQLSTATE. -/
inductive ServerFault where
  | rowNotFound
  | protocol
  | database (sqlstate : Option String)
  | other
deriving DecidableEq

inductive Fault where
  | query (error : Error)
  | server (fault : ServerFault)
  | timeout (limit : Duration)
  | batch (inner : Fault)
  | abandoned
  | missingResult (expected received : Nat)
deriving DecidableEq

namespace Fault

/-- The server error behind a fault, also behind that of a batch. -/
def server? : Fault -> Option ServerFault
  | server fault => some fault
  | batch inner => inner.server?
  | _ => none

def sqlstate? (f : Fault) : Option String :=
  match f.server? with
  | some (.database sqlstate) => sqlstate
  | _ => none

/-- The text of a fault; what the server says is left to the wording. -/
def message (words : Wording) : Fault -> String
  | query error => error.message words
  | server _ => "database error: " ++ words.plain
  | timeout limit => "query timed out after " ++ limit.toText
  | batch inner => "batch failed: " ++ inner.message words
  | abandoned => "batch was dropped before it ran"
  | missingResult expected received =>
      s!"expected {expected} result set(s), received {received}"

end Fault

/-- A session action that is over: with a value or with a fault. -/
abbrev Outcome (α : Type) := Except Fault α

namespace ResultCursor

/-- Checks that there is one result set for each statement. -/
def ensureLength (c : ResultCursor) (statements : Nat) : Outcome Unit :=
  if c.remaining = statements then .ok () else .error (.missingResult statements c.remaining)

end ResultCursor

def Statement.outcome {α : Type} (s : Statement α) (result : ResultSet) : Outcome α :=
  match s.decode result with
  | .ok value => .ok value
  | .error e => .error (.query e)

end TypedQuery
