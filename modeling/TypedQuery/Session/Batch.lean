import TypedQuery.Session.Backend

/-!
# Batches

A batch collects statements that are sent as one command.  Every statement has a handle that
holds its outcome once the batch has run: its own result if the round trip succeeded, and the
fault of the whole batch otherwise.  A batch that is dropped without being run leaves its handles
with nothing.
-/

namespace TypedQuery

/-- What the handle of a statement holds until it has answered. -/
inductive Pending (α : Type) where
  /-- The batch did not run yet. -/
  | waiting
  | ready (outcome : Outcome α)
  /-- The batch was dropped, so that nothing is to come. -/
  | closed

/-- The handle of a statement.  Once it has answered, nothing is left in it. -/
inductive Handle (α : Type) where
  | pending (held : Pending α)
  | spent

namespace Pending

variable {α : Type}

/-- Takes the outcome if there is one; while the batch is waiting there is none. -/
def tryTake : Pending α -> Option (Outcome α) × Handle α
  | waiting => (none, .pending waiting)
  | ready outcome => (some outcome, .spent)
  | closed => (some (.error .abandoned), .spent)

/-- The handle after its batch is gone. -/
def settled : Pending α -> Pending α
  | waiting => closed
  | held => held

/-- The outcome of a handle that is awaited, its batch being gone. -/
def wait (held : Pending α) : Outcome α := (held.settled.tryTake.1).getD (.error .abandoned)

end Pending

namespace Handle

variable {α : Type}

def tryTake : Handle α -> Option (Outcome α) × Handle α
  | pending held => held.tryTake
  | spent => (some (.error .abandoned), spent)

def settled : Handle α -> Handle α
  | pending held => pending held.settled
  | spent => spent

/-- What awaiting comes to when the batch is gone.  To await a handle that has answered is a mistake
of the caller which stops the program, so that there is no outcome. -/
def wait? : Handle α -> Option (Outcome α)
  | pending held => some held.wait
  | spent => none

end Handle

/-- Statements waiting to be sent together, brought to one type of output. -/
structure Batch (α : Type) where
  statements : List (Statement α) := []

namespace Batch

variable {σ α : Type}

def push (b : Batch α) (s : Statement α) : Batch α := ⟨b.statements ++ [s]⟩

def size (b : Batch α) : Nat := b.statements.length

def isEmpty (b : Batch α) : Bool := b.statements.isEmpty

def command (b : Batch α) : Command := ⟨b.statements.map (·.query)⟩

def handles (b : Batch α) : List (Pending α) := b.statements.map fun _ => .waiting

def dropped (b : Batch α) : List (Pending α) := b.statements.map fun _ => .closed

/-- What an answer of the transport means for the caller and for the handles. -/
def deliver (b : Batch α) (answer : Outcome ResultCursor) : Outcome Unit × List (Pending α) :=
  let complete : Outcome ResultCursor := do
    let cursor <- answer
    cursor.ensureLength b.size
    return cursor
  match complete with
  | .ok cursor =>
      (.ok (), b.statements.zipWith (fun s result => .ready (s.outcome result)) cursor.results)
  | .error fault =>
      (.error (.batch fault), b.statements.map fun _ => .ready (.error (.batch fault)))

/-- Sends the batch; an empty one is done without asking anybody. -/
def runOn (b : Batch α) (t : Transport σ) : SessionM σ (Outcome Unit × List (Pending α)) := do
  if b.isEmpty then return (.ok (), [])
  else
    match <- SessionM.watched (t.run b.command) with
    | some answer => return b.deliver answer
    | none => SessionM.silence

end Batch

/-- Runs one statement in a round trip of its own; errors come back as they are. -/
def Transport.execute {σ α : Type} (t : Transport σ) (s : Statement α) : SessionM σ α := do
  let cursor <- t.run (.single s.query)
  cursor.ensureLength 1
  match cursor.advance.1 with
  | some result => SessionM.ofOutcome (s.outcome result)
  | none => throw (.missingResult 1 0)

end TypedQuery
