import TypedQuery.Session.Batch
import TypedQuery.Session.Recording

/-!
# Delivery of a batch

A run sends one outcome to every handle of its batch, in the order of the statements.  If there are
as many result sets as statements, each handle gets what its own statement makes of its own set;
otherwise all of them get the one fault of the batch.
-/

namespace TypedQuery

/-!
## How actions end
-/

namespace SessionM

variable {σ α β : Type}

theorem outcome_watched (action : SessionM σ α) (state : σ) :
    action.watched.outcome state =
      (some (.ok (action.outcome state).1), (action.outcome state).2) := rfl

theorem outcome_bind (action : SessionM σ α) (f : α -> SessionM σ β) (state : σ) :
    (action >>= f).outcome state =
      match action.outcome state with
      | (some (.ok a), after) => (f a).outcome after
      | (some (.error fault), after) => (some (.error fault), after)
      | (none, after) => (none, after) := by
  unfold outcome ExceptT.run OptionT.run
  simp only [bind, ExceptT.bind, ExceptT.mk, OptionT.bind, OptionT.mk, StateT.bind]
  change (match action state with | (o, after) => _) = (match action state with | _ => _)
  rcases action state with ⟨_ | _ | a, after⟩ <;> rfl

end SessionM

namespace Pending

variable {α : Type}

/-- A handle that is sent an outcome; only one that waits takes it. -/
def receive (outcome : Outcome α) : Pending α -> Pending α
  | waiting => ready outcome
  | handle => handle

end Pending

namespace Batch

variable {σ α : Type}

/-!
## Before the run

A batch is filled statement by statement, and its handles may be asked at any time.
-/

inductive Use (α : Type) where
  | push (s : Statement α)
  | ask (position : Nat)

/-- A batch that is being filled, the handles it gave out, and what these answered when asked. -/
structure Filling (α : Type) where
  batch : Batch α := {}
  handles : List (Handle α) := []
  answers : List (Option (Outcome α)) := []

namespace Filling

def use (f : Filling α) : Use α -> Filling α
  | .push s => { f with batch := f.batch.push s, handles := f.handles ++ [.pending .waiting] }
  | .ask position =>
      match f.handles[position]? with
      | none => f
      | some handle =>
          { f with
            handles := f.handles.set position handle.tryTake.2
            answers := f.answers ++ [handle.tryTake.1] }

def ofUses (uses : List (Use α)) : Filling α := uses.foldl use {}

/-- Every handle waits, and none had an outcome when it was asked. -/
structure Unresolved (f : Filling α) : Prop where
  handles_eq : f.handles = f.batch.handles.map .pending
  answers_eq : forall answer, answer ∈ f.answers -> answer = none

theorem Unresolved.waiting {f : Filling α} (h : f.Unresolved) {position : Nat}
    {handle : Handle α} (hhandle : f.handles[position]? = some handle) :
    handle = .pending .waiting := by
  rw [h.handles_eq, Batch.handles, List.map_map, List.getElem?_map] at hhandle
  rcases Option.map_eq_some_iff.mp hhandle with ⟨_, -, hwaiting⟩
  exact hwaiting.symm

theorem Unresolved.use {f : Filling α} (h : f.Unresolved) (u : Use α) : (f.use u).Unresolved := by
  cases u with
  | push s =>
      refine ⟨?_, h.answers_eq⟩
      simp [Filling.use, h.handles_eq, Batch.handles, push]
  | ask position =>
      unfold Filling.use
      dsimp only
      split
      · exact h
      · rename_i handle hhandle
        cases h.waiting hhandle
        constructor
        · rcases List.getElem?_eq_some_iff.mp hhandle with ⟨hposition, hget⟩
          have hset : f.handles.set position (.pending .waiting) = f.handles :=
            hget ▸ List.set_getElem_self hposition
          exact hset.trans h.handles_eq
        · intro answer hanswer
          rcases List.mem_append.mp hanswer with hbefore | hnow
          · exact h.answers_eq answer hbefore
          · exact List.mem_singleton.mp hnow

theorem unresolved_ofUses (uses : List (Use α)) : (ofUses uses).Unresolved := by
  have hrun : forall (uses : List (Use α)) (f : Filling α), f.Unresolved ->
      (uses.foldl Filling.use f).Unresolved := by
    intro uses
    induction uses with
    | nil => exact fun _ h => h
    | cons u rest ih => exact fun f h => ih (f.use u) (h.use u)
  refine hrun uses {} ⟨rfl, ?_⟩
  intro answer hanswer
  cases hanswer

end Filling

/-!
## Sends
-/

/-- What is sent to one handle: the position of its statement, and the outcome. -/
structure Sent (α : Type) where
  position : Nat
  outcome : Outcome α

namespace Sent

def resolve (handles : List (Pending α)) (s : Sent α) : List (Pending α) :=
  handles.modify s.position (Pending.receive s.outcome)

theorem resolve_next (resolved waiting : List (Pending α)) (outcome : Outcome α) :
    resolve (resolved ++ .waiting :: waiting) ⟨resolved.length, outcome⟩ =
      (resolved ++ [.ready outcome]) ++ waiting := by
  induction resolved with
  | nil => rfl
  | cons handle rest ih => exact congrArg (handle :: ·) ih

/-- Sends to consecutive positions resolve the waiting handles there, each with its own outcome. -/
theorem foldl_resolve {sends : List (Sent α)} {resolved : List (Pending α)}
    (h : sends.map (·.position) = List.range' resolved.length sends.length) :
    sends.foldl resolve (resolved ++ List.replicate sends.length .waiting) =
      resolved ++ sends.map fun s => .ready s.outcome := by
  induction sends generalizing resolved with
  | nil => simp
  | cons s rest ih =>
      rcases s with ⟨position, outcome⟩
      rw [List.map_cons, List.length_cons, List.range'_succ, List.cons.injEq] at h
      rcases h with ⟨rfl, hrest⟩
      have hlength : (resolved ++ [Pending.ready outcome]).length = resolved.length + 1 := by
        simp
      rw [<- hlength] at hrest
      rw [List.length_cons, List.replicate_succ, List.foldl_cons, resolve_next, ih hrest]
      simp

end Sent

def drain (expected : Nat) : Nat -> List (Statement α) -> ResultCursor -> List (Sent α)
  | _, [], _ => []
  | position, s :: rest, cursor =>
      let outcome := match cursor.advance.1 with
        | some result => s.outcome result
        | none => .error (.batch (.missingResult expected (expected - 1)))
      ⟨position, outcome⟩ :: drain expected (position + 1) rest cursor.advance.2

def reject (b : Batch α) (fault : Fault) : List (Sent α) :=
  (List.range b.size).map fun position => ⟨position, .error (.batch fault)⟩

def sends (b : Batch α) : Outcome ResultCursor -> List (Sent α)
  | .error fault => b.reject fault
  | .ok cursor =>
      match cursor.ensureLength b.size with
      | .ok () => drain b.size 0 b.statements cursor
      | .error fault => b.reject fault

theorem position_drain (expected start : Nat) (statements : List (Statement α))
    (cursor : ResultCursor) :
    (drain expected start statements cursor).map (·.position) =
      List.range' start statements.length := by
  induction statements generalizing start cursor with
  | nil => rfl
  | cons s rest ih =>
      rw [drain, List.map_cons, ih, List.length_cons, List.range'_succ]

theorem outcome_drain {expected start : Nat} {statements : List (Statement α)}
    {results : List ResultSet} (h : results.length = statements.length) :
    (drain expected start statements ⟨results⟩).map (·.outcome) =
      statements.zipWith Statement.outcome results := by
  induction statements generalizing start results with
  | nil => rfl
  | cons s rest ih =>
      cases results with
      | nil => cases h
      | cons result results =>
          have hrest : results.length = rest.length := Nat.succ.inj h
          rw [drain, List.map_cons, List.zipWith_cons_cons]
          exact congrArg (s.outcome result :: ·) (ih hrest)

theorem position_reject (b : Batch α) (fault : Fault) :
    (b.reject fault).map (·.position) = List.range b.size := by
  rw [reject, List.map_map]
  exact List.map_id _

theorem position_sends (b : Batch α) (answer : Outcome ResultCursor) :
    (b.sends answer).map (·.position) = List.range b.size := by
  unfold sends
  split
  · exact b.position_reject _
  · split
    · rw [position_drain, List.range_eq_range']
      rfl
    · exact b.position_reject _

theorem length_sends (b : Batch α) (answer : Outcome ResultCursor) :
    (b.sends answer).length = b.size := by
  have hlength := congrArg List.length (b.position_sends answer)
  rwa [List.length_map, List.length_range] at hlength

theorem foldl_resolve_sends (b : Batch α) (answer : Outcome ResultCursor) :
    (b.sends answer).foldl Sent.resolve b.handles =
      ((b.sends answer).map (·.outcome)).map .ready := by
  have hpositions : (b.sends answer).map (·.position) =
      List.range' ([] : List (Pending α)).length (b.sends answer).length := by
    rw [position_sends, length_sends, List.range_eq_range']
    rfl
  have hhandles : b.handles = List.replicate (b.sends answer).length .waiting := by
    rw [length_sends, Batch.handles, List.map_const']
    rfl
  rw [hhandles, List.map_map]
  exact Sent.foldl_resolve hpositions

theorem outcomes_reject (b : Batch α) (fault : Fault) :
    (b.reject fault).map (·.outcome) = List.replicate b.size (.error (.batch fault)) := by
  rw [reject, List.map_map]
  exact List.map_const'.trans (by rw [List.length_range])

/-!
## The run
-/

/-- The fault of an answer that does not have one result set for each statement. -/
def refusal? (b : Batch α) : Outcome ResultCursor -> Option Fault
  | .error fault => some fault
  | .ok cursor =>
      if cursor.remaining = b.size then none else some (.missingResult b.size cursor.remaining)

theorem refusal?_eq_none {b : Batch α} {answer : Outcome ResultCursor}
    (h : b.refusal? answer = none) :
    exists cursor, answer = .ok cursor ∧ cursor.remaining = b.size := by
  cases answer with
  | error inner => cases h
  | ok cursor =>
      unfold refusal? at h
      dsimp only at h
      split at h
      · rename_i hlength
        exact ⟨cursor, rfl, hlength⟩
      · cases h

theorem refusal?_eq_some {b : Batch α} {answer : Outcome ResultCursor} {fault : Fault}
    (h : b.refusal? answer = some fault) :
    answer = .error fault ∨
      exists cursor, answer = .ok cursor ∧ cursor.remaining ≠ b.size ∧
        fault = .missingResult b.size cursor.remaining := by
  cases answer with
  | error inner => exact Or.inl (congrArg Except.error (Option.some.inj h))
  | ok cursor =>
      unfold refusal? at h
      dsimp only at h
      split at h
      · cases h
      · rename_i hlength
        exact Or.inr ⟨cursor, rfl, hlength, (Option.some.inj h).symm⟩

theorem outcomes_of_complete {b : Batch α} {cursor : ResultCursor}
    (h : cursor.remaining = b.size) :
    (b.sends (.ok cursor)).map (·.outcome) =
      b.statements.zipWith Statement.outcome cursor.results := by
  simp only [sends, ResultCursor.ensureLength, if_pos h]
  exact outcome_drain h

theorem outcomes_of_refusal {b : Batch α} {answer : Outcome ResultCursor} {fault : Fault}
    (h : b.refusal? answer = some fault) :
    (b.sends answer).map (·.outcome) = List.replicate b.size (.error (.batch fault)) := by
  have hsends : b.sends answer = b.reject fault := by
    rcases refusal?_eq_some h with rfl | ⟨cursor, rfl, hlength, rfl⟩
    · rfl
    · simp only [sends, ResultCursor.ensureLength, if_neg hlength]
  rw [hsends, outcomes_reject]

def verdict (b : Batch α) (answer : Outcome ResultCursor) : Outcome Unit :=
  match b.refusal? answer with
  | none => .ok ()
  | some fault => .error (.batch fault)

theorem deliver_eq (b : Batch α) (answer : Outcome ResultCursor) :
    b.deliver answer = (b.verdict answer, (b.sends answer).foldl Sent.resolve b.handles) := by
  rw [foldl_resolve_sends, verdict]
  cases hrefusal : b.refusal? answer with
  | none =>
      rcases refusal?_eq_none hrefusal with ⟨cursor, rfl, hlength⟩
      have hensure : cursor.ensureLength b.size = .ok () := if_pos hlength
      rw [outcomes_of_complete hlength, List.map_zipWith, deliver]
      simp only [bind, Except.bind, hensure]
      rfl
  | some fault =>
      rw [outcomes_of_refusal hrefusal, List.map_replicate]
      rcases refusal?_eq_some hrefusal with rfl | ⟨cursor, rfl, hlength, rfl⟩
      · exact congrArg (Prod.mk _) List.map_const'
      · have hensure : cursor.ensureLength b.size =
            .error (.missingResult b.size cursor.remaining) := if_neg hlength
        rw [deliver]
        simp only [bind, Except.bind, hensure]
        exact congrArg (Prod.mk _) List.map_const'

theorem isEmpty_iff {b : Batch α} : b.isEmpty = true <-> b.size = 0 :=
  List.isEmpty_iff.trans List.length_eq_zero_iff.symm

theorem outcome_runOn_empty {b : Batch α} (h : b.size = 0) (t : Transport σ) (state : σ) :
    (b.runOn t).outcome state = (some (.ok (.ok (), [])), state) := by
  rw [runOn, if_pos (isEmpty_iff.mpr h)]
  rfl

/-- A batch that is not empty delivers the answer to its one command, if there is an answer. -/
theorem outcome_runOn {b : Batch α} (h : b.size ≠ 0) (t : Transport σ) (state : σ) :
    (b.runOn t).outcome state =
      (((t.run b.command).outcome state).1.map fun answer => .ok (b.deliver answer),
        ((t.run b.command).outcome state).2) := by
  rw [runOn, if_neg (mt isEmpty_iff.mp h), SessionM.outcome_bind, SessionM.outcome_watched]
  cases ((t.run b.command).outcome state).1 with
  | none => rfl
  | some answer => rfl

/-- However a batch was filled and whatever the transport answers: no handle has an outcome before
the run, which sends one outcome to each of them.  With one result set for each statement that is
the outcome of its own statement on its own result set, and otherwise the fault of the batch. -/
theorem runOn_resolves_each_handle_once (uses : List (Use α)) (t : Transport σ) (state : σ) :
    let filling := Filling.ofUses uses
    let b := filling.batch
    let asked := (t.run b.command).outcome state
    (filling.handles = b.handles.map .pending ∧ b.handles = List.replicate b.size .waiting ∧
      forall answer, answer ∈ filling.answers -> answer = none) ∧
    (b.size = 0 -> (b.runOn t).outcome state = (some (.ok (.ok (), [])), state)) ∧
    (b.size ≠ 0 -> asked.1 = none -> (b.runOn t).outcome state = (none, asked.2)) ∧
    (b.size ≠ 0 -> forall answer, asked.1 = some answer ->
      exists (result : Outcome Unit) (sends : List (Sent α)),
        (b.runOn t).outcome state =
          (some (.ok (result, sends.foldl Sent.resolve b.handles)), asked.2) ∧
        sends.map (·.position) = List.range b.size ∧
        sends.foldl Sent.resolve b.handles = (sends.map (·.outcome)).map .ready ∧
        ((exists cursor, answer = .ok cursor ∧ cursor.results.length = b.size ∧
            result = .ok () ∧
            sends.map (·.outcome) = b.statements.zipWith Statement.outcome cursor.results) ∨
          (exists fault,
            (answer = .error fault ∨
              exists cursor, answer = .ok cursor ∧ cursor.results.length ≠ b.size ∧
                fault = .missingResult b.size cursor.results.length) ∧
            result = .error (.batch fault) ∧
            sends.map (·.outcome) = List.replicate b.size (.error (.batch fault))))) := by
  intro filling b asked
  have hunresolved : filling.Unresolved := Filling.unresolved_ofUses uses
  refine ⟨⟨hunresolved.handles_eq, List.map_const', hunresolved.answers_eq⟩, ?_, ?_, ?_⟩
  · exact fun hsize => outcome_runOn_empty hsize t state
  · intro hsize hsilent
    rw [outcome_runOn hsize]
    change (asked.1.map _, asked.2) = _
    rw [hsilent]
    rfl
  · intro hsize answer hanswer
    refine ⟨b.verdict answer, b.sends answer, ?_, b.position_sends answer, ?_, ?_⟩
    · rw [outcome_runOn hsize, <- deliver_eq]
      change (asked.1.map _, asked.2) = _
      rw [hanswer]
      rfl
    · exact b.foldl_resolve_sends answer
    · unfold verdict
      cases hrefusal : b.refusal? answer with
      | none =>
          rcases refusal?_eq_none hrefusal with ⟨cursor, rfl, hlength⟩
          exact Or.inl ⟨cursor, rfl, hlength, rfl, outcomes_of_complete hlength⟩
      | some fault =>
          exact Or.inr ⟨fault, refusal?_eq_some hrefusal, rfl, outcomes_of_refusal hrefusal⟩

def flawedAndCounting : List (Use Nat) :=
  [.push ⟨Fragment.empty.text "SELECT 1", fun _ => .error (.emptyMutation "t")⟩, .ask 0,
    .push ⟨Fragment.empty.text "SELECT 2", fun result => .ok result.rows.length⟩]

theorem runOn_spares_neighbour :
    exists sends : List (Sent Nat),
      sends.map (·.position) = [0, 1] ∧
      sends.map (·.outcome) = [.error (.query (.emptyMutation "t")), .ok 1] ∧
      ((Filling.ofUses flawedAndCounting).batch.runOn { run := Recorder.run }).outcome
          (({} : Recorder).queue (.results [⟨[], 0⟩, ⟨[[]], 0⟩])) =
        (some (.ok (.ok (), (sends.map (·.outcome)).map .ready)),
          { events := [.ran (Filling.ofUses flawedAndCounting).batch.command] }) := by
  have hrun := runOn_resolves_each_handle_once flawedAndCounting { run := Recorder.run }
    (({} : Recorder).queue (.results [⟨[], 0⟩, ⟨[[]], 0⟩]))
  rcases hrun.2.2.2 (by decide) (.ok ⟨[⟨[], 0⟩, ⟨[[]], 0⟩]⟩) rfl with
    ⟨result, sends, hended, hpositions, hready, hcomplete | hfaulted⟩
  · rcases hcomplete with ⟨cursor, hcursor, -, rfl, houtcomes⟩
    cases hcursor
    refine ⟨sends, hpositions, houtcomes, ?_⟩
    rw [hended, hready]
    rfl
  · rcases hfaulted with ⟨fault, hanswer | ⟨cursor, hcursor, hlength, -⟩, -⟩
    · cases hanswer
    · cases hcursor
      exact absurd rfl hlength

end Batch
end TypedQuery
