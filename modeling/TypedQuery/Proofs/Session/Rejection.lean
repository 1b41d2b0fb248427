import TypedQuery.Proofs.Session.Delivery
import TypedQuery.Session.Database
import TypedQuery.Wire.Scripted

/-!
# Rejection of a failed batch

A run that fails on its transport rejects every handle with the fault it returns.  A database looks
for a connection first, and when it finds none the batch is dropped before anything is sent: then
the run returns the fault of the connection as it is, and the handles are abandoned.
-/

namespace TypedQuery

variable {σ α : Type}

namespace Batch

def Rejected (inner fault : Fault) (handles : List (Pending α)) : Prop :=
  fault = .batch inner ∧
    forall handle, handle ∈ handles -> handle.wait = .error (.batch inner)

def Abandoned (handles : List (Pending α)) : Prop :=
  forall handle, handle ∈ handles -> handle.wait = .error .abandoned

theorem abandoned_dropped (b : Batch α) : Abandoned b.dropped := by
  intro handle hhandle
  rcases List.mem_map.mp hhandle with ⟨_, -, rfl⟩
  rfl

theorem length_dropped (b : Batch α) : b.dropped.length = b.size := List.length_map _

theorem Abandoned.not_rejected {handles : List (Pending α)} (h : Abandoned handles)
    (hsome : handles.length ≠ 0) {inner fault : Fault} : ¬Rejected inner fault handles := by
  rintro ⟨-, hrejected⟩
  cases handles with
  | nil => exact hsome rfl
  | cons handle rest =>
      have hwait := (h handle List.mem_cons_self).symm.trans (hrejected handle List.mem_cons_self)
      cases hwait

/-!
## On a transport
-/

/-- What makes a run on a transport fail: its own fault, or a wrong number of result sets. -/
def failure? (b : Batch α) (t : Transport σ) (state : σ) : Option Fault :=
  ((t.run b.command).outcome state).1.bind b.refusal?

theorem deliver_of_refusal {b : Batch α} {answer : Outcome ResultCursor} {inner : Fault}
    (h : b.refusal? answer = some inner) :
    b.deliver answer =
      (.error (.batch inner), List.replicate b.size (.ready (.error (.batch inner)))) := by
  rw [deliver_eq, foldl_resolve_sends, outcomes_of_refusal h, List.map_replicate, verdict, h]

theorem deliver_of_complete {b : Batch α} {answer : Outcome ResultCursor}
    (h : b.refusal? answer = none) : (b.deliver answer).1 = .ok () := by
  rw [deliver_eq, verdict, h]

/-- A failed run on a transport rejects all its handles with what made it fail. -/
theorem runOn_rejects {b : Batch α} (hfilled : b.size ≠ 0) {t : Transport σ} {state : σ}
    {fault : Fault} {handles : List (Pending α)}
    (h : ((b.runOn t).outcome state).1 = some (.ok (.error fault, handles))) :
    handles.length = b.size ∧
      exists inner, b.failure? t state = some inner ∧ Rejected inner fault handles := by
  rw [outcome_runOn hfilled] at h
  rcases Option.map_eq_some_iff.mp h with ⟨answer, hanswer, hdelivered⟩
  have hpair : b.deliver answer = (.error fault, handles) := Except.ok.inj hdelivered
  cases hrefusal : b.refusal? answer with
  | none =>
      have hok := deliver_of_complete hrefusal
      rw [hpair] at hok
      cases hok
  | some inner =>
      rw [deliver_of_refusal hrefusal] at hpair
      cases hpair
      refine ⟨List.length_replicate, inner, ?_, rfl, ?_⟩
      · rw [failure?, hanswer]
        exact hrefusal
      · intro handle hhandle
        rw [List.eq_of_mem_replicate hhandle]
        rfl

theorem runOn_not_thrown (b : Batch α) (t : Transport σ) (state : σ) (fault : Fault) :
    ((b.runOn t).outcome state).1 ≠ some (.error fault) := by
  by_cases hsize : b.size = 0
  · rw [outcome_runOn_empty hsize]
    exact fun h => nomatch h
  · rw [outcome_runOn hsize]
    intro h
    rcases Option.map_eq_some_iff.mp h with ⟨_, -, hthrown⟩
    cases hthrown

end Batch

/-!
## On a database
-/

namespace Database

/-- The three ways of asking for a connection decide how the run goes on. -/
theorem outcome_run {b : Batch α} (hfilled : b.size ≠ 0) (db : Database σ) (state : σ) :
    (db.run b).outcome state =
      match db.backend.connect.outcome state with
      | (some (.ok connection), middle) => (b.runOn connection).outcome middle
      | (some (.error refusal), middle) => (some (.ok (.error refusal, b.dropped)), middle)
      | (none, middle) => (none, middle) := by
  rw [run, if_neg (mt Batch.isEmpty_iff.mp hfilled), SessionM.outcome_bind,
    SessionM.outcome_watched]
  rcases db.backend.connect.outcome state with ⟨_ | _ | connection, middle⟩ <;> rfl

/-- A failed run rejects its handles, on a database exactly when there was a connection: then they
all carry the failure of the run.  Without a connection they are all abandoned. -/
theorem failed_run_rejects_iff_connected {b : Batch α} (hfilled : b.size ≠ 0) (db : Database σ)
    (t : Transaction σ) (state : σ) :
    (forall (fault : Fault) (handles : List (Pending α)),
      ((db.run b).outcome state).1 = some (.ok (.error fault, handles)) ->
        handles.length = b.size ∧
        ((exists connection, (db.backend.connect.outcome state).1 = some (.ok connection)) <->
          exists inner, Batch.Rejected inner fault handles) ∧
        (forall connection middle,
          db.backend.connect.outcome state = (some (.ok connection), middle) ->
            exists inner, b.failure? connection middle = some inner ∧
              Batch.Rejected inner fault handles) ∧
        (forall refusal middle,
          db.backend.connect.outcome state = (some (.error refusal), middle) ->
            fault = refusal ∧ Batch.Abandoned handles)) ∧
    (forall (fault : Fault) (handles : List (Pending α)),
      ((t.run b).outcome state).1 = some (.ok (.error fault, handles)) ->
        handles.length = b.size ∧
        exists inner, b.failure? t.inner.toTransport state = some inner ∧
          Batch.Rejected inner fault handles) ∧
    (forall fault : Fault, ((db.run b).outcome state).1 ≠ some (.error fault) ∧
      ((t.run b).outcome state).1 ≠ some (.error fault)) := by
  refine ⟨?_, ?_, ?_⟩
  · intro fault handles h
    rw [outcome_run hfilled] at h
    rcases hconnect : db.backend.connect.outcome state with ⟨_ | refusal | connection, middle⟩
    · rw [hconnect] at h
      cases h
    · rw [hconnect] at h
      cases h
      have habandoned := b.abandoned_dropped
      refine ⟨b.length_dropped, ⟨?_, ?_⟩, ?_, ?_⟩
      · rintro ⟨_, hacquired⟩
        cases hacquired
      · rintro ⟨inner, hrejected⟩
        exact absurd hrejected (habandoned.not_rejected (b.length_dropped.symm ▸ hfilled))
      · intro _ _ hacquired
        cases hacquired
      · intro _ _ hrefused
        cases hrefused
        exact ⟨rfl, habandoned⟩
    · rw [hconnect] at h
      rcases Batch.runOn_rejects hfilled h with ⟨hlength, inner, hfailure, hrejected⟩
      refine ⟨hlength, ⟨fun _ => ⟨inner, hrejected⟩, fun _ => ⟨connection, rfl⟩⟩, ?_, ?_⟩
      · intro _ _ hacquired
        cases hacquired
        exact ⟨inner, hfailure, hrejected⟩
      · intro _ _ hrefused
        cases hrefused
  · exact fun fault handles h => Batch.runOn_rejects hfilled h
  · refine fun fault => ⟨?_, b.runOn_not_thrown t.inner.toTransport state fault⟩
    rw [outcome_run hfilled]
    rcases db.backend.connect.outcome state with ⟨_ | refusal | connection, middle⟩
    · exact fun h => nomatch h
    · exact fun h => nomatch h
    · exact b.runOn_not_thrown connection middle fault

def counting : Batch Nat :=
  Batch.push {} ⟨Fragment.empty.text "SELECT 1", fun result => .ok result.rows.length⟩

def recordedTransaction : Transaction Recorder :=
  ⟨{ run := Recorder.run, commit := pure (), rollback := pure (), abandon := pure () }, default⟩

theorem failed_command_rejects_counting :
    exists handles : List (Pending Nat),
      ((run ⟨Recorder.backend⟩ counting).outcome
          (({} : Recorder).queue (.fault (.server .protocol)))).1 =
        some (.ok (.error (.batch (.server .protocol)), handles)) ∧
      handles.length = 1 ∧
      Batch.Rejected (.server .protocol) (.batch (.server .protocol)) handles := by
  have hrejects := failed_run_rejects_iff_connected (b := counting) (by decide)
    ⟨Recorder.backend⟩ recordedTransaction (({} : Recorder).queue (.fault (.server .protocol)))
  have hrun : ((run ⟨Recorder.backend⟩ counting).outcome
      (({} : Recorder).queue (.fault (.server .protocol)))).1 =
        some (.ok (.error (.batch (.server .protocol)),
          [.ready (.error (.batch (.server .protocol)))])) := rfl
  rcases hrejects.1 _ _ hrun with ⟨hlength, hconnected, -, -⟩
  rcases hconnected.mp ⟨_, rfl⟩ with ⟨inner, hinner, hhandles⟩
  cases hinner
  exact ⟨_, hrun, hlength, rfl, hhandles⟩

/-- Where nobody listens on the socket of the login, the run fails and the handles are abandoned. -/
theorem unconnected_run_abandons_counting :
    counting.size ≠ 0 ∧
      exists handles : List (Pending Nat),
        ((run ⟨Wire.backend Wire.Script.server⟩ counting).outcome
            ⟨{ login := { socket := some "/nonexistent" } }, {}⟩).1 =
          some (.ok (.error (.server .other), handles)) ∧
        handles.map Pending.wait = [.error .abandoned] ∧
        ¬exists inner, forall handle, handle ∈ handles -> handle.wait = .error (.batch inner) := by
  refine ⟨by decide, [.closed], rfl, rfl, ?_⟩
  rintro ⟨inner, hrejected⟩
  cases hrejected .closed List.mem_cons_self

end Database
end TypedQuery
