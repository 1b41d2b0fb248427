import TypedQuery.Proofs.Session.Delivery

/-!
# Single statements

A statement that runs alone runs as a batch of one.  Both ways send one command, the same one, and
what either of them comes to tells what the other does: a value or a decoding error is what the
handle holds, and any other fault comes without the wrapping that the batch gives it.
-/

namespace TypedQuery

variable {σ α : Type}

/-!
## Commands that are sent
-/

namespace Transport

/-- The transport, with the commands that it was given kept beside its state. -/
def logged (t : Transport σ) : Transport (List Command × σ) where
  run command := do
    modify fun whole => (whole.1 ++ [command], whole.2)
    SessionM.focus Prod.snd (fun state whole => (whole.1, state)) (t.run command)

theorem outcome_logged (t : Transport σ) (command : Command) (log : List Command) (state : σ) :
    (t.logged.run command).outcome (log, state) =
      (((t.run command).outcome state).1,
        (log ++ [command], ((t.run command).outcome state).2)) := by
  unfold logged
  dsimp only
  rw [SessionM.outcome_bind]
  rfl

end Transport

/-!
## Answers to a lone command
-/

def Statement.Undecoded (s : Statement α) (answer : Option (Outcome ResultCursor))
    (fault : Fault) : Prop :=
  exists result e, answer = some (.ok ⟨[result]⟩) ∧ s.decode result = .error e ∧ fault = .query e

/-- The transport failed, or did not give exactly one result set. -/
def Refused (answer : Option (Outcome ResultCursor)) (fault : Fault) : Prop :=
  answer = some (.error fault) ∨
    exists cursor, answer = some (.ok cursor) ∧ cursor.results.length ≠ 1 ∧
      fault = .missingResult 1 cursor.results.length

theorem Refused.ne_single {answer : Option (Outcome ResultCursor)} {fault : Fault}
    (h : Refused answer fault) (result : ResultSet) : answer ≠ some (.ok ⟨[result]⟩) := by
  rintro rfl
  rcases h with heq | ⟨_, heq, hlength, -⟩
  · cases heq
  · cases heq
    exact hlength rfl

theorem Refused.not_undecoded {answer : Option (Outcome ResultCursor)} {fault fault' : Fault}
    (h : Refused answer fault) (s : Statement α) : ¬s.Undecoded answer fault' := by
  rintro ⟨result, _, heq, -⟩
  exact h.ne_single result heq

theorem Refused.fault_eq {answer : Option (Outcome ResultCursor)} {fault fault' : Fault}
    (h : Refused answer fault) (h' : Refused answer fault') : fault' = fault := by
  rcases h with rfl | ⟨cursor, rfl, -, rfl⟩
  · rcases h' with heq | ⟨_, heq, -⟩
    · cases heq
      rfl
    · cases heq
  · rcases h' with heq | ⟨_, heq, -, rfl⟩
    · cases heq
    · cases heq
      rfl

theorem single_or_refused (answer : Outcome ResultCursor) :
    (exists result, answer = .ok ⟨[result]⟩) ∨ exists fault, Refused (some answer) fault := by
  cases answer with
  | error fault => exact Or.inr ⟨fault, Or.inl rfl⟩
  | ok cursor =>
      rcases cursor with ⟨results⟩
      match results with
      | [result] => exact Or.inl ⟨result, rfl⟩
      | [] => exact Or.inr ⟨_, Or.inr ⟨_, rfl, Nat.zero_ne_one, rfl⟩⟩
      | _ :: _ :: rest =>
          refine Or.inr ⟨_, Or.inr ⟨_, rfl, ?_, rfl⟩⟩
          exact fun hlength => Nat.succ_ne_zero rest.length (Nat.succ.inj hlength)

/-!
## The statement alone
-/

section

variable {t : Transport σ} {s : Statement α} {state after : σ}

theorem outcome_execute_of_silence
    (h : (t.run (.single s.query)).outcome state = (none, after)) :
    (t.execute s).outcome state = (none, after) := by
  rw [Transport.execute, SessionM.outcome_bind, h]

theorem outcome_execute_of_single {result : ResultSet}
    (h : (t.run (.single s.query)).outcome state = (some (.ok ⟨[result]⟩), after)) :
    (t.execute s).outcome state = (some (s.outcome result), after) := by
  rw [Transport.execute, SessionM.outcome_bind, h]
  rfl

theorem outcome_execute_of_refused {answer : Outcome ResultCursor} {fault : Fault}
    (hrefused : Refused (some answer) fault)
    (h : (t.run (.single s.query)).outcome state = (some answer, after)) :
    (t.execute s).outcome state = (some (.error fault), after) := by
  rw [Transport.execute, SessionM.outcome_bind, h]
  rcases hrefused with heq | ⟨cursor, heq, hlength, rfl⟩
  · cases heq
    rfl
  · cases heq
    have hensure : cursor.ensureLength 1 = .error (.missingResult 1 cursor.remaining) :=
      if_neg hlength
    dsimp only
    rw [hensure]
    rfl

end

/-!
## The statement as a batch
-/

namespace Batch

def only (s : Statement α) : Batch α := push {} s

theorem outcome_runOn_only {t : Transport σ} {s : Statement α} {state after : σ}
    {answer : Option (Outcome ResultCursor)}
    (h : (t.run (.single s.query)).outcome state = (answer, after)) :
    ((only s).runOn t).outcome state =
      (answer.map fun answer => .ok ((only s).deliver answer), after) := by
  have hfilled : (only s).size ≠ 0 := Nat.one_ne_zero
  have hcommand : (only s).command = .single s.query := rfl
  rw [outcome_runOn hfilled, hcommand, h]

theorem deliver_single (s : Statement α) (result : ResultSet) :
    (only s).deliver (.ok ⟨[result]⟩) = (.ok (), [.ready (s.outcome result)]) := rfl

theorem deliver_refused {answer : Outcome ResultCursor} {fault : Fault}
    (h : Refused (some answer) fault) (s : Statement α) :
    (only s).deliver answer = (.error (.batch fault), [.ready (.error (.batch fault))]) := by
  have hrefusal : (only s).refusal? answer = some fault := by
    rcases h with heq | ⟨cursor, heq, hlength, rfl⟩
    · cases heq
      rfl
    · cases heq
      exact if_neg hlength
  rw [deliver_eq, foldl_resolve_sends, outcomes_of_refusal hrefusal, verdict, hrefusal]
  rfl

end Batch

/-!
## Both ways
-/

/-- What a statement comes to alone and as a batch of one, for each kind of answer. -/
inductive Correspond (s : Statement α) :
    Option (Outcome ResultCursor) -> Option (Outcome α) ->
      Option (Outcome (Outcome Unit × List (Pending α))) -> Prop where
  | silence : Correspond s none none none
  | value {result : ResultSet} {v : α} (h : s.decode result = .ok v) :
      Correspond s (some (.ok ⟨[result]⟩)) (some (.ok v)) (some (.ok (.ok (), [.ready (.ok v)])))
  | undecoded {result : ResultSet} {e : Error} (h : s.decode result = .error e) :
      Correspond s (some (.ok ⟨[result]⟩)) (some (.error (.query e)))
        (some (.ok (.ok (), [.ready (.error (.query e))])))
  | refused {answer : Outcome ResultCursor} {fault : Fault} (h : Refused (some answer) fault) :
      Correspond s (some answer) (some (.error fault))
        (some (.ok (.error (.batch fault), [.ready (.error (.batch fault))])))

theorem exists_correspond (s : Statement α) (t : Transport σ) (state : σ) :
    exists answer alone batched after,
      (t.run (.single s.query)).outcome state = (answer, after) ∧
        (t.execute s).outcome state = (alone, after) ∧
        ((Batch.only s).runOn t).outcome state = (batched, after) ∧
        Correspond s answer alone batched := by
  rcases h : (t.run (.single s.query)).outcome state with ⟨_ | answer, after⟩
  · exact ⟨none, none, none, after, rfl, outcome_execute_of_silence h,
      Batch.outcome_runOn_only h, .silence⟩
  · have hbatched := Batch.outcome_runOn_only h
    rw [Option.map_some] at hbatched
    rcases single_or_refused answer with ⟨result, rfl⟩ | ⟨fault, hrefused⟩
    · have halone := outcome_execute_of_single h
      rw [Batch.deliver_single] at hbatched
      unfold Statement.outcome at halone hbatched
      cases hdecode : s.decode result with
      | ok v =>
          rw [hdecode] at halone hbatched
          exact ⟨_, _, _, after, rfl, halone, hbatched, .value hdecode⟩
      | error e =>
          rw [hdecode] at halone hbatched
          exact ⟨_, _, _, after, rfl, halone, hbatched, .undecoded hdecode⟩
    · have halone := outcome_execute_of_refused hrefused h
      rw [Batch.deliver_refused hrefused] at hbatched
      exact ⟨_, _, _, after, rfl, halone, hbatched, .refused hrefused⟩

namespace Correspond

variable {s : Statement α} {answer : Option (Outcome ResultCursor)} {alone : Option (Outcome α)}
  {batched : Option (Outcome (Outcome Unit × List (Pending α)))}

theorem none_iff (h : Correspond s answer alone batched) : alone = none <-> batched = none := by
  cases h <;> simp

theorem value_iff (h : Correspond s answer alone batched) (v : α) :
    alone = some (.ok v) <-> batched = some (.ok (.ok (), [.ready (.ok v)])) := by
  cases h <;> simp

theorem undecoded_iff (h : Correspond s answer alone batched) (fault : Fault) :
    alone = some (.error fault) ∧ s.Undecoded answer fault <->
      batched = some (.ok (.ok (), [.ready (.error fault)])) := by
  cases h with
  | silence => simp
  | value h => simp
  | @undecoded result e h =>
      constructor
      · rintro ⟨heq, -⟩
        cases heq
        rfl
      · intro heq
        cases heq
        exact ⟨rfl, result, e, rfl, h, rfl⟩
  | refused h => simp [h.not_undecoded s]

theorem other_iff (h : Correspond s answer alone batched) (fault : Fault) :
    alone = some (.error fault) ∧ ¬s.Undecoded answer fault <->
      batched = some (.ok (.error (.batch fault), [.ready (.error (.batch fault))])) := by
  cases h with
  | silence => simp
  | value h => simp
  | @undecoded result e h =>
      refine iff_of_false ?_ (by simp)
      rintro ⟨heq, hnot⟩
      cases heq
      exact hnot ⟨result, e, rfl, h, rfl⟩
  | refused h =>
      constructor
      · rintro ⟨heq, -⟩
        cases heq
        rfl
      · intro heq
        cases heq
        exact ⟨rfl, h.not_undecoded s⟩

theorem refused_iff (h : Correspond s answer alone batched) (fault : Fault) :
    alone = some (.error fault) ∧ ¬s.Undecoded answer fault <-> Refused answer fault := by
  cases h with
  | silence => simp [Refused]
  | value h => simp [Refused]
  | @undecoded result e h =>
      refine iff_of_false ?_ fun hrefused => hrefused.ne_single result rfl
      rintro ⟨heq, hnot⟩
      cases heq
      exact hnot ⟨result, e, rfl, h, rfl⟩
  | refused h =>
      constructor
      · rintro ⟨heq, -⟩
        cases heq
        exact h
      · intro hrefused
        rw [h.fault_eq hrefused]
        exact ⟨rfl, h.not_undecoded s⟩

end Correspond

/-- Alone and as a batch of one, a statement sends the same command and nothing else, and leaves the
transport in the same state.  Alone it comes to a value exactly when the run succeeds and the handle
holds the value; to a decoding error exactly when the run succeeds and the handle holds the error;
to any other fault, which is one of the transport or a wrong number of result sets, exactly when run
and handle both report it as that of the batch; and to nothing exactly when the run does not end. -/
theorem single_statement_as_batch (s : Statement α) (t : Transport σ) (state : σ) :
    let answer := ((t.run (.single s.query)).outcome state).1
    let alone := (t.execute s).outcome state
    let batched := ((Batch.push {} s).runOn t).outcome state
    (forall log,
      ((t.logged.execute s).outcome (log, state)).2.1 = log ++ [.single s.query] ∧
        (((Batch.push {} s).runOn t.logged).outcome (log, state)).2.1 =
          log ++ [.single s.query]) ∧
    alone.2 = batched.2 ∧
    (alone.1 = none <-> batched.1 = none) ∧
    (forall v, alone.1 = some (.ok v) <-> batched.1 = some (.ok (.ok (), [.ready (.ok v)]))) ∧
    (forall fault, alone.1 = some (.error fault) ∧ s.Undecoded answer fault <->
      batched.1 = some (.ok (.ok (), [.ready (.error fault)]))) ∧
    (forall fault, alone.1 = some (.error fault) ∧ ¬s.Undecoded answer fault <->
      batched.1 = some (.ok (.error (.batch fault), [.ready (.error (.batch fault))]))) ∧
    (forall fault, alone.1 = some (.error fault) ∧ ¬s.Undecoded answer fault <->
      Refused answer fault) := by
  intro answer alone batched
  rcases exists_correspond s t state with ⟨a, o, r, after, ha, ho, hr, hcorrespond⟩
  have hanswer : answer = a := congrArg Prod.fst ha
  have halone : alone = (o, after) := ho
  have hbatched : batched = (r, after) := hr
  rw [hanswer, halone, hbatched]
  refine ⟨?_, rfl, hcorrespond.none_iff, hcorrespond.value_iff, hcorrespond.undecoded_iff,
    hcorrespond.other_iff, hcorrespond.refused_iff⟩
  intro log
  rcases exists_correspond s t.logged (log, state) with
    ⟨_, _, _, ⟨sent, last⟩, hlogged, hexecute, hrun, -⟩
  rw [Transport.outcome_logged, Prod.mk.injEq, Prod.mk.injEq] at hlogged
  have hsent : log ++ [.single s.query] = sent := hlogged.2.1
  rw [show Batch.push {} s = Batch.only s from rfl, hexecute, hrun, hsent]
  exact ⟨rfl, rfl⟩

end TypedQuery
