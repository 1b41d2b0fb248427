import TypedQuery.Proofs.Session.Rejection

/-!
# Abandoned handles

Statements are pushed to a batch, its handles are asked at any time, and it is run or dropped.  A
handle answers that its batch is gone where the batch was dropped before it ran, but also where the
batch ran and the outcome was taken by an earlier question: a handle that is asked cannot tell the
two apart.  One that is awaited can, as nothing may be awaited after an answer.
-/

namespace TypedQuery
namespace Batch

variable {σ α : Type}

/-!
## The life of a batch
-/

inductive Event (σ α : Type) where
  | push (s : Statement α)
  /-- The handle at a position is asked whether it has an outcome. -/
  | ask (position : Nat)
  | run (t : Transport σ) (state : σ)
  /-- The batch is given up, or its run is while no answer has come yet. -/
  | drop

inductive Stage (α : Type) where
  | filling (b : Batch α)
  /-- The run waits for its answer. -/
  | running
  | ran
  /-- The batch was dropped without being run. -/
  | dropped
  /-- The run was given up before it was over. -/
  | interrupted

/-- A batch with the handles it gave out and what these answered, each with its position. -/
structure Life (α : Type) where
  stage : Stage α := .filling {}
  handles : List (Handle α) := []
  answers : List (Nat × Option (Outcome α)) := []

namespace Life

def ask (l : Life α) (position : Nat) : Life α :=
  match l.handles[position]? with
  | none => l
  | some handle =>
      { l with
        handles := l.handles.set position handle.tryTake.2
        answers := l.answers ++ [(position, handle.tryTake.1)] }

def next (l : Life α) : Event σ α -> Life α
  | .push s =>
      match l.stage with
      | .filling b =>
          { l with stage := .filling (b.push s), handles := l.handles ++ [.pending .waiting] }
      | _ => l
  | .ask position => l.ask position
  | .run t state =>
      match l.stage with
      | .filling b =>
          -- All handles wait until now, so that they become the ones that the run gives back.
          match ((b.runOn t).outcome state).1 with
          | some (.ok (_, handles)) => { l with stage := .ran, handles := handles.map .pending }
          | _ => { l with stage := .running }
      | _ => l
  | .drop =>
      match l.stage with
      | .filling _ => { l with stage := .dropped, handles := l.handles.map .settled }
      | .running => { l with stage := .interrupted, handles := l.handles.map .settled }
      | _ => l

def ofEvents (events : List (Event σ α)) : Life α := events.foldl next {}

/-- The handle at a position has given an answer other than that there is none yet. -/
def Answered (l : Life α) (position : Nat) : Prop :=
  exists outcome, (position, some outcome) ∈ l.answers

end Life

/-!
## Outcomes that a run sends
-/

/-- What a statement makes of its result set is never that the batch is gone. -/
theorem outcome_ne_abandoned (s : Statement α) (result : ResultSet) :
    s.outcome result ≠ .error .abandoned := by
  unfold Statement.outcome
  cases s.decode result <;> simp

theorem sends_ne_abandoned (b : Batch α) (answer : Outcome ResultCursor) {outcome : Outcome α}
    (h : outcome ∈ (b.sends answer).map (·.outcome)) : outcome ≠ .error .abandoned := by
  cases hrefusal : b.refusal? answer with
  | none =>
      rcases refusal?_eq_none hrefusal with ⟨cursor, rfl, hlength⟩
      rw [outcomes_of_complete hlength] at h
      rw [<- List.map_uncurry_zip_eq_zipWith] at h
      rcases List.mem_map.mp h with ⟨⟨s, result⟩, -, rfl⟩
      exact outcome_ne_abandoned s result
  | some fault =>
      rw [outcomes_of_refusal hrefusal] at h
      rw [List.eq_of_mem_replicate h]
      simp

theorem handles_of_runOn {b : Batch α} {t : Transport σ} {state : σ} {result : Outcome Unit}
    {handles : List (Pending α)}
    (h : ((b.runOn t).outcome state).1 = some (.ok (result, handles))) :
    handles.length = b.size ∧ forall handle, handle ∈ handles ->
      exists outcome, handle = .ready outcome ∧ outcome ≠ .error .abandoned := by
  by_cases hsize : b.size = 0
  · rw [outcome_runOn_empty hsize] at h
    cases h
    exact ⟨hsize.symm, fun handle hhandle => nomatch hhandle⟩
  · rw [outcome_runOn hsize] at h
    rcases Option.map_eq_some_iff.mp h with ⟨answer, -, hdelivered⟩
    have hdeliver : b.deliver answer = (result, handles) := Except.ok.inj hdelivered
    rw [deliver_eq, foldl_resolve_sends] at hdeliver
    have hhandles : ((b.sends answer).map (·.outcome)).map .ready = handles :=
      congrArg Prod.snd hdeliver
    rw [<- hhandles]
    refine ⟨by rw [List.length_map, List.length_map, length_sends], ?_⟩
    intro handle hhandle
    rcases List.mem_map.mp hhandle with ⟨outcome, houtcome, rfl⟩
    exact ⟨outcome, rfl, b.sends_ne_abandoned answer houtcome⟩

/-!
## Handles at every stage
-/

def Stage.Admits (answered : Prop) : Stage α -> Handle α -> Prop
  | .filling _, handle | .running, handle => handle = .pending .waiting ∧ ¬answered
  | .ran, handle =>
      (exists outcome, handle = .pending (.ready outcome) ∧ outcome ≠ .error .abandoned ∧
        ¬answered) ∨
        handle = .spent ∧ answered
  | .dropped, handle | .interrupted, handle =>
      handle = .pending .closed ∧ ¬answered ∨ handle = .spent ∧ answered

namespace Stage

variable {stage : Stage α} {answered : Prop} {handle : Handle α}

theorem Admits.tryTake (h : stage.Admits answered handle) :
    stage.Admits (answered ∨ handle.tryTake.1 ≠ none) handle.tryTake.2 := by
  cases stage with
  | filling b =>
      rcases h with ⟨rfl, hnot⟩
      exact ⟨rfl, by simpa [Handle.tryTake, Pending.tryTake] using hnot⟩
  | running =>
      rcases h with ⟨rfl, hnot⟩
      exact ⟨rfl, by simpa [Handle.tryTake, Pending.tryTake] using hnot⟩
  | ran =>
      rcases h with ⟨outcome, rfl, -, -⟩ | ⟨rfl, -⟩
      · exact Or.inr ⟨rfl, Or.inr (Option.some_ne_none _)⟩
      · exact Or.inr ⟨rfl, Or.inr (Option.some_ne_none _)⟩
  | dropped | interrupted =>
      rcases h with ⟨rfl, -⟩ | ⟨rfl, -⟩
      · exact Or.inr ⟨rfl, Or.inr (Option.some_ne_none _)⟩
      · exact Or.inr ⟨rfl, Or.inr (Option.some_ne_none _)⟩

theorem Admits.congr {answered' : Prop} (h : stage.Admits answered handle)
    (hiff : answered' <-> answered) : stage.Admits answered' handle := by
  rwa [propext hiff]

theorem Admits.abandoned_iff (h : stage.Admits answered handle) :
    handle.tryTake.1 = some (.error .abandoned) <->
      stage = .dropped ∨ stage = .interrupted ∨ stage = .ran ∧ answered := by
  cases stage with
  | filling b =>
      rcases h with ⟨rfl, -⟩
      simp [Handle.tryTake, Pending.tryTake]
  | running =>
      rcases h with ⟨rfl, -⟩
      simp [Handle.tryTake, Pending.tryTake]
  | ran =>
      rcases h with ⟨outcome, rfl, hne, hnot⟩ | ⟨rfl, hanswered⟩
      · simp [Handle.tryTake, Pending.tryTake, hne, hnot]
      · simp [Handle.tryTake, hanswered]
  | dropped | interrupted =>
      rcases h with ⟨rfl, -⟩ | ⟨rfl, -⟩ <;> simp [Handle.tryTake, Pending.tryTake]

/-- Whether the batch is gone, so that its handles can be awaited. -/
def IsOver : Stage α -> Prop
  | .filling _ | .running => False
  | .ran | .dropped | .interrupted => True

theorem Admits.wait_iff (h : stage.Admits answered handle) (hover : stage.IsOver) :
    (handle.wait? = some (.error .abandoned) <->
      (stage = .dropped ∨ stage = .interrupted) ∧ ¬answered) ∧
    (handle.wait? = none <-> answered) := by
  cases stage with
  | filling b => exact hover.elim
  | running => exact hover.elim
  | ran =>
      rcases h with ⟨outcome, rfl, hne, hnot⟩ | ⟨rfl, hanswered⟩
      · simp [Handle.wait?, Pending.wait, Pending.settled, Pending.tryTake, hne, hnot]
      · simp [Handle.wait?, hanswered]
  | dropped | interrupted =>
      rcases h with ⟨rfl, hnot⟩ | ⟨rfl, hanswered⟩
      · simp [Handle.wait?, Pending.wait, Pending.settled, Pending.tryTake, hnot]
      · simp [Handle.wait?, hanswered]

end Stage

namespace Life

/-- While a batch is filled it has the handles that it gave out, and at every stage each handle is
one that the stage admits. -/
structure Sound (l : Life α) : Prop where
  handles_eq : forall b, l.stage = .filling b -> l.handles = b.handles.map .pending
  unanswered : forall position, l.handles.length ≤ position -> ¬l.Answered position
  admits : forall position handle, l.handles[position]? = some handle ->
    l.stage.Admits (l.Answered position) handle

theorem answered_ask {l : Life α} {position : Nat} {handle : Handle α}
    (h : l.handles[position]? = some handle) (other : Nat) :
    (l.ask position).Answered other <->
      l.Answered other ∨ other = position ∧ handle.tryTake.1 ≠ none := by
  unfold Life.ask Answered
  rw [h]
  dsimp only
  constructor
  · rintro ⟨outcome, houtcome⟩
    rcases List.mem_append.mp houtcome with hbefore | hnow
    · exact Or.inl ⟨outcome, hbefore⟩
    · injection List.mem_singleton.mp hnow with hother hsome
      exact Or.inr ⟨hother, hsome ▸ Option.some_ne_none outcome⟩
  · rintro (⟨outcome, hbefore⟩ | ⟨rfl, hsome⟩)
    · exact ⟨outcome, List.mem_append_left _ hbefore⟩
    · rcases Option.ne_none_iff_exists.mp hsome with ⟨outcome, houtcome⟩
      exact ⟨outcome, List.mem_append_right _ (houtcome ▸ List.mem_singleton_self _)⟩

theorem Sound.ask {l : Life α} (h : l.Sound) (position : Nat) : (l.ask position).Sound := by
  cases hhandle : l.handles[position]? with
  | none =>
      have hsame : l.ask position = l := by
        rw [Life.ask, hhandle]
      rwa [hsame]
  | some handle =>
      rcases List.getElem?_eq_some_iff.mp hhandle with ⟨hlt, hget⟩
      have hstage : (l.ask position).stage = l.stage := by
        rw [Life.ask, hhandle]
      have hhandles : (l.ask position).handles = l.handles.set position handle.tryTake.2 := by
        rw [Life.ask, hhandle]
      have hadmits := h.admits position handle hhandle
      have hanswered := answered_ask hhandle
      constructor
      · intro b hb
        rw [hstage] at hb
        rw [hb] at hadmits
        rcases hadmits with ⟨rfl, -⟩
        have hset : l.handles.set position (.pending .waiting) = l.handles :=
          hget ▸ List.set_getElem_self hlt
        exact hhandles.trans (hset.trans (h.handles_eq b hb))
      · intro other hother
        rw [hhandles, List.length_set] at hother
        rw [hanswered]
        rintro (hbefore | ⟨rfl, -⟩)
        · exact h.unanswered other hother hbefore
        · exact absurd hlt (Nat.not_lt.mpr hother)
      · intro other handle' hhandle'
        rw [hhandles] at hhandle'
        rw [hstage]
        by_cases hother : position = other
        · subst hother
          rw [List.getElem?_set_self hlt] at hhandle'
          cases hhandle'
          exact hadmits.tryTake.congr (by simp [hanswered])
        · rw [List.getElem?_set_ne hother] at hhandle'
          exact (h.admits other handle' hhandle').congr (by simp [hanswered, Ne.symm hother])

theorem Sound.push {l : Life α} (h : l.Sound) {b : Batch α} (hstage : l.stage = .filling b)
    (s : Statement α) :
    Sound { l with stage := .filling (b.push s), handles := l.handles ++ [.pending .waiting] } := by
  constructor
  · rintro _ ⟨⟩
    rw [h.handles_eq b hstage]
    simp [Batch.handles, Batch.push]
  · intro position hposition
    rw [List.length_append] at hposition
    exact h.unanswered position (Nat.le_of_add_right_le hposition)
  · intro position handle hhandle
    by_cases hposition : position < l.handles.length
    · rw [List.getElem?_append_left hposition] at hhandle
      have hadmits := h.admits position handle hhandle
      rw [hstage] at hadmits
      exact hadmits
    · have hle : l.handles.length ≤ position := Nat.not_lt.mp hposition
      rw [List.getElem?_append_right hle] at hhandle
      have hwaiting := List.mem_singleton.mp (List.mem_of_getElem? hhandle)
      exact ⟨hwaiting, h.unanswered position hle⟩

/-- No handle has answered before the run of its batch is over. -/
theorem Sound.not_answered {l : Life α} (h : l.Sound) (hopen : ¬l.stage.IsOver)
    (position : Nat) : ¬l.Answered position := by
  by_cases hposition : position < l.handles.length
  · have hadmits := h.admits position _ (List.getElem?_eq_getElem hposition)
    cases hstage : l.stage with
    | filling b =>
        rw [hstage] at hadmits
        exact hadmits.2
    | running =>
        rw [hstage] at hadmits
        exact hadmits.2
    | _ =>
        rw [hstage] at hopen
        exact absurd trivial hopen
  · exact h.unanswered position (Nat.not_lt.mp hposition)

theorem Sound.run {l : Life α} (h : l.Sound) {b : Batch α} (hstage : l.stage = .filling b)
    {t : Transport σ} {state : σ} {result : Outcome Unit} {handles : List (Pending α)}
    (hrun : ((b.runOn t).outcome state).1 = some (.ok (result, handles))) :
    Sound { l with stage := .ran, handles := handles.map .pending } := by
  have hopen : ¬l.stage.IsOver := hstage ▸ id
  rcases handles_of_runOn hrun with ⟨-, hready⟩
  constructor
  · rintro _ ⟨⟩
  · exact fun position _ => h.not_answered hopen position
  · intro position handle hhandle
    rcases List.mem_map.mp (List.mem_of_getElem? hhandle) with ⟨held, hheld, rfl⟩
    rcases hready held hheld with ⟨outcome, rfl, hne⟩
    exact Or.inl ⟨outcome, rfl, hne, h.not_answered hopen position⟩

theorem Sound.runs {l : Life α} (h : l.Sound) {b : Batch α} (hstage : l.stage = .filling b) :
    Sound { l with stage := .running } := by
  constructor
  · rintro _ ⟨⟩
  · exact h.unanswered
  · intro position handle hhandle
    have hadmits := h.admits position handle hhandle
    rw [hstage] at hadmits
    exact hadmits

theorem settled_of_admits {stage : Stage α} {answered : Prop} {handle : Handle α}
    (h : stage.Admits answered handle) (hopen : ¬stage.IsOver) :
    handle.settled = .pending .closed := by
  cases stage with
  | filling b =>
      rcases h with ⟨rfl, -⟩
      rfl
  | running =>
      rcases h with ⟨rfl, -⟩
      rfl
  | _ => exact absurd trivial hopen

theorem Sound.drop {l : Life α} (h : l.Sound) (hopen : ¬l.stage.IsOver) {stage : Stage α}
    (hstage : stage = .dropped ∨ stage = .interrupted) :
    Sound { l with stage, handles := l.handles.map .settled } := by
  constructor
  · rintro b hb
    rcases hstage with rfl | rfl <;> cases hb
  · exact fun position _ => h.not_answered hopen position
  · intro position handle hhandle
    rw [List.getElem?_map] at hhandle
    rcases Option.map_eq_some_iff.mp hhandle with ⟨before, hbefore, rfl⟩
    have hclosed := settled_of_admits (h.admits position before hbefore) hopen
    have hnot := h.not_answered hopen position
    rcases hstage with rfl | rfl
    · exact Or.inl ⟨hclosed, hnot⟩
    · exact Or.inl ⟨hclosed, hnot⟩

theorem Sound.next {l : Life α} (h : l.Sound) (e : Event σ α) : (l.next e).Sound := by
  cases e with
  | push s =>
      unfold Life.next
      dsimp only
      split
      · rename_i b hstage
        exact h.push hstage s
      · exact h
  | ask position => exact h.ask position
  | run t state =>
      unfold Life.next
      dsimp only
      split
      · rename_i b hstage
        split
        · rename_i hrun
          exact h.run hstage hrun
        · exact h.runs hstage
      · exact h
  | drop =>
      unfold Life.next
      dsimp only
      split
      · rename_i b hstage
        exact h.drop (hstage ▸ id) (Or.inl rfl)
      · rename_i hstage
        exact h.drop (hstage ▸ id) (Or.inr rfl)
      · exact h

theorem sound_ofEvents (events : List (Event σ α)) : (ofEvents events).Sound := by
  have hrun : forall (events : List (Event σ α)) (l : Life α), l.Sound ->
      (events.foldl Life.next l).Sound := by
    intro events
    induction events with
    | nil => exact fun _ h => h
    | cons e rest ih => exact fun l h => ih (l.next e) (h.next e)
  refine hrun events {} ⟨?_, ?_, ?_⟩
  · rintro _ ⟨⟩
    rfl
  · rintro _ - ⟨_, hmem⟩
    cases hmem
  · intro position handle hhandle
    cases hhandle

/-- However a batch is filled, asked, run and dropped: a handle that is asked answers that its batch
is gone exactly when the batch was dropped without being run, when its run was given up before it
was over, or when it ran and the handle has answered before.  Awaited once the batch is gone, it
says so exactly when the batch was dropped or its run given up; a handle that has answered cannot be
awaited. -/
theorem abandoned_answer_iff (events : List (Event σ α)) {position : Nat} {handle : Handle α}
    (hhandle : (ofEvents events).handles[position]? = some handle) :
    let l := ofEvents events
    (handle.tryTake.1 = some (.error .abandoned) <->
      l.stage = .dropped ∨ l.stage = .interrupted ∨ l.stage = .ran ∧ l.Answered position) ∧
    (l.stage.IsOver ->
      (handle.wait? = some (.error .abandoned) <->
        (l.stage = .dropped ∨ l.stage = .interrupted) ∧ ¬l.Answered position) ∧
      (handle.wait? = none <-> l.Answered position)) := by
  intro l
  have hadmits := (sound_ofEvents events).admits position handle hhandle
  exact ⟨hadmits.abandoned_iff, hadmits.wait_iff⟩

def askedTwice : List (Event Recorder Nat) :=
  [.push ⟨Fragment.empty.text "SELECT 1", fun result => .ok result.rows.length⟩,
    .run { run := Recorder.run } (({} : Recorder).queue (.results [⟨[[]], 0⟩])),
    .ask 0,
    .ask 0]

theorem askedTwice_abandoned :
    exists handle, (ofEvents askedTwice).handles[0]? = some handle ∧
      handle.tryTake.1 = some (.error .abandoned) := by
  have hhandle : (ofEvents askedTwice).handles[0]? = some .spent := rfl
  refine ⟨.spent, hhandle, ((abandoned_answer_iff askedTwice hhandle).1).mpr ?_⟩
  exact Or.inr (Or.inr ⟨rfl, .ok 1, List.mem_cons_self⟩)

/-- The batch ran and was never dropped, and yet the second question is answered with its being
gone. -/
theorem askedTwice_answers :
    (ofEvents askedTwice).stage = .ran ∧
      (ofEvents askedTwice).answers = [(0, some (.ok 1)), (0, some (.error .abandoned))] :=
  ⟨rfl, rfl⟩

end Life
end Batch
end TypedQuery
