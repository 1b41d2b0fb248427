import Mathlib.Data.List.Induction
import TypedQuery.Proofs.Schema.Index

/-!
# Registries that calls share

Calls on one registry run side by side, and the default schema may change at any time.  A call
looks its model up; if that finds nothing it locks the registry, looks again, has the model
described, and stores the table before it unlocks the registry.  However the parts of the calls
interleave, a model is described once, and every call for it gets the one table that was stored.
-/

namespace TypedQuery
namespace Registry

/-!
## Calls side by side
-/

inductive Stage where
  | called
  /-- The first look found nothing. -/
  | missed
  /-- The call has locked the registry and holds a valid table that is not stored yet. -/
  | describing (t : Table)
  | answered (answer : Result Table)

structure Call where
  model : String
  stage : Stage := .called

def Call.locks (c : Call) : Bool :=
  match c.stage with
  | .describing _ => true
  | _ => false

inductive Event where
  | setDefaultSchema (schema : String)
  | call (model : String)
  /-- The call at a position looks its model up. -/
  | look (position : Nat)
  /-- A call that found nothing locks the registry, looks again, and has its model described. -/
  | describe (position : Nat) (description : Result Table)
  /-- The call that has locked the registry stores its table and unlocks the registry. -/
  | store (position : Nat)

def Event.schema? : Event -> Option String
  | .setDefaultSchema schema => some schema
  | _ => none

/-- A registry with the calls that were made on it, and the models whose descriptions succeeded,
one entry for each success. -/
structure Sharing where
  registry : Registry := {}
  calls : List Call := []
  described : List String := []

namespace Sharing

def isLocked (s : Sharing) : Bool := s.calls.any (·.locks)

def put (s : Sharing) (position : Nat) (c : Call) : Sharing :=
  { s with calls := s.calls.set position c }

/-- What an event makes of the registry and its calls.  A call whose turn it is not, or that waits
for another one to unlock the registry, stays where it is. -/
def next (s : Sharing) : Event -> Sharing
  | .setDefaultSchema schema => { s with registry := s.registry.setDefaultSchema schema }
  | .call model => { s with calls := s.calls ++ [{ model }] }
  | .look position =>
      match s.calls[position]?, s.isLocked with
      | some ⟨model, .called⟩, false =>
          match s.registry.lookup? model with
          | some t => s.put position ⟨model, .answered (.ok t)⟩
          | none => s.put position ⟨model, .missed⟩
      | _, _ => s
  | .describe position description =>
      match s.calls[position]?, s.isLocked with
      | some ⟨model, .missed⟩, false =>
          match s.registry.lookup? model with
          | some t => s.put position ⟨model, .answered (.ok t)⟩
          | none =>
              match validated description with
              | .ok t => s.put position ⟨model, .describing t⟩
              | .error e => s.put position ⟨model, .answered (.error e)⟩
      | _, _ => s
  | .store position =>
      match s.calls[position]? with
      | some ⟨model, .describing t⟩ =>
          let t := s.registry.qualified t
          { registry := s.registry.store model t
            calls := s.calls.set position ⟨model, .answered (.ok t)⟩
            described := s.described ++ [model] }
      | _ => s

def run (s : Sharing) (events : List Event) : Sharing := events.foldl next s

def ofEvents (events : List Event) : Sharing := run {} events

def Answers (s : Sharing) (position : Nat) (model : String) (answer : Result Table) : Prop :=
  s.calls[position]? = some ⟨model, .answered answer⟩

/-- All that one event can do. -/
inductive Step (s : Sharing) : Event -> Sharing -> Prop where
  | idle {e : Event} (he : e.schema? = none) : Step s e s
  | setDefaultSchema (schema : String) :
      Step s (.setDefaultSchema schema)
        { s with registry := s.registry.setDefaultSchema schema }
  | call (model : String) : Step s (.call model) { s with calls := s.calls ++ [{ model }] }
  | found {position : Nat} {model : String} {t : Table}
      (hcall : s.calls[position]? = some ⟨model, .called⟩)
      (hlookup : s.registry.lookup? model = some t) :
      Step s (.look position) (s.put position ⟨model, .answered (.ok t)⟩)
  | missed {position : Nat} {model : String}
      (hcall : s.calls[position]? = some ⟨model, .called⟩) :
      Step s (.look position) (s.put position ⟨model, .missed⟩)
  | foundAgain {position : Nat} {model : String} {t : Table} (description : Result Table)
      (hcall : s.calls[position]? = some ⟨model, .missed⟩)
      (hlookup : s.registry.lookup? model = some t) :
      Step s (.describe position description) (s.put position ⟨model, .answered (.ok t)⟩)
  | described {position : Nat} {model : String} {t : Table} {description : Result Table}
      (hcall : s.calls[position]? = some ⟨model, .missed⟩)
      (hunlocked : s.isLocked = false) (hlookup : s.registry.lookup? model = none)
      (hvalidated : validated description = .ok t) :
      Step s (.describe position description) (s.put position ⟨model, .describing t⟩)
  | failed {position : Nat} {model : String} {description : Result Table} {e : Error}
      (hcall : s.calls[position]? = some ⟨model, .missed⟩)
      (hlookup : s.registry.lookup? model = none)
      (hvalidated : validated description = .error e) :
      Step s (.describe position description) (s.put position ⟨model, .answered (.error e)⟩)
  | stored {position : Nat} {model : String} {t : Table}
      (hcall : s.calls[position]? = some ⟨model, .describing t⟩) :
      Step s (.store position)
        { registry := s.registry.store model (s.registry.qualified t)
          calls := s.calls.set position ⟨model, .answered (.ok (s.registry.qualified t))⟩
          described := s.described ++ [model] }

theorem step_next (s : Sharing) (e : Event) : Step s e (s.next e) := by
  cases e with
  | setDefaultSchema schema => exact .setDefaultSchema schema
  | call model => exact .call model
  | look position =>
      unfold next
      dsimp only
      split
      · rename_i model hcall hunlocked
        split
        · rename_i t hlookup
          exact .found hcall hlookup
        · exact .missed hcall
      · exact .idle rfl
  | describe position description =>
      unfold next
      dsimp only
      split
      · rename_i model hcall hunlocked
        split
        · rename_i t hlookup
          exact .foundAgain description hcall hlookup
        · rename_i hlookup
          split
          · rename_i t hvalidated
            exact .described hcall hunlocked hlookup hvalidated
          · rename_i e hvalidated
            exact .failed hcall hlookup hvalidated
      · exact .idle rfl
  | store position =>
      unfold next
      dsimp only
      split
      · rename_i model t hcall
        exact .stored hcall
      · exact .idle rfl

/-!
## What every event keeps
-/

/-- A call was answered with the table that is stored for its model, and a model is described only
while none is. -/
def Fits (r : Registry) (c : Call) : Prop :=
  match c.stage with
  | .answered (.ok t) => r.lookup? c.model = some t
  | .describing t => t.validate = .ok () ∧ r.lookup? c.model = none
  | _ => True

structure Sound (s : Sharing) : Prop where
  inStep : s.registry.InStep s.described
  fits : forall (position : Nat) (c : Call), s.calls[position]? = some c -> Fits s.registry c
  /-- One call at most has locked the registry. -/
  alone : forall (i j : Nat) (c d : Call), s.calls[i]? = some c -> s.calls[j]? = some d ->
    c.locks = true -> d.locks = true -> i = j
  returned : forall model, model ∈ s.described ->
    exists position t, s.Answers position model (.ok t)

section

variable {s s' : Sharing} {e : Event} {position : Nat} {model : String}

theorem locks_eq_false {c : Call} (hunlocked : s.isLocked = false)
    (hc : s.calls[position]? = some c) : c.locks = false := by
  have hnone := List.any_eq_false.mp hunlocked c (List.mem_of_getElem? hc)
  simpa using hnone

theorem calls_put {before : Call} (h : s.calls[position]? = some before) (c : Call) (i : Nat) :
    (s.put position c).calls[i]? = if i = position then some c else s.calls[i]? := by
  have hlt := (List.getElem?_eq_some_iff.mp h).1
  by_cases hi : i = position
  · rw [if_pos hi, hi]
    exact List.getElem?_set_self hlt
  · rw [if_neg hi]
    exact List.getElem?_set_ne (Ne.symm hi)

theorem put_answers {before : Call} (h : s.calls[position]? = some before)
    (answer : Result Table) :
    (s.put position ⟨model, .answered answer⟩).Answers position model answer := by
  rw [Answers, calls_put h, if_pos rfl]

/-- An answer stays, because only calls without one are moved on. -/
theorem Answers.put {i : Nat} {other : String} {answer : Result Table} {before : Call}
    (h : s.Answers i other answer) (hcall : s.calls[position]? = some before)
    (hopen : forall a, before.stage ≠ .answered a) (c : Call) :
    (s.put position c).Answers i other answer := by
  have hi : i ≠ position := by
    rintro rfl
    rw [h] at hcall
    cases hcall
    exact hopen answer rfl
  unfold Answers
  rw [calls_put hcall, if_neg hi]
  exact h

theorem Sound.put (h : s.Sound) {before : Call} (hcall : s.calls[position]? = some before)
    (hopen : forall a, before.stage ≠ .answered a) {c : Call} (hfits : Fits s.registry c)
    (hlocks : c.locks = true -> s.isLocked = false) : (s.put position c).Sound := by
  constructor
  · exact h.inStep
  · intro i d hd
    rw [calls_put hcall] at hd
    split at hd
    · cases hd
      exact hfits
    · exact h.fits i d hd
  · intro i j d e hd he hdlocks helocks
    rw [calls_put hcall] at hd he
    split at hd <;> split at he
    · rename_i hi hj
      rw [hi, hj]
    · cases hd
      rw [locks_eq_false (hlocks hdlocks) he] at helocks
      cases helocks
    · cases he
      rw [locks_eq_false (hlocks helocks) hd] at hdlocks
      cases hdlocks
    · exact h.alone i j d e hd he hdlocks helocks
  · intro model hmodel
    rcases h.returned model hmodel with ⟨i, t, hi⟩
    exact ⟨i, t, hi.put hcall hopen c⟩

theorem Sound.setDefaultSchema (h : s.Sound) (schema : String) :
    Sound { s with registry := s.registry.setDefaultSchema schema } :=
  ⟨⟨h.inStep.index_eq, h.inStep.length_eq, h.inStep.nodup⟩, h.fits, h.alone, h.returned⟩

theorem Sound.call (h : s.Sound) (model : String) :
    Sound { s with calls := s.calls ++ [{ model }] } := by
  have hbefore : forall (i : Nat) (c : Call), (s.calls ++ [⟨model, .called⟩])[i]? = some c ->
      s.calls[i]? = some c ∨ c = ⟨model, .called⟩ := by
    intro i c hc
    by_cases hi : i < s.calls.length
    · exact Or.inl (List.getElem?_append_left hi ▸ hc)
    · rw [List.getElem?_append_right (Nat.not_lt.mp hi)] at hc
      exact Or.inr (List.mem_singleton.mp (List.mem_of_getElem? hc))
  constructor
  · exact h.inStep
  · intro i c hc
    rcases hbefore i c hc with hc | rfl
    · exact h.fits i c hc
    · trivial
  · intro i j c d hc hd hclocks hdlocks
    rcases hbefore i c hc with hc | rfl
    · rcases hbefore j d hd with hd | rfl
      · exact h.alone i j c d hc hd hclocks hdlocks
      · cases hdlocks
    · cases hclocks
  · intro other hother
    rcases h.returned other hother with ⟨i, t, hi⟩
    have hlt := (List.getElem?_eq_some_iff.mp hi).1
    exact ⟨i, t, (List.getElem?_append_left hlt).trans hi⟩

theorem Sound.notMem_described (h : s.Sound) {t : Table}
    (hcall : s.calls[position]? = some ⟨model, .describing t⟩) : model ∉ s.described :=
  h.inStep.lookup?_eq_none_iff.mp (h.fits position _ hcall).2

theorem Sound.store (h : s.Sound) {described : Table}
    (hcall : s.calls[position]? = some ⟨model, .describing described⟩) (t : Table) :
    Sound {
      registry := s.registry.store model t
      calls := s.calls.set position ⟨model, .answered (.ok t)⟩
      described := s.described ++ [model] } := by
  have hlookup := (h.fits position _ hcall).2
  have hother : forall (i : Nat) (c : Call), i ≠ position -> s.calls[i]? = some c ->
      c.locks = false := by
    intro i c hi hc
    cases hlocks : c.locks with
    | false => rfl
    | true => exact absurd (h.alone i position c _ hc hcall hlocks rfl) hi
  have hset : forall i : Nat, (s.calls.set position ⟨model, .answered (.ok t)⟩)[i]? =
      if i = position then some ⟨model, .answered (.ok t)⟩ else s.calls[i]? :=
    calls_put hcall ⟨model, .answered (.ok t)⟩
  constructor
  · exact h.inStep.store (h.notMem_described hcall) t
  · intro i c hc
    dsimp only at hc
    rw [hset] at hc
    split at hc
    · cases hc
      exact lookup?_store_self s.registry model t
    · rename_i hi
      have hfits := h.fits i c hc
      have hlocks := hother i c hi hc
      unfold Fits at hfits ⊢
      split
      · rename_i found hstage
        rw [hstage] at hfits
        have hne : c.model ≠ model := by
          intro heq
          rw [heq, hlookup] at hfits
          cases hfits
        exact (h.inStep.lookup?_store hne t).trans hfits
      · rename_i found hstage
        rw [Call.locks, hstage] at hlocks
        cases hlocks
      · trivial
  · intro i j c d hc hd hclocks hdlocks
    dsimp only at hc
    rw [hset] at hc
    split at hc
    · cases hc
      cases hclocks
    · rename_i hi
      rw [hother i c hi hc] at hclocks
      cases hclocks
  · intro other hmem
    rcases List.mem_append.mp hmem with hmem | hmem
    · rcases h.returned other hmem with ⟨i, found, hi⟩
      exact ⟨i, found, hi.put hcall (fun _ => Stage.noConfusion) _⟩
    · rw [List.mem_singleton.mp hmem]
      exact ⟨position, t, by rw [Answers, hset, if_pos rfl]⟩

theorem Sound.step (h : s.Sound) (hstep : Step s e s') : s'.Sound := by
  cases hstep with
  | idle => exact h
  | setDefaultSchema schema => exact h.setDefaultSchema schema
  | call model => exact h.call model
  | found hcall hlookup =>
      exact h.put hcall (fun _ => Stage.noConfusion) hlookup fun hlocks => nomatch hlocks
  | missed hcall =>
      exact h.put hcall (fun _ => Stage.noConfusion) trivial fun hlocks => nomatch hlocks
  | foundAgain _ hcall hlookup =>
      exact h.put hcall (fun _ => Stage.noConfusion) hlookup fun hlocks => nomatch hlocks
  | described hcall hunlocked hlookup hvalidated =>
      have hvalid := validate_of_validated hvalidated
      exact h.put hcall (fun _ => Stage.noConfusion) ⟨hvalid, hlookup⟩ fun _ => hunlocked
  | failed hcall _ _ =>
      exact h.put hcall (fun _ => Stage.noConfusion) trivial fun hlocks => nomatch hlocks
  | stored hcall => exact h.store hcall _

/-!
## One event after a model has its table
-/

theorem Answers.step {i : Nat} {answer : Result Table} (h : s.Answers i model answer)
    (hstep : Step s e s') : s'.Answers i model answer := by
  cases hstep with
  | idle => exact h
  | setDefaultSchema schema => exact h
  | call other =>
      have hlt := (List.getElem?_eq_some_iff.mp h).1
      exact (List.getElem?_append_left hlt).trans h
  | found hcall _ => exact h.put hcall (fun _ => Stage.noConfusion) _
  | missed hcall => exact h.put hcall (fun _ => Stage.noConfusion) _
  | foundAgain _ hcall _ => exact h.put hcall (fun _ => Stage.noConfusion) _
  | described hcall _ _ _ => exact h.put hcall (fun _ => Stage.noConfusion) _
  | failed hcall _ _ => exact h.put hcall (fun _ => Stage.noConfusion) _
  | stored hcall => exact h.put hcall (fun _ => Stage.noConfusion) _

theorem Sound.lookup?_step (h : s.Sound) (hstep : Step s e s') {t : Table}
    (hlookup : s.registry.lookup? model = some t) : s'.registry.lookup? model = some t := by
  cases hstep with
  | stored hcall =>
      rename_i position other described
      have hne : model ≠ other := by
        rintro rfl
        have hnone := (h.fits position _ hcall).2
        rw [hlookup] at hnone
        cases hnone
      exact (h.inStep.lookup?_store hne _).trans hlookup
  | _ => exact hlookup

theorem eq_of_answers_put {i : Nat} {answer : Result Table} {before c : Call}
    (hcall : s.calls[position]? = some before) (hnot : ¬s.Answers i model answer)
    (h : (s.put position c).Answers i model answer) : c = ⟨model, .answered answer⟩ := by
  unfold Answers at h
  rw [calls_put hcall] at h
  split at h
  · exact Option.some.inj h
  · exact absurd h hnot

/-- An answer that is given once the model has a table is this table. -/
theorem Sound.answer_step (h : s.Sound) (hstep : Step s e s') {t : Table}
    (hlookup : s.registry.lookup? model = some t) {i : Nat} {answer : Result Table}
    (hnot : ¬s.Answers i model answer) (hanswer : s'.Answers i model answer) :
    answer = .ok t := by
  cases hstep with
  | idle => exact absurd hanswer hnot
  | setDefaultSchema schema => exact absurd hanswer hnot
  | call other =>
      by_cases hi : i < s.calls.length
      · exact absurd ((List.getElem?_append_left hi).symm.trans hanswer) hnot
      · have hlast := (List.getElem?_append_right (Nat.not_lt.mp hi)).symm.trans hanswer
        cases List.mem_singleton.mp (List.mem_of_getElem? hlast)
  | found hcall hfound =>
      cases eq_of_answers_put hcall hnot hanswer
      exact congrArg Except.ok (Option.some.inj (hfound.symm.trans hlookup))
  | missed hcall => cases eq_of_answers_put hcall hnot hanswer
  | foundAgain _ hcall hfound =>
      cases eq_of_answers_put hcall hnot hanswer
      exact congrArg Except.ok (Option.some.inj (hfound.symm.trans hlookup))
  | described hcall _ _ _ => cases eq_of_answers_put hcall hnot hanswer
  | failed hcall hnone _ =>
      cases eq_of_answers_put hcall hnot hanswer
      cases hnone.symm.trans hlookup
  | stored hcall =>
      cases eq_of_answers_put hcall hnot hanswer
      cases (h.fits _ _ hcall).2.symm.trans hlookup

/-- The table of a model was there before the event, or the event stored it. -/
theorem Sound.lookup?_cases (h : s.Sound) (hstep : Step s e s') {t : Table}
    (hlookup : s'.registry.lookup? model = some t) :
    s.registry.lookup? model = some t ∨
      exists position described, e = .store position ∧
        s.calls[position]? = some ⟨model, .describing described⟩ ∧
        t = s.registry.qualified described := by
  cases hstep with
  | stored hcall =>
      rename_i position other described
      by_cases hne : model = other
      · subst hne
        rw [lookup?_store_self] at hlookup
        exact Or.inr ⟨position, described, rfl, hcall, (Option.some.inj hlookup).symm⟩
      · exact Or.inl ((h.inStep.lookup?_store hne _).symm.trans hlookup)
  | _ => exact Or.inl hlookup

end

/-!
## Runs
-/

section

variable {s : Sharing} {model : String}

theorem Sound.run (h : s.Sound) (events : List Event) : (s.run events).Sound := by
  induction events generalizing s with
  | nil => exact h
  | cons e rest ih => exact ih (h.step (s.step_next e))

theorem sound_ofEvents (events : List Event) : (ofEvents events).Sound := by
  have hempty : Sound {} := by
    refine ⟨inStep_empty, ?_, ?_, ?_⟩
    · intro position c hc
      cases hc
    · intro i j c d hc
      cases hc
    · intro model hmodel
      cases hmodel
  exact hempty.run events

theorem ofEvents_append (before after : List Event) :
    ofEvents (before ++ after) = (ofEvents before).run after :=
  List.foldl_append

theorem Answers.run {i : Nat} {answer : Result Table} (h : s.Answers i model answer)
    (events : List Event) : (s.run events).Answers i model answer := by
  induction events generalizing s with
  | nil => exact h
  | cons e rest ih => exact ih (h.step (s.step_next e))

theorem Sound.answer_run (h : s.Sound) {t : Table} (hlookup : s.registry.lookup? model = some t)
    {i : Nat} {answer : Result Table} (hnot : forall other, ¬s.Answers i model other)
    (events : List Event) (hanswer : (s.run events).Answers i model answer) :
    answer = .ok t := by
  induction events generalizing s with
  | nil => exact absurd hanswer (hnot answer)
  | cons e rest ih =>
      have hstep := s.step_next e
      by_cases hnow : exists other, (s.next e).Answers i model other
      · rcases hnow with ⟨other, hother⟩
        have hsame := (hother.run rest).symm.trans hanswer
        cases hsame
        exact h.answer_step hstep hlookup (hnot answer) hother
      · exact ih (h.step hstep) (h.lookup?_step hstep hlookup)
          (fun other hother => hnow ⟨other, hother⟩) hanswer

theorem exists_store (events : List Event) {t : Table}
    (h : (ofEvents events).registry.lookup? model = some t) :
    exists before position after described, events = before ++ .store position :: after ∧
      (ofEvents before).calls[position]? = some ⟨model, .describing described⟩ ∧
      t = (ofEvents before).registry.qualified described := by
  induction events using List.reverseRecOn with
  | nil => cases h
  | append_singleton events e ih =>
      have hstep := (ofEvents events).step_next e
      rw [ofEvents_append] at h
      rcases (sound_ofEvents events).lookup?_cases hstep h with
        hbefore | ⟨position, described, rfl, hcall, ht⟩
      · rcases ih hbefore with ⟨before, position, after, described, rfl, hcall, ht⟩
        exact ⟨before, position, after ++ [e], described, by simp, hcall, ht⟩
      · exact ⟨events, position, [], described, rfl, hcall, ht⟩

end

/-!
## The default schema
-/

def schemaAfter (events : List Event) : String :=
  (events.reverse.findSome? Event.schema?).getD publicSchema

theorem defaultSchema_of_step {s s' : Sharing} {e : Event} (hstep : Step s e s') :
    s'.registry.defaultSchema = e.schema?.getD s.registry.defaultSchema := by
  cases hstep with
  | idle he => rw [he, Option.getD_none]
  | _ => rfl

theorem defaultSchema_ofEvents (events : List Event) :
    (ofEvents events).registry.defaultSchema = schemaAfter events := by
  induction events using List.reverseRecOn with
  | nil => rfl
  | append_singleton events e ih =>
      have hstep := defaultSchema_of_step ((ofEvents events).step_next e)
      rw [ofEvents_append, schemaAfter, List.reverse_append, List.reverse_singleton,
        List.singleton_append, List.findSome?_cons]
      cases hschema : e.schema? with
      | none =>
          rw [hschema, Option.getD_none, ih] at hstep
          exact hstep
      | some schema =>
          rw [hschema] at hstep
          exact hstep

/-!
## A call with no other call in between
-/

/-- The state after a new call that goes through all its parts. -/
def callAlone (s : Sharing) (model : String) (description : Result Table) : Sharing :=
  s.run [.call model, .look s.calls.length, .describe s.calls.length description,
    .store s.calls.length]

section

variable {s : Sharing} {model : String}

def added (s : Sharing) (c : Call) : Sharing := { s with calls := s.calls ++ [c] }

theorem getElem?_added (s : Sharing) (c : Call) : (s.added c).calls[s.calls.length]? = some c := by
  simp [added]

theorem put_added (s : Sharing) (c d : Call) : (s.added c).put s.calls.length d = s.added d := by
  simp [added, put]

theorem isLocked_added (hunlocked : s.isLocked = false) (c : Call) :
    (s.added c).isLocked = c.locks := by
  unfold isLocked at hunlocked ⊢
  simp [added, hunlocked]

theorem next_look_added (hunlocked : s.isLocked = false) (model : String) :
    (s.added ⟨model, .called⟩).next (.look s.calls.length) =
      match s.registry.lookup? model with
      | some t => s.added ⟨model, .answered (.ok t)⟩
      | none => s.added ⟨model, .missed⟩ := by
  simp only [next, getElem?_added, isLocked_added hunlocked, Call.locks, put_added]
  rfl

theorem next_describe_added (hunlocked : s.isLocked = false)
    (hlookup : s.registry.lookup? model = none) (description : Result Table) :
    (s.added ⟨model, .missed⟩).next (.describe s.calls.length description) =
      match validated description with
      | .ok t => s.added ⟨model, .describing t⟩
      | .error e => s.added ⟨model, .answered (.error e)⟩ := by
  have hnone : (s.added ⟨model, .missed⟩).registry.lookup? model = none := hlookup
  simp only [next, getElem?_added, isLocked_added hunlocked, Call.locks, put_added, hnone]

theorem next_answered_added (answer : Result Table) (e : Event)
    (he : (exists description, e = .describe s.calls.length description) ∨
      e = .store s.calls.length) :
    (s.added ⟨model, .answered answer⟩).next e = s.added ⟨model, .answered answer⟩ := by
  rcases he with ⟨description, rfl⟩ | rfl <;> simp only [next, getElem?_added]

theorem callAlone_eq (hunlocked : s.isLocked = false) (model : String)
    (description : Result Table) :
    (s.callAlone model description).Answers s.calls.length model
        (s.registry.table model description).1 ∧
      (s.callAlone model description).registry = (s.registry.table model description).2 := by
  have hrun : s.callAlone model description =
      (((s.added ⟨model, .called⟩).next (.look s.calls.length)).next
        (.describe s.calls.length description)).next (.store s.calls.length) := rfl
  rw [hrun, next_look_added hunlocked, table]
  cases hlookup : s.registry.lookup? model with
  | some t =>
      dsimp only
      rw [next_answered_added _ _ (Or.inl ⟨description, rfl⟩), next_answered_added _ _ (Or.inr rfl)]
      exact ⟨s.getElem?_added _, rfl⟩
  | none =>
      dsimp only
      rw [next_describe_added hunlocked hlookup, Registry.describe, hlookup, complete]
      cases hvalidated : validated description with
      | error e =>
          dsimp only
          rw [next_answered_added _ _ (Or.inr rfl)]
          exact ⟨s.getElem?_added _, rfl⟩
      | ok t =>
          dsimp only
          simp only [next, getElem?_added]
          exact ⟨put_answers (s.getElem?_added ⟨model, .describing t⟩)
            (.ok (s.registry.qualified t)), rfl⟩

end

/-!
## Models are described once
-/

/-- For every order of events: the stored tables are as many as the models that were described
successfully, each of them once, and these are the models that calls have returned.  A call that
answers after another one has returned a table for its model answers with that table.  A returned
table is the description that was stored first, with its own schema or with the default one of that
moment.  A description that fails stores nothing, and a later call describes the model anew. -/
theorem models_described_once (events : List Event) :
    let s := ofEvents events
    (s.described.Nodup ∧ s.registry.size = s.described.length ∧
      forall model, model ∈ s.described <-> exists position t, s.Answers position model (.ok t)) ∧
    (forall before after, events = before ++ after -> forall i j model t answer,
      (ofEvents before).Answers i model (.ok t) ->
      (forall other, ¬(ofEvents before).Answers j model other) -> s.Answers j model answer ->
      answer = .ok t) ∧
    (forall position model t, s.Answers position model (.ok t) ->
      exists before i after described, events = before ++ .store i :: after ∧
        (ofEvents before).calls[i]? = some ⟨model, .describing described⟩ ∧
        model ∉ (ofEvents before).described ∧ described.validate = .ok () ∧
        t = { described with schema := some (described.schema.getD (schemaAfter before)) }) ∧
    (forall position model description e, s.calls[position]? = some ⟨model, .missed⟩ ->
      s.isLocked = false -> model ∉ s.described -> validated description = .error e ->
      (s.next (.describe position description)).Answers position model (.error e) ∧
        (s.next (.describe position description)).registry = s.registry ∧
        (s.next (.describe position description)).described = s.described) ∧
    (s.isLocked = false -> forall model description,
      (s.callAlone model description).Answers s.calls.length model
          (s.registry.table model description).1 ∧
        (s.callAlone model description).registry = (s.registry.table model description).2 ∧
        (model ∉ s.described ->
          (s.registry.table model description).1 = s.registry.complete description)) := by
  intro s
  have hs : s.Sound := sound_ofEvents events
  refine ⟨⟨hs.inStep.nodup, hs.inStep.length_eq.symm, ?_⟩, ?_, ?_, ?_, ?_⟩
  · intro model
    constructor
    · exact hs.returned model
    · rintro ⟨position, t, hanswer⟩
      by_contra hmodel
      have hlookup := hs.fits position _ hanswer
      cases (hs.inStep.lookup?_eq_none_iff.mpr hmodel).symm.trans hlookup
  · rintro before after rfl i j model t answer hreturned hnot hanswer
    have hlookup := (sound_ofEvents before).fits i _ hreturned
    have hrun : s = (ofEvents before).run after := ofEvents_append before after
    rw [hrun] at hanswer
    exact (sound_ofEvents before).answer_run hlookup hnot after hanswer
  · intro position model t hanswer
    rcases exists_store events (hs.fits position _ hanswer) with
      ⟨before, i, after, described, hevents, hcall, ht⟩
    have hbefore := sound_ofEvents before
    rw [qualified, defaultSchema_ofEvents] at ht
    exact ⟨before, i, after, described, hevents, hcall, hbefore.notMem_described hcall,
      (hbefore.fits i _ hcall).1, ht⟩
  · intro position model description e hcall hunlocked hmodel hvalidated
    have hlookup := hs.inStep.lookup?_eq_none_iff.mpr hmodel
    have hnext : s.next (.describe position description) =
        s.put position ⟨model, .answered (.error e)⟩ := by
      simp only [next, hcall, hunlocked, hlookup, hvalidated]
    rw [hnext]
    exact ⟨put_answers hcall _, rfl, rfl⟩
  · intro hunlocked model description
    rcases callAlone_eq hunlocked model description with ⟨hanswer, hregistry⟩
    refine ⟨hanswer, hregistry, fun hmodel => ?_⟩
    have hlookup := hs.inStep.lookup?_eq_none_iff.mpr hmodel
    rw [table, hlookup]
    dsimp only
    rw [Registry.describe, hlookup]
    cases s.registry.complete description <;> rfl

def tag : Table := ⟨"Tag", "tag", none, [{ field := "id", name := "id", type := .integer }]⟩

/-- Two calls find nothing; the second one gets what the first one has stored meanwhile. -/
example :
    (ofEvents [.call "Tag", .call "Tag", .look 0, .look 1, .setDefaultSchema "tenant",
      .describe 0 (.ok tag), .describe 1 (.ok tag), .store 0, .setDefaultSchema "guest",
      .describe 1 (.ok tag)]).calls[1]? =
        some ⟨"Tag", .answered (.ok { tag with schema := some "tenant" })⟩ := rfl

end Sharing
end Registry
end TypedQuery
