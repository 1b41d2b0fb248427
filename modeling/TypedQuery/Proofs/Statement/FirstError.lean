import TypedQuery.Proofs.Statement.Chain
import TypedQuery.Proofs.Statement.Helper
import TypedQuery.Statement.Insert

/-!
# The first error wins

A builder records the error that a call meets and goes on.  Beside what a call makes of the builder
stands what it makes of it where errors are returned: such a run stops at the first call that
fails, and its error is the one that the builder reports in the end.
-/

namespace TypedQuery

/-- A builder that records errors, beside the same calls with their errors returned. -/
structure RecordingBuilder (σ κ : Type) where
  start : Result σ
  initial : σ
  attempt : σ -> κ -> Result σ
  apply : σ -> κ -> σ
  /-- No error is recorded. -/
  Ready : σ -> Prop
  /-- The error is recorded. -/
  Failed : Error -> σ -> Prop
  /-- The states differ at most in what calls may still change once an error is recorded. -/
  Keeps : σ -> σ -> Prop
  initial_of_ok : forall {s : σ}, start = .ok s -> initial = s ∧ Ready s
  initial_of_error : forall {e : Error}, start = .error e -> Failed e initial
  apply_of_ok : forall {s s' : σ} {call : κ}, Ready s -> attempt s call = .ok s' ->
    apply s call = s' ∧ Ready s'
  apply_of_error : forall {s : σ} {call : κ} {e : Error}, Ready s -> attempt s call = .error e ->
    Failed e (apply s call)
  failed_of_keeps : forall {s s' : σ} {e : Error}, Failed e s -> Keeps s s' -> Failed e s'
  keeps_refl : forall s : σ, Keeps s s
  keeps_apply : forall {s s' : σ} {e : Error}, Failed e s -> Keeps s s' -> forall call : κ,
    Keeps s (apply s' call)

namespace RecordingBuilder

variable {σ κ : Type} (r : RecordingBuilder σ κ) {s s' : σ}

def run (calls : List κ) : σ := calls.foldl r.apply r.initial

/-- What the calls come to where errors are returned. -/
def attempted (calls : List κ) : Result σ := r.start >>= fun s => calls.foldlM r.attempt s

theorem foldl_of_ok (hready : r.Ready s) {calls : List κ}
    (h : calls.foldlM r.attempt s = .ok s') : calls.foldl r.apply s = s' ∧ r.Ready s' := by
  induction calls generalizing s with
  | nil =>
      cases h
      exact ⟨rfl, hready⟩
  | cons call rest ih =>
      rw [List.foldlM_cons] at h
      rcases Result.bind_eq_ok.mp h with ⟨next, hnext, hrest⟩
      rcases r.apply_of_ok hready hnext with ⟨happly, hready'⟩
      rw [List.foldl_cons, happly]
      exact ih hready' hrest

theorem keeps_foldl {e : Error} (hfailed : r.Failed e s) (h : r.Keeps s s') (calls : List κ) :
    r.Keeps s (calls.foldl r.apply s') := by
  induction calls generalizing s' with
  | nil => exact h
  | cons call rest ih => exact ih (r.keeps_apply hfailed h call)

theorem exists_first_failure {e : Error} {calls : List κ}
    (h : calls.foldlM r.attempt s = .error e) :
    exists before call after s', calls = before ++ call :: after ∧
      before.foldlM r.attempt s = .ok s' ∧ r.attempt s' call = .error e := by
  induction calls generalizing s with
  | nil => cases h
  | cons call rest ih =>
      rw [List.foldlM_cons] at h
      cases hcall : r.attempt s call with
      | error e' =>
          rw [hcall] at h
          cases h
          exact ⟨[], call, rest, s, rfl, rfl, hcall⟩
      | ok next =>
          rw [hcall] at h
          rcases ih h with ⟨before, failing, after, s', rfl, hbefore, hfailing⟩
          refine ⟨call :: before, failing, after, s', rfl, ?_, hfailing⟩
          rw [List.foldlM_cons, hcall]
          exact hbefore

theorem run_of_ok {calls : List κ} (h : r.attempted calls = .ok s) :
    r.run calls = s ∧ r.Ready s := by
  rcases Result.bind_eq_ok.mp h with ⟨s', hstart, hcalls⟩
  rcases r.initial_of_ok hstart with ⟨hinitial, hready⟩
  rw [run, hinitial]
  exact r.foldl_of_ok hready hcalls

/-- A run that fails does so at the start, or at a first call.  The later calls keep what this one
leaves. -/
theorem run_of_error {e : Error} {calls : List κ} (h : r.attempted calls = .error e) :
    (r.start = .error e ∧ r.Failed e r.initial ∧ r.Keeps r.initial (r.run calls)) ∨
      exists before call after s, calls = before ++ call :: after ∧
        r.attempted before = .ok s ∧ r.Ready s ∧ r.attempt s call = .error e ∧
          r.run before = s ∧ r.run (before ++ [call]) = r.apply s call ∧
            r.Failed e (r.apply s call) ∧ r.Keeps (r.apply s call) (r.run calls) := by
  unfold attempted at h ⊢
  cases hstart : r.start with
  | error e' =>
      rw [hstart] at h
      cases h
      have hfailed := r.initial_of_error hstart
      exact Or.inl ⟨rfl, hfailed, r.keeps_foldl hfailed (r.keeps_refl _) calls⟩
  | ok s =>
      rw [hstart, Result.ok_bind] at h
      rcases r.initial_of_ok hstart with ⟨hinitial, hready⟩
      rcases r.exists_first_failure h with ⟨before, call, after, s', rfl, hbefore, hcall⟩
      rcases r.foldl_of_ok hready hbefore with ⟨hrun, hready'⟩
      have hfailed := r.apply_of_error hready' hcall
      refine Or.inr ⟨before, call, after, s', rfl, hbefore, hready', hcall, ?_, ?_, hfailed, ?_⟩
      · rw [run, hinitial]
        exact hrun
      · rw [run, hinitial, List.foldl_concat, hrun]
      · rw [run, hinitial, List.foldl_append, List.foldl_cons, hrun]
        exact r.keeps_foldl hfailed (r.keeps_refl _) after

theorem failed_run {e : Error} {calls : List κ} (h : r.attempted calls = .error e) :
    r.Failed e (r.run calls) := by
  rcases r.run_of_error h with
    ⟨-, hfailed, hkeeps⟩ | ⟨before, call, after, s, -, -, -, -, -, -, hfailed, hkeeps⟩
  · exact r.failed_of_keeps hfailed hkeeps
  · exact r.failed_of_keeps hfailed hkeeps

end RecordingBuilder

/-!
## Inserts

Rows are added one at a time, so that a call with several rows is a step for each of them, and those
before a row that fails have been added by then.
-/

namespace Insert

inductive Step where
  | into (names : List String)
  | row (enums : EnumRegistry) (fields : Instance)
  | valueFromSubquery (column : String) (s : Subquery)
  | valueFromSequence (column : String) (parent : Model)
  | onConflictDoNothing
  | onConflictUpdate (target assign : List String)

inductive Call where
  | step (s : Step)
  | rows (enums : EnumRegistry) (instances : List Instance)

variable {m : Model} {t : Table} {i : Insert}

def Step.apply (m : Model) (i : Insert) : Step -> Insert
  | into names => i.into names
  | row enums fields => i.row enums m fields
  | valueFromSubquery column s => i.valueFromSubquery column s
  | valueFromSequence column parent => i.valueFromSequence column parent
  | onConflictDoNothing => i.onConflictDoNothing
  | onConflictUpdate target assign => i.onConflictUpdate target assign

def Call.apply (m : Model) (i : Insert) : Call -> Insert
  | step s => s.apply m i
  | rows enums instances => i.addRows enums m instances

def Call.steps : Call -> List Step
  | step s => [s]
  | rows enums instances => instances.map (Step.row enums)

def made (m : Model) (calls : List Call) : Insert := calls.foldl (Call.apply m) (ofModel m)

theorem apply_eq_steps (m : Model) (i : Insert) (call : Call) :
    call.apply m i = call.steps.foldl (Step.apply m) i := by
  cases call with
  | step s => rfl
  | rows enums instances =>
      rw [Call.steps, List.foldl_map]
      rfl

def run (m : Model) (steps : List Step) : Insert := steps.foldl (Step.apply m) (ofModel m)

theorem made_eq_run (m : Model) (calls : List Call) :
    made m calls = run m (calls.flatMap Call.steps) := by
  rw [made, run, List.foldl_flatMap]
  congr 1
  funext i call
  exact apply_eq_steps m i call

inductive Change where
  | columns (indices : List Nat)
  | row (values : List Typed)
  | source (index : Nat) (s : InsertSource)
  | conflict (c : OnConflict)

def Change.apply (i : Insert) : Change -> Insert
  | columns indices => { i with columns := some indices }
  | row values => { i with rows := i.rows ++ [values] }
  | source index s => i.setSource index s
  | conflict c => { i with conflict := some c }

def cells (m : Model) (t : Table) (enums : EnumRegistry) (fields : Instance) :
    Result (List Typed) :=
  t.columns.zipIdx.mapM fun (column, index) => do
    return ⟨<- m.columnValue enums fields index, column.type⟩

/-- What a step on the table of the model changes, or why it fails.  The steps before it have no
say in this. -/
def Step.change (m : Model) (t : Table) : Step -> Result Change
  | into names => do
      return .columns (<- names.mapM fun name => do return (<- t.requireColumn name).1)
  | row enums fields => do
      return .row (<- cells m t enums fields)
  | valueFromSubquery column s => do
      let (index, descriptor) <- t.requireColumn column
      match s.projected with
      | none => .error (.compile .subqueryValue)
      | some projected =>
          if descriptor.type.comparable projected then return .source index (.subquery s)
          else .error (.compile (.unstorable projected descriptor.type))
  | valueFromSequence column parent => do
      let (index, _) <- t.requireColumn column
      let parent <- parent.table
      match parent.primaryKey? with
      | some _ => return .source index (.sequence parent)
      | none => .error (.mapping (.noKeySequence parent.model))
  | onConflictDoNothing => .ok (.conflict .nothing)
  | onConflictUpdate target assign => do
      let target <- target.mapM fun name => do return (<- t.requireColumn name).2.name
      let assign <- assign.mapM fun name => do return (<- t.requireColumn name).2.name
      return .conflict (.update target assign)

def Step.attempt (m : Model) (i : Insert) (s : Step) : Result Insert := do
  let t <- i.table
  return (<- s.change m t).apply i

def Call.attempt (m : Model) (i : Insert) : Call -> Result Insert
  | step s => s.attempt m i
  | rows enums instances =>
      instances.foldlM (fun i fields => (Step.row enums fields).attempt m i) i

/-- The insert that the calls make where each of them returns its error, which the model does first
if it has no table. -/
def attempted (m : Model) (calls : List Call) : Result Insert := do
  let i <- m.table.map fun t => { table := .ok t }
  calls.foldlM (Call.attempt m) i

/-- A call fails with an error after it has added rows: none, but those before the first row that
fails if there are several. -/
def Call.Fails (m : Model) (t : Table) (e : Error) : Call -> List (List Typed) -> Prop
  | step s, added => s.change m t = .error e ∧ added = []
  | rows enums instances, added =>
      exists before failing after, instances = before ++ failing :: after ∧
        before.mapM (cells m t enums) = .ok added ∧ cells m t enums failing = .error e

theorem withTable_of_error {α : Type} {e : Error} (herror : i.error = some e)
    (f : Table -> Result α) (use : Insert -> α -> Insert) : i.withTable f use = i := by
  unfold withTable
  rw [herror]

theorem withTable_eq {α : Type} (ht : i.table = .ok t) (herror : i.error = none)
    (f : Table -> Result α) (use : Insert -> α -> Insert) :
    i.withTable f use =
      match f t with
      | .ok value => use i value
      | .error e => { i with error := some e } := by
  unfold withTable
  rw [herror, ht]
  rfl

theorem row_eq (ht : i.table = .ok t) (herror : i.error = none) (enums : EnumRegistry)
    (fields : Instance) :
    i.row enums m fields =
      match cells m t enums fields with
      | .ok values => { i with rows := i.rows ++ [values] }
      | .error e => { i with error := some e } := by
  rw [Insert.row, withTable_eq ht herror, cells]
  cases t.columns.zipIdx.mapM (m := Result) _ <;> rfl

/-- A step makes its change, or its error is recorded and nothing is changed. -/
theorem Step.apply_eq (ht : i.table = .ok t) (herror : i.error = none) (s : Step) :
    s.apply m i =
      match s.change m t with
      | .ok change => change.apply i
      | .error e => { i with error := some e } := by
  cases s with
  | into names =>
      rw [apply, Insert.into, withTable_eq ht herror, change]
      cases names.mapM (m := Result) _ <;> rfl
  | row enums fields =>
      rw [apply, row_eq ht herror, change]
      cases cells m t enums fields <;> rfl
  | valueFromSubquery column s =>
      rw [apply, Insert.valueFromSubquery, withTable_eq ht herror, change]
      cases t.requireColumn column with
      | error e => rfl
      | ok found =>
          simp only [Result.ok_bind]
          cases s.projected with
          | none => rfl
          | some projected =>
              dsimp only
              cases found.2.type.comparable projected <;> rfl
  | valueFromSequence column parent =>
      rw [apply, Insert.valueFromSequence, withTable_eq ht herror, change]
      cases t.requireColumn column with
      | error e => rfl
      | ok found =>
          simp only [Result.ok_bind]
          cases parent.table with
          | error e => rfl
          | ok p =>
              simp only [Result.ok_bind]
              cases p.primaryKey? <;> rfl
  | onConflictDoNothing => rfl
  | onConflictUpdate target assign =>
      rw [apply, Insert.onConflictUpdate, withTable_eq ht herror, change]
      dsimp only
      cases target.mapM (m := Result) _ with
      | error e => rfl
      | ok target =>
          simp only [Result.ok_bind]
          cases assign.mapM (m := Result) _ <;> rfl

theorem Step.exists_conflict {e : Error} (herror : i.error = some e) (s : Step) :
    exists conflict, s.apply m i = { i with conflict } := by
  cases s with
  | onConflictDoNothing => exact ⟨some .nothing, rfl⟩
  | _ =>
      refine ⟨i.conflict, ?_⟩
      simp only [apply, Insert.into, Insert.row, Insert.valueFromSubquery,
        Insert.valueFromSequence, Insert.onConflictUpdate, withTable_of_error herror]

theorem addRows_of_error {e : Error} (herror : i.error = some e) (enums : EnumRegistry)
    (instances : List Instance) : i.addRows enums m instances = i := by
  induction instances with
  | nil => rfl
  | cons fields rest ih =>
      have hrow : i.row enums m fields = i := withTable_of_error herror _ _
      rw [addRows, List.foldl_cons, hrow]
      exact ih

theorem Call.exists_conflict {e : Error} (herror : i.error = some e) (call : Call) :
    exists conflict, call.apply m i = { i with conflict } := by
  cases call with
  | step s => exact s.exists_conflict herror
  | rows enums instances => exact ⟨i.conflict, addRows_of_error herror enums instances⟩

@[simp] theorem Change.table_apply (i : Insert) (c : Change) : (c.apply i).table = i.table := by
  cases c <;> rfl

@[simp] theorem Change.error_apply (i : Insert) (c : Change) : (c.apply i).error = i.error := by
  cases c <;> rfl

theorem Step.attempt_eq (ht : i.table = .ok t) (s : Step) :
    s.attempt m i = (s.change m t).map fun change => change.apply i := by
  rw [attempt, ht, Result.ok_bind]
  cases s.change m t <;> rfl

theorem Call.attempt_rows_cons (ht : i.table = .ok t) (enums : EnumRegistry) (fields : Instance)
    (rest : List Instance) :
    (rows enums (fields :: rest)).attempt m i = (cells m t enums fields).bind fun values =>
      (rows enums rest).attempt m { i with rows := i.rows ++ [values] } := by
  rw [attempt, List.foldlM_cons, Step.attempt_eq ht, Step.change]
  cases cells m t enums fields <;> rfl

theorem addRows_eq (ht : i.table = .ok t) (herror : i.error = none) (enums : EnumRegistry)
    (instances : List Instance) :
    match (Call.rows enums instances).attempt m i with
    | .ok i' => i.addRows enums m instances = i' ∧ exists rows, i' = { i with rows }
    | .error e => exists added, (Call.rows enums instances).Fails m t e added ∧
        i.addRows enums m instances =
          { i with rows := i.rows ++ added, error := some e } := by
  induction instances generalizing i with
  | nil => exact ⟨rfl, i.rows, rfl⟩
  | cons fields rest ih =>
      have hrow := row_eq (m := m) ht herror enums fields
      rw [Call.attempt_rows_cons ht, addRows, List.foldl_cons, hrow]
      cases hcells : cells m t enums fields with
      | error e =>
          refine ⟨[], ⟨[], fields, rest, rfl, rfl, hcells⟩, ?_⟩
          rw [List.append_nil]
          exact addRows_of_error rfl enums rest
      | ok values =>
          have hrest := ih (i := { i with rows := i.rows ++ [values] }) ht herror
          dsimp only [Except.bind]
          cases hattempt :
            (Call.rows enums rest).attempt m { i with rows := i.rows ++ [values] } with
          | ok i' =>
              rw [hattempt] at hrest
              rcases hrest with ⟨hrun, rows, rfl⟩
              exact ⟨hrun, rows, rfl⟩
          | error e =>
              rw [hattempt] at hrest
              rcases hrest with ⟨added, ⟨before, failing, after, rfl, hbefore, hfailing⟩, hrun⟩
              refine ⟨values :: added, ⟨fields :: before, failing, after, rfl, ?_, hfailing⟩, ?_⟩
              · rw [List.mapM_cons, hcells, Result.ok_bind, hbefore]
                rfl
              · rw [List.append_assoc] at hrun
                exact hrun

/-- A call makes its changes, or it fails: then the rows that it has added by then stay, its error
is recorded, and nothing else is changed. -/
theorem Call.apply_eq (ht : i.table = .ok t) (herror : i.error = none) (call : Call) :
    match call.attempt m i with
    | .ok i' => call.apply m i = i' ∧ i'.table = i.table ∧ i'.error = i.error
    | .error e => exists added, call.Fails m t e added ∧
        call.apply m i = { i with rows := i.rows ++ added, error := some e } := by
  cases call with
  | step s =>
      have happly := Step.apply_eq (m := m) ht herror s
      rw [attempt, Step.attempt_eq ht, apply, happly]
      cases hchange : s.change m t with
      | ok change => exact ⟨rfl, change.table_apply i, change.error_apply i⟩
      | error e => exact ⟨[], ⟨hchange, rfl⟩, by rw [List.append_nil]⟩
  | rows enums instances =>
      have hrows := addRows_eq (m := m) ht herror enums instances
      rw [apply]
      cases hattempt : (rows enums instances).attempt m i with
      | ok i' =>
          rw [hattempt] at hrows
          rcases hrows with ⟨hrun, more, rfl⟩
          exact ⟨hrun, rfl, rfl⟩
      | error e =>
          rw [hattempt] at hrows
          exact hrows

def recording (m : Model) : RecordingBuilder Insert Call where
  start := m.table.map fun t => { table := .ok t }
  initial := ofModel m
  attempt := Call.attempt m
  apply := Call.apply m
  Ready i := (exists t, m.table = .ok t ∧ i.table = .ok t) ∧ i.error = none
  Failed e i := i.error = some e
  Keeps i j := exists conflict, j = { i with conflict }
  initial_of_ok := by
    intro i h
    rcases Result.map_eq_ok.mp h with ⟨t, ht, rfl⟩
    rw [ofModel, ht]
    exact ⟨rfl, ⟨t, rfl, rfl⟩, rfl⟩
  initial_of_error := by
    intro e h
    rw [ofModel, Result.map_eq_error.mp h]
  apply_of_ok := by
    rintro i i' call ⟨⟨t, hm, ht⟩, herror⟩ h
    have happly := Call.apply_eq (m := m) ht herror call
    rw [h] at happly
    rcases happly with ⟨hrun, htable, herror'⟩
    exact ⟨hrun, ⟨t, hm, htable.trans ht⟩, herror'.trans herror⟩
  apply_of_error := by
    rintro i call e ⟨⟨t, -, ht⟩, herror⟩ h
    have happly := Call.apply_eq (m := m) ht herror call
    rw [h] at happly
    rcases happly with ⟨added, -, hrun⟩
    rw [hrun]
  failed_of_keeps := by
    rintro i _ e herror ⟨conflict, rfl⟩
    exact herror
  keeps_refl i := ⟨i.conflict, rfl⟩
  keeps_apply := by
    rintro i _ e herror ⟨conflict, rfl⟩ call
    exact Call.exists_conflict (i := { i with conflict }) herror call

def attemptedSteps (m : Model) (steps : List Step) : Result Insert := do
  let i <- m.table.map fun t => { table := .ok t }
  steps.foldlM (Step.attempt m) i

theorem run_eq_made (m : Model) (steps : List Step) : run m steps = made m (steps.map .step) := by
  rw [run, made, List.foldl_map]
  rfl

theorem attemptedSteps_eq (m : Model) (steps : List Step) :
    attemptedSteps m steps = attempted m (steps.map .step) := by
  rw [attemptedSteps, attempted]
  refine congrArg (Except.bind _) (funext fun i => ?_)
  rw [List.foldlM_map]
  rfl

theorem run_of_attemptedSteps {steps : List Step} (h : attemptedSteps m steps = .ok i) :
    run m steps = i ∧ i.error = none := by
  rw [attemptedSteps_eq] at h
  rcases (recording m).run_of_ok h with ⟨hrun, -, herror⟩
  exact ⟨(run_eq_made m steps).trans hrun, herror⟩

theorem error_run_eq_none_iff {steps : List Step} :
    (run m steps).error = none <-> exists i, attemptedSteps m steps = .ok i := by
  constructor
  · intro h
    cases hattempted : attemptedSteps m steps with
    | ok i => exact ⟨i, rfl⟩
    | error e =>
        rw [attemptedSteps_eq] at hattempted
        have herror : (made m (steps.map .step)).error = some e :=
          (recording m).failed_run hattempted
        rw [run_eq_made, herror] at h
        cases h
  · rintro ⟨i, h⟩
    rcases run_of_attemptedSteps h with ⟨hrun, herror⟩
    rw [hrun, herror]

theorem build_of_error {e : Error} (herror : i.error = some e) : i.build = .error e := by
  unfold build
  rw [herror]
  rfl

/-- Where a call fails, an insert is left as the first such call leaves it. -/
theorem made_of_error {calls : List Call} {e : Error} (h : attempted m calls = .error e) :
    m.table = .error e ∧ (exists conflict, made m calls = { ofModel m with conflict }) ∨
      exists before call after t i added, calls = before ++ call :: after ∧
        m.table = .ok t ∧ attempted m before = .ok i ∧ made m before = i ∧
        call.Fails m t e added ∧
        made m (before ++ [call]) = { i with rows := i.rows ++ added, error := some e } ∧
        exists conflict, made m calls =
          { i with rows := i.rows ++ added, error := some e, conflict } := by
  rcases (recording m).run_of_error h with
    ⟨hstart, -, hkeeps⟩ |
      ⟨before, call, after, i, heq, hbefore, ⟨⟨t, hm, ht⟩, herror⟩, hcall, hrun, hfailing, -,
        conflict, hkeeps⟩
  · exact Or.inl ⟨Result.map_eq_error.mp hstart, hkeeps⟩
  · have happly := Call.apply_eq (m := m) ht herror call
    have hattempt : call.attempt m i = .error e := hcall
    rw [hattempt] at happly
    rcases happly with ⟨added, hfails, happly⟩
    refine Or.inr ⟨before, call, after, t, i, added, heq, hm, hbefore, hrun, hfails,
      hfailing.trans happly, conflict, hkeeps.trans ?_⟩
    exact congrArg (fun j : Insert => { j with conflict }) happly

end Insert

/-!
## Updates
-/

namespace Update

def stored (u : Update) (name : String)
    (make : Compiler -> Column -> TypedFragment -> Result TypedFragment) : Result Update := do
  let t <- u.table
  let (index, column) <- t.requireColumn name
  return u.withPending index (<- make (u.compiler t) column (u.current index column))

def Call.attempt (u : Update) : Call -> Result Update
  | withRegistry calls => .ok (u.withRegistry calls)
  | filter predicate => .ok (u.filter predicate)
  | exclude predicate => .ok (u.exclude predicate)
  | set column value => u.stored column (Assignment.set value).make
  | setWith column value => u.stored column (Assignment.setWith value).make
  | addToList column values => u.stored column (Assignment.addToList values).make
  | addToListDistinct column values => u.stored column (Assignment.addToListDistinct values).make
  | removeFromList column value => u.stored column (Assignment.removeFromList value).make
  | removeAllFromList column values => u.stored column (Assignment.removeAllFromList values).make
  | jsonSet path value => json .set path value
  | jsonAppend path value => json .append path value
  | jsonRemoveValue path value => json .removeValue path value
where
  json (h : JsonHelper) (path value : Expr) : Result Update := do
    let (column, steps) <- u.jsonTarget path
    u.stored column (h.make value steps)

/-- The update that the calls make where each of them returns its error, which the model does first
if it has no table. -/
def attempted (m : Model) (calls : List Call) : Result Update := do
  let u <- m.table.map fun t => { table := .ok t }
  calls.foldlM Call.attempt u

variable {u : Update}

theorem modify_eq_stored (herror : u.error = none) (name : String)
    (make : Compiler -> Column -> TypedFragment -> Result TypedFragment) :
    u.modify name make =
      match u.stored name make with
      | .ok u' => u'
      | .error e => { u with error := some e } := by
  rcases u with ⟨table, assignments, filters, calls, error⟩
  change error = none at herror
  subst herror
  unfold modify stored
  cases table with
  | error e => rfl
  | ok t =>
      simp only [Result.ok_bind]
      cases t.requireColumn name with
      | error e => rfl
      | ok found =>
          simp only [Result.ok_bind, current]
          cases make _ found.2 _ <;> rfl

theorem jsonHelper_eq_stored (herror : u.error = none) (h : JsonHelper) (path value : Expr) :
    h.apply u path value =
      match Call.attempt.json u h path value with
      | .ok u' => u'
      | .error e => { u with error := some e } := by
  unfold Call.attempt.json
  cases htarget : u.jsonTarget path with
  | ok target => exact (h.apply_eq_modify herror htarget value).trans (modify_eq_stored herror _ _)
  | error e =>
      rcases h.apply_eq_modifyJson u path value with ⟨make, hmake⟩
      rw [hmake, modifyJson, herror, htarget, Result.error_bind]
      dsimp only [fail]
      rw [herror]
      rfl

theorem Call.apply_eq (herror : u.error = none) (call : Call) :
    call.apply u =
      match call.attempt u with
      | .ok u' => u'
      | .error e => { u with error := some e } := by
  have hassign : forall (a : Assignment) (column : String), a.apply u column =
      match u.stored column a.make with
      | .ok u' => u'
      | .error e => { u with error := some e } := by
    intro a column
    rw [a.apply_eq_modify]
    exact modify_eq_stored herror column a.make
  cases call with
  | withRegistry calls => rfl
  | filter predicate => rfl
  | exclude predicate => rfl
  | set column value => exact hassign (.set value) column
  | setWith column value => exact hassign (.setWith value) column
  | addToList column values => exact hassign (.addToList values) column
  | addToListDistinct column values => exact hassign (.addToListDistinct values) column
  | removeFromList column value => exact hassign (.removeFromList value) column
  | removeAllFromList column values => exact hassign (.removeAllFromList values) column
  | jsonSet path value => exact jsonHelper_eq_stored herror .set path value
  | jsonAppend path value => exact jsonHelper_eq_stored herror .append path value
  | jsonRemoveValue path value => exact jsonHelper_eq_stored herror .removeValue path value

/-- A call that gives a column a new expression leaves the record of errors as it was. -/
theorem error_stored {u' : Update} {name : String}
    {make : Compiler -> Column -> TypedFragment -> Result TypedFragment}
    (h : u.stored name make = .ok u') : u'.error = u.error := by
  rcases Result.bind_eq_ok.mp h with ⟨t, -, h⟩
  rcases Result.bind_eq_ok.mp h with ⟨found, -, h⟩
  rcases Result.bind_eq_ok.mp h with ⟨value, -, heq⟩
  cases heq
  rfl

theorem error_attempt {u' : Update} {call : Call} (h : call.attempt u = .ok u') :
    u'.error = u.error := by
  have hjson : forall {helper : JsonHelper} {path value : Expr},
      Call.attempt.json u helper path value = .ok u' -> u'.error = u.error := by
    intro helper path value h
    rcases Result.bind_eq_ok.mp h with ⟨target, -, h⟩
    exact error_stored h
  cases call with
  | withRegistry calls =>
      cases h
      rfl
  | filter predicate =>
      cases h
      rfl
  | exclude predicate =>
      cases h
      rfl
  | jsonSet path value => exact hjson h
  | jsonAppend path value => exact hjson h
  | jsonRemoveValue path value => exact hjson h
  | _ => exact error_stored h

theorem modify_of_error {e : Error} (herror : u.error = some e) (name : String)
    (make : Compiler -> Column -> TypedFragment -> Result TypedFragment) :
    u.modify name make = u := by
  unfold modify
  rw [herror]

theorem modifyJson_of_error {e : Error} (herror : u.error = some e) (path : Expr)
    (make : Compiler -> TypedFragment -> List JsonStep -> Result TypedFragment) :
    u.modifyJson path make = u := by
  unfold modifyJson
  rw [herror]

theorem Call.exists_filters {e : Error} (herror : u.error = some e) (call : Call) :
    exists filters calls, call.apply u = { u with filters, calls } := by
  cases call with
  | withRegistry calls => exact ⟨u.filters, calls, rfl⟩
  | filter predicate => exact ⟨u.filters ++ [predicate], u.calls, rfl⟩
  | exclude predicate => exact ⟨u.filters ++ [predicate.not], u.calls, rfl⟩
  | _ =>
      refine ⟨u.filters, u.calls, ?_⟩
      simp only [apply, Update.set, Update.setWith, Update.addToList, Update.addToListDistinct,
        Update.removeFromList, Update.removeAllFromList, Update.jsonSet, Update.jsonAppend,
        Update.jsonRemoveValue, modify_of_error herror, modifyJson_of_error herror]

def recording (m : Model) : RecordingBuilder Update Call where
  start := m.table.map fun t => { table := .ok t }
  initial := ofModel m
  attempt := Call.attempt
  apply := Call.apply
  Ready u := u.error = none
  Failed e u := u.error = some e
  Keeps u v := exists filters calls, v = { u with filters, calls }
  initial_of_ok := by
    intro u h
    rcases Result.map_eq_ok.mp h with ⟨t, ht, rfl⟩
    rw [ofModel, ht]
    exact ⟨rfl, rfl⟩
  initial_of_error := by
    intro e h
    rw [ofModel, Result.map_eq_error.mp h]
  apply_of_ok := by
    intro u u' call herror h
    have happly := Call.apply_eq herror call
    rw [h] at happly
    exact ⟨happly, (error_attempt h).trans herror⟩
  apply_of_error := by
    intro u call e herror h
    rw [Call.apply_eq herror call, h]
  failed_of_keeps := by
    rintro u _ e herror ⟨filters, calls, rfl⟩
    exact herror
  keeps_refl u := ⟨u.filters, u.calls, rfl⟩
  keeps_apply := by
    rintro u _ e herror ⟨filters, calls, rfl⟩ call
    exact Call.exists_filters (u := { u with filters, calls }) herror call

theorem build_of_error {e : Error} (herror : u.error = some e) : u.build = .error e := by
  unfold build
  rw [herror]
  rfl

theorem made_of_error {m : Model} {calls : List Call} {e : Error}
    (h : attempted m calls = .error e) :
    m.table = .error e ∧
        (exists filters registry, made m calls = { ofModel m with filters, calls := registry }) ∨
      exists before call after u, calls = before ++ call :: after ∧
        attempted m before = .ok u ∧ call.attempt u = .error e ∧ made m before = u ∧
        made m (before ++ [call]) = { u with error := some e } ∧
        exists filters registry, made m calls =
          { u with error := some e, filters, calls := registry } := by
  rcases (recording m).run_of_error h with
    ⟨hstart, -, hkeeps⟩ |
      ⟨before, call, after, u, heq, hbefore, herror, hcall, hrun, hfailing, -, filters, registry,
        hkeeps⟩
  · exact Or.inl ⟨Result.map_eq_error.mp hstart, hkeeps⟩
  · have happly : call.apply u = { u with error := some e } := by
      have hattempt : call.attempt u = .error e := hcall
      rw [Call.apply_eq herror call, hattempt]
    refine Or.inr ⟨before, call, after, u, heq, hbefore, hcall, hrun, hfailing.trans happly,
      filters, registry, hkeeps.trans ?_⟩
    exact congrArg (fun v : Update => { v with filters, calls := registry }) happly

end Update

/-!
## Both builders
-/

/-- Every call of a run succeeds, and the builder holds what they return and no error; or the run
has a first call that fails, whose error the builder reports when it is built.  This call records
its error and changes nothing else, but that the rows before the first that fails stay where it adds
several.  No call after it changes more than the conflict clause of an insert, or the predicates and
the registry of an update. -/
theorem first_error_wins (m : Model) (insertion : List Insert.Call) (update : List Update.Call) :
    (match Insert.attempted m insertion with
      | .ok i => Insert.made m insertion = i ∧ i.error = none
      | .error e => (Insert.made m insertion).build = .error e ∧
          (m.table = .error e ∧
              (exists conflict, Insert.made m insertion = { Insert.ofModel m with conflict }) ∨
            exists before call after t i added, insertion = before ++ call :: after ∧
              m.table = .ok t ∧ Insert.attempted m before = .ok i ∧ Insert.made m before = i ∧
              call.Fails m t e added ∧
              Insert.made m (before ++ [call]) =
                { i with rows := i.rows ++ added, error := some e } ∧
              exists conflict, Insert.made m insertion =
                { i with rows := i.rows ++ added, error := some e, conflict })) ∧
      match Update.attempted m update with
      | .ok u => Update.made m update = u ∧ u.error = none
      | .error e => (Update.made m update).build = .error e ∧
          (m.table = .error e ∧
              (exists filters calls, Update.made m update =
                { Update.ofModel m with filters, calls }) ∨
            exists before call after u, update = before ++ call :: after ∧
              Update.attempted m before = .ok u ∧ call.attempt u = .error e ∧
              Update.made m before = u ∧
              Update.made m (before ++ [call]) = { u with error := some e } ∧
              exists filters calls, Update.made m update =
                { u with error := some e, filters, calls }) := by
  constructor
  · cases hattempted : Insert.attempted m insertion with
    | ok i =>
        rcases (Insert.recording m).run_of_ok hattempted with ⟨hrun, -, herror⟩
        exact ⟨hrun, herror⟩
    | error e =>
        have hfailed := (Insert.recording m).failed_run hattempted
        exact ⟨Insert.build_of_error hfailed, Insert.made_of_error hattempted⟩
  · cases hattempted : Update.attempted m update with
    | ok u => exact (Update.recording m).run_of_ok hattempted
    | error e =>
        have hfailed := (Update.recording m).failed_run hattempted
        exact ⟨Update.build_of_error hfailed, Update.made_of_error hattempted⟩

def tally : Model where
  name := "Tally"
  table := .ok {
    model := "Tally"
    name := "tally"
    schema := none
    columns := [{ field := "hits", name := "hits", type := .bigint }] }
  hosts := [.host (.base .nat64)]

def hits (n : UInt64) : Instance := [⟨.host (.base .nat64), n⟩]

def tallies : List Insert.Call :=
  [.rows {} [hits 1, hits 9223372036854775808], .step (.into ["misses"])]

def recounts : List Update.Call :=
  [.set "hits" (.constant ⟨.bigint 1, .bigint⟩), .set "misses" (.constant ⟨.bigint 1, .bigint⟩),
    .jsonSet (.col "hits") (.constant ⟨.null, .null⟩)]

theorem tallies_report_first_error :
    (Insert.made tally tallies).build = .error (.conversion (.unmapped "u64")) ∧
      (Update.made tally recounts).build =
        .error (.mapping (.noColumn "Tally" "misses")) := by
  have hinsertion : Insert.attempted tally tallies = .error (.conversion (.unmapped "u64")) := rfl
  have hupdate : Update.attempted tally recounts =
      .error (.mapping (.noColumn "Tally" "misses")) := rfl
  have hwins := first_error_wins tally tallies recounts
  rw [hinsertion, hupdate] at hwins
  exact ⟨hwins.1.1, hwins.2.1⟩

/-- A model that has a column twice, and so no table. -/
def misfit : Model where
  name := "Tally"
  table := ({} : Registry).complete (.ok {
    model := "Tally"
    name := "tally"
    schema := none
    columns := [{ field := "hits", name := "hits", type := .bigint },
      { field := "hits", name := "hits", type := .bigint }] })
  hosts := [.host (.base .nat64), .host (.base .nat64)]

/-- A call that fails has added a row by then; and an error is recorded before any call if the model
has no table. -/
theorem failing_rows_added :
    ((Insert.made tally []).rows = [] ∧
      (Insert.made tally [.rows {} [hits 1, hits 9223372036854775808]]).error =
        some (.conversion (.unmapped "u64")) ∧
      (Insert.made tally [.rows {} [hits 1, hits 9223372036854775808]]).rows =
        [[⟨.bigint 1, .bigint⟩]]) ∧
      (Insert.made misfit []).error = some (.mapping (.columnTwice "Tally" "hits")) :=
  ⟨⟨rfl, rfl, rfl⟩, rfl⟩

end TypedQuery
