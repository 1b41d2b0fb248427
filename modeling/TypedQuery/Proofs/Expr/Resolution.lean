import Mathlib.Data.List.DropRight
import TypedQuery.Expr.Compile
import TypedQuery.Proofs.Fragment.Written
import TypedQuery.Proofs.Result
import TypedQuery.Proofs.Schema.Lookup

/-!
# What a path resolves to

A path is a route through the scope: it begins at a slot, names a column of the slot's table, and
trails on through documents and pseudo-properties.  Exactly the routes are resolved, and what a
path resolves to records where its route began and which way it took.
-/

namespace TypedQuery

/-!
## Steps into documents
-/

/-- A step into a document, which yields a document or a text. -/
structure Arrow where
  step : JsonStep
  asText : Bool

def JsonStep.value : JsonStep -> Typed
  | .key k => ⟨.text k, .text⟩
  | .index n => ⟨.int n, .integer⟩

namespace Arrow

def symbol (a : Arrow) : String := if a.asText then "->>" else "->"

def type (a : Arrow) : SqlType := if a.asText then .text else .json none

def pieces (a : Arrow) : List Piece :=
  [.sql a.symbol, Placed.piece ⟨{}, .value a.step.value⟩]

end Arrow

def TypedFragment.follow (f : TypedFragment) (a : Arrow) : TypedFragment :=
  ⟨((Fragment.empty.nested f.query).text a.symbol).value a.step.value, a.type⟩

namespace PathStep

def arrow? : PathStep -> Option Arrow
  | key k asText => some ⟨.key k, asText⟩
  | index n asText => some ⟨.index n, asText⟩
  | _ => none

def isDerived : PathStep -> Bool
  | derived _ => true
  | _ => false

def arrows (steps : List PathStep) : List Arrow := steps.filterMap arrow?

def Direct (steps : List PathStep) : Prop :=
  forall step, step ∈ steps -> step.isDerived = false

def sinceDerived (steps : List PathStep) : List PathStep :=
  steps.rtakeWhile fun step => !step.isDerived

theorem arrows_concat (steps : List PathStep) (step : PathStep) :
    arrows (steps ++ [step]) = arrows steps ++ step.arrow?.toList := by
  unfold arrows
  rw [List.filterMap_append]
  cases h : step.arrow? <;> simp [h]

theorem sinceDerived_concat (steps : List PathStep) (step : PathStep) :
    sinceDerived (steps ++ [step]) =
      if step.isDerived then [] else sinceDerived steps ++ [step] := by
  unfold sinceDerived
  rw [List.rtakeWhile_concat]
  cases step.isDerived <;> rfl

theorem direct_concat {steps : List PathStep} {step : PathStep} :
    Direct (steps ++ [step]) <-> Direct steps ∧ step.isDerived = false := by
  simp [Direct, or_imp, forall_and]

theorem isDerived_of_arrow? {step : PathStep} {a : Arrow} (h : step.arrow? = some a) :
    step.isDerived = false := by
  cases step <;> first | rfl | cases h

end PathStep

/-!
## Routes
-/

def Scope.Declares (scope : Scope) (slot : Slot) (t : Table) : Prop :=
  exists before after, scope.tables = before ++ (slot, t) :: after ∧
    forall entry, entry ∈ before -> entry.1 ≠ slot

/-- A name is the field of a column or else the physical name of one, of the first in each case. -/
def Table.Designates (t : Table) (name : String) (index : Nat) (column : Column) : Prop :=
  t.columns[index]? = some column ∧
    (column.field = name ∧
        (forall (j : Nat) (d : Column), j < index -> t.columns[j]? = some d -> d.field ≠ name) ∨
      column.name = name ∧
        (forall (j : Nat) (d : Column), t.columns[j]? = some d -> d.field ≠ name) ∧
        forall (j : Nat) (d : Column), j < index -> t.columns[j]? = some d -> d.name ≠ name)

/-- A path begins with the name of a column, in the first slot of the scope unless a slot stands
before it. -/
inductive Begins (scope : Scope) : List PathStep -> Slot -> String -> List PathStep -> Prop
  | atSlot (slot : Slot) (name : String) (steps : List PathStep) :
      Begins scope (.table slot :: .column name :: steps) slot name steps
  | atFirst {slot : Slot} {t : Table} {more : List (Slot × Table)}
      (hfirst : scope.tables = (slot, t) :: more) (name : String) (steps : List PathStep) :
      Begins scope (.column name :: steps) slot name steps

/-- The steps after a column lead from its value to another: an arrow from a document to what it
finds there, a pseudo-property to what its accessor makes of the value. -/
inductive Trail (calls : CallRegistry) (start : TypedFragment) :
    List PathStep -> TypedFragment -> Prop
  | done : Trail calls start [] start
  | arrow {steps : List PathStep} {step : PathStep} {f : TypedFragment} {a : Arrow}
      (hbefore : Trail calls start steps f) (harrow : step.arrow? = some a)
      (hjson : f.type.isJson = true) : Trail calls start (steps ++ [step]) (f.follow a)
  | derived {steps : List PathStep} {f g : TypedFragment} {name : String} {accessor : Accessor}
      (hbefore : Trail calls start steps f)
      (haccessor : calls.accessor? f.type.kind name = some accessor) (hvalue : accessor f = .ok g) :
      Trail calls start (steps ++ [.derived name]) g

/-- A path of the grammar: where it begins, the column that it names, the further steps, and the
value that these lead to. -/
structure Route (c : Compiler) (path : List PathStep) where
  slot : Slot
  table : Table
  name : String
  index : Nat
  column : Column
  steps : List PathStep
  value : TypedFragment
  begins : Begins c.scope path slot name steps
  declares : c.scope.Declares slot table
  designates : table.Designates name index column
  trail : Trail c.calls ⟨Fragment.empty.column slot column.name, column.type⟩ steps value

/-!
## Beginnings
-/

theorem Scope.table_eq_ok_iff {scope : Scope} {slot : Slot} {t : Table} :
    scope.table slot = .ok t <-> scope.Declares slot t := by
  have hfind : scope.table slot = .ok t <->
      scope.tables.find? (·.1 = slot) = some (slot, t) := by
    unfold Scope.table
    cases h : scope.tables.find? (·.1 = slot) with
    | none => simp
    | some entry =>
        rcases entry with ⟨slot', t'⟩
        have hslot : slot' = slot := by simpa using List.find?_some h
        simp [hslot]
  rw [hfind, List.find?_eq_some_iff_append]
  simp [Declares]

theorem Table.requireColumn_eq_ok_iff_designates {t : Table} {name : String} {index : Nat}
    {column : Column} :
    t.requireColumn name = .ok (index, column) <-> t.Designates name index column := by
  rw [requireColumn_eq_ok_iff, findColumn?, Option.or_eq_some_iff, firstColumn?_eq_some_iff,
    firstColumn?_eq_some_iff, firstColumn?_eq_none_iff]
  simp only [beq_iff_eq, beq_eq_false_iff_ne, Designates]
  tauto

theorem startOfPath_eq_ok {scope : Scope} {path rest : List PathStep} {slot : Slot} {name : String}
    {steps : List PathStep} (hrest : rest = .column name :: steps) :
    startOfPath scope path = .ok (slot, rest) <-> Begins scope path slot name steps := by
  subst hrest
  constructor
  · intro h
    unfold startOfPath at h
    split at h
    · cases h
      exact .atSlot slot name steps
    · rcases Result.bind_eq_ok.mp h with ⟨first, hfirst, hpair⟩
      cases hpair
      unfold Scope.root at hfirst
      split at hfirst
      · rename_i htables
        cases hfirst
        exact .atFirst htables name steps
      · cases hfirst
  · intro h
    cases h with
    | atSlot => rfl
    | atFirst hfirst =>
        unfold startOfPath Scope.root
        rw [hfirst]
        rfl

/-!
## Steps
-/

namespace ResolvedPath

variable {calls : CallRegistry} {p q : ResolvedPath}

theorem step_of_arrow? {step : PathStep} {a : Arrow} (h : step.arrow? = some a) :
    p.step calls step =
      if p.expr.type.isJson then .ok ⟨p.expr.follow a, p.column, p.jsonPath ++ [a.step]⟩
      else .error (.compile (.jsonAccess p.expr.type)) := by
  cases step with
  | key k asText =>
      cases h
      simp only [ResolvedPath.step, TypedFragment.jsonStep]
      split <;> rfl
  | index n asText =>
      cases h
      simp only [ResolvedPath.step, TypedFragment.jsonStep]
      split <;> rfl
  | _ => cases h

theorem step_of_arrow?_eq_ok {step : PathStep} {a : Arrow} (h : step.arrow? = some a) :
    p.step calls step = .ok q <-> p.expr.type.isJson = true ∧
      q = ⟨p.expr.follow a, p.column, p.jsonPath ++ [a.step]⟩ := by
  rw [step_of_arrow? h]
  split
  · rename_i hjson
    rw [Except.ok.injEq, and_iff_right hjson, eq_comm]
  · rename_i hjson
    exact ⟨nofun, fun h => absurd h.1 hjson⟩

theorem step_derived_eq_ok {name : String} :
    p.step calls (.derived name) = .ok q <->
      exists accessor g, calls.accessor? p.expr.type.kind name = some accessor ∧
        accessor p.expr = .ok g ∧ q = ⟨g, none, []⟩ := by
  simp only [ResolvedPath.step]
  cases calls.accessor? p.expr.type.kind name with
  | none => simp
  | some accessor =>
      dsimp only
      rw [Result.bind_eq_ok]
      simp [eq_comm]

/-- All that a step can do. -/
theorem step_eq_ok_iff {step : PathStep} :
    p.step calls step = .ok q <->
      (exists a, step.arrow? = some a ∧ p.expr.type.isJson = true ∧
        q = ⟨p.expr.follow a, p.column, p.jsonPath ++ [a.step]⟩) ∨
      (exists name accessor g, step = .derived name ∧
        calls.accessor? p.expr.type.kind name = some accessor ∧ accessor p.expr = .ok g ∧
        q = ⟨g, none, []⟩) := by
  cases harrow : step.arrow? with
  | some a =>
      rw [step_of_arrow?_eq_ok harrow]
      constructor
      · exact fun h => Or.inl ⟨a, rfl, h⟩
      · rintro (⟨_, ⟨⟩, h⟩ | ⟨name, _, _, rfl, -⟩)
        · exact h
        · cases harrow
  | none =>
      cases step with
      | table slot => exact ⟨nofun, by rintro (⟨_, ⟨⟩, -⟩ | ⟨_, _, _, ⟨⟩, -⟩)⟩
      | column name => exact ⟨nofun, by rintro (⟨_, ⟨⟩, -⟩ | ⟨_, _, _, ⟨⟩, -⟩)⟩
      | key k asText => cases harrow
      | index n asText => cases harrow
      | derived name =>
          rw [step_derived_eq_ok]
          constructor
          · rintro ⟨accessor, g, h⟩
            exact Or.inr ⟨name, accessor, g, rfl, h⟩
          · rintro (⟨_, ⟨⟩, -⟩ | ⟨_, accessor, g, ⟨⟩, h⟩)
            exact ⟨accessor, g, h⟩

/-- What a run of steps keeps track of: the column as long as no pseudo-property is met, and the
arrows since the last one. -/
structure Tracks (calls : CallRegistry) (p : ResolvedPath) (steps : List PathStep)
    (q : ResolvedPath) : Prop where
  trail : Trail calls p.expr steps q.expr
  column_of_direct : PathStep.Direct steps -> q.column = p.column
  column_of_derived : ¬PathStep.Direct steps -> q.column = none
  jsonPath_eq : q.jsonPath = (PathStep.arrows (PathStep.sinceDerived steps)).map (·.step)

theorem Tracks.step {before : List PathStep} {r : ResolvedPath} {step : PathStep}
    (h : Tracks calls p before r) (hstep : r.step calls step = .ok q) :
    Tracks calls p (before ++ [step]) q := by
  rcases step_eq_ok_iff.mp hstep with
    ⟨a, harrow, hjson, rfl⟩ | ⟨name, accessor, g, rfl, haccessor, hg, rfl⟩
  · have hdirect := PathStep.isDerived_of_arrow? harrow
    refine ⟨.arrow h.trail harrow hjson, ?_, ?_, ?_⟩
    · exact fun hall => h.column_of_direct (PathStep.direct_concat.mp hall).1
    · intro hnot
      exact h.column_of_derived fun hall => hnot (PathStep.direct_concat.mpr ⟨hall, hdirect⟩)
    · rw [PathStep.sinceDerived_concat, if_neg (by simp [hdirect]), PathStep.arrows_concat,
        List.map_append, <- h.jsonPath_eq, harrow]
      rfl
  · refine ⟨.derived h.trail haccessor hg, ?_, fun _ => rfl, ?_⟩
    · exact fun hall => nomatch (PathStep.direct_concat.mp hall).2
    · rw [PathStep.sinceDerived_concat]
      rfl

theorem tracks_foldlM (hfresh : p.jsonPath = []) {steps : List PathStep}
    (h : steps.foldlM (ResolvedPath.step calls) p = .ok q) : Tracks calls p steps q := by
  induction steps using List.reverseRecOn generalizing q with
  | nil =>
      cases h
      exact ⟨.done, fun _ => rfl, fun hnot => absurd nofun hnot, hfresh⟩
  | append_singleton before step ih =>
      rw [List.foldlM_append] at h
      rcases Result.bind_eq_ok.mp h with ⟨r, hr, hstep⟩
      rw [List.foldlM_cons] at hstep
      rcases Result.bind_eq_ok.mp hstep with ⟨q', hq, hdone⟩
      cases hdone
      exact (ih hr).step hq

end ResolvedPath

theorem Trail.exists_foldlM {calls : CallRegistry} {p : ResolvedPath} {steps : List PathStep}
    {g : TypedFragment} (h : Trail calls p.expr steps g) :
    exists q, steps.foldlM (ResolvedPath.step calls) p = .ok q ∧ q.expr = g := by
  have hlast {before : List PathStep} {step : PathStep} {r q : ResolvedPath}
      (hr : before.foldlM (ResolvedPath.step calls) p = .ok r) (hq : r.step calls step = .ok q) :
      (before ++ [step]).foldlM (ResolvedPath.step calls) p = .ok q := by
    rw [List.foldlM_append, hr, Result.ok_bind, List.foldlM_cons, hq]
    rfl
  induction h with
  | done => exact ⟨p, rfl, rfl⟩
  | arrow hbefore harrow hjson ih =>
      rcases ih with ⟨r, hr, rfl⟩
      exact ⟨_, hlast hr ((ResolvedPath.step_of_arrow?_eq_ok harrow).mpr ⟨hjson, rfl⟩), rfl⟩
  | derived hbefore haccessor hvalue ih =>
      rcases ih with ⟨r, hr, rfl⟩
      exact ⟨_, hlast hr (ResolvedPath.step_derived_eq_ok.mpr ⟨_, _, haccessor, hvalue, rfl⟩), rfl⟩

/-!
## Fragments without pseudo-properties
-/

theorem TypedFragment.pieces_follow (scopes : Scopes) (f : TypedFragment) (a : Arrow) :
    Part.pieces scopes (f.follow a).query.parts =
      Part.pieces scopes f.query.parts ++ a.pieces := by
  have hparts : (f.follow a).query.parts =
      [.nested f.query.parts, .text a.symbol, .value a.step.value] := rfl
  rw [hparts, Part.pieces_cons, Part.pieces_nested]
  rfl

theorem Trail.direct {calls : CallRegistry} {start g : TypedFragment} {steps : List PathStep}
    (h : Trail calls start steps g) (hdirect : PathStep.Direct steps) :
    g.type = ((PathStep.arrows steps).getLast?.map (·.type)).getD start.type ∧
      forall scopes, Part.pieces scopes g.query.parts =
        Part.pieces scopes start.query.parts ++ (PathStep.arrows steps).flatMap (·.pieces) := by
  induction h with
  | done => exact ⟨rfl, fun scopes => (List.append_nil _).symm⟩
  | @arrow before step f a hbefore harrow hjson ih =>
      have hpieces := (ih (PathStep.direct_concat.mp hdirect).1).2
      rw [PathStep.arrows_concat, harrow]
      constructor
      · simp [TypedFragment.follow]
      · intro scopes
        rw [TypedFragment.pieces_follow, hpieces, List.flatMap_append]
        simp
  | derived hbefore haccessor hvalue ih =>
      exact nomatch (PathStep.direct_concat.mp hdirect).2

/-!
## Whole paths
-/

namespace Compiler

variable {c : Compiler} {path : List PathStep} {q : ResolvedPath}

/-- A path is resolved by resolving its beginning and then taking the further steps. -/
theorem resolve_eq_ok_iff : c.resolve path = .ok q <->
    exists slot t name index column steps, Begins c.scope path slot name steps ∧
      c.scope.Declares slot t ∧ t.Designates name index column ∧
      steps.foldlM (ResolvedPath.step c.calls)
        ⟨⟨Fragment.empty.column slot column.name, column.type⟩, some (slot, index), []⟩ =
          .ok q := by
  constructor
  · intro h
    rcases Result.bind_eq_ok.mp h with ⟨⟨slot, rest⟩, hslot, h⟩
    rcases Result.bind_eq_ok.mp h with ⟨t, htable, h⟩
    rcases Result.bind_eq_ok.mp h with ⟨⟨start, steps⟩, hstart, hsteps⟩
    cases rest with
    | nil => cases hstart
    | cons first more =>
        cases first with
        | column name =>
            rcases Result.bind_eq_ok.mp hstart with ⟨⟨index, column⟩, hcolumn, hpair⟩
            cases hpair
            refine ⟨slot, t, name, index, column, steps, (startOfPath_eq_ok rfl).mp hslot, ?_⟩
            exact ⟨Scope.table_eq_ok_iff.mp htable,
              Table.requireColumn_eq_ok_iff_designates.mp hcolumn, hsteps⟩
        | _ => cases hstart
  · rintro ⟨slot, t, name, index, column, steps, hbegins, hdeclares, hdesignates, hsteps⟩
    have hcolumn := Table.requireColumn_eq_ok_iff_designates.mpr hdesignates
    refine Result.bind_eq_ok.mpr ⟨_, (startOfPath_eq_ok rfl).mpr hbegins, ?_⟩
    refine Result.bind_eq_ok.mpr ⟨t, Scope.table_eq_ok_iff.mpr hdeclares, ?_⟩
    exact Result.bind_eq_ok.mpr ⟨_, Result.bind_eq_ok.mpr ⟨_, hcolumn, rfl⟩, hsteps⟩

/-- Exactly the paths of the grammar are resolved.  A path without pseudo-properties resolves to
its column, with the arrows of its steps written after it in their order; after a pseudo-property
the column is forgotten, and the document path starts again. -/
theorem resolves_iff_route (c : Compiler) (path : List PathStep) :
    ((exists q, c.resolve path = .ok q) <-> Nonempty (Route c path)) ∧
    forall r : Route c path, exists q, c.resolve path = .ok q ∧
      q.expr = r.value ∧
      (PathStep.Direct r.steps -> q.column = some (r.slot, r.index)) ∧
      (¬PathStep.Direct r.steps -> q.column = none) ∧
      q.jsonPath = (PathStep.arrows (PathStep.sinceDerived r.steps)).map (·.step) ∧
      (PathStep.Direct r.steps ->
        q.expr.type = ((PathStep.arrows r.steps).getLast?.map (·.type)).getD r.column.type ∧
        forall scopes, Part.pieces scopes q.expr.query.parts =
          .sql (scopes.columnText r.slot r.column.name) ::
            (PathStep.arrows r.steps).flatMap (·.pieces)) := by
  have hresolved : forall r : Route c path, exists q, c.resolve path = .ok q ∧ q.expr = r.value ∧
      ResolvedPath.Tracks c.calls
        ⟨⟨Fragment.empty.column r.slot r.column.name, r.column.type⟩, some (r.slot, r.index), []⟩
        r.steps q := by
    intro r
    rcases r.trail.exists_foldlM (p := ⟨_, some (r.slot, r.index), []⟩) with ⟨q, hq, hvalue⟩
    have hpath : c.resolve path = .ok q := resolve_eq_ok_iff.mpr
      ⟨r.slot, r.table, r.name, r.index, r.column, r.steps, r.begins, r.declares, r.designates, hq⟩
    exact ⟨q, hpath, hvalue, ResolvedPath.tracks_foldlM rfl hq⟩
  refine ⟨⟨?_, ?_⟩, ?_⟩
  · rintro ⟨q, h⟩
    rcases resolve_eq_ok_iff.mp h with
      ⟨slot, t, name, index, column, steps, hbegins, hdeclares, hdesignates, hsteps⟩
    have htracks := ResolvedPath.tracks_foldlM rfl hsteps
    exact ⟨⟨slot, t, name, index, column, steps, q.expr, hbegins, hdeclares, hdesignates,
      htracks.trail⟩⟩
  · rintro ⟨r⟩
    rcases hresolved r with ⟨q, hq, -⟩
    exact ⟨q, hq⟩
  · intro r
    rcases hresolved r with ⟨q, hq, hvalue, htracks⟩
    refine ⟨q, hq, hvalue, htracks.column_of_direct, htracks.column_of_derived,
      htracks.jsonPath_eq, ?_⟩
    exact fun hdirect => htracks.trail.direct hdirect

end Compiler
end TypedQuery
