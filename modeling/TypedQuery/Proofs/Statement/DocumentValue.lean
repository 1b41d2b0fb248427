import TypedQuery.Proofs.Statement.Capture
import TypedQuery.Proofs.Statement.Outcome

/-!
# Documents that JSON helpers change

A JSON column holds a document or NULL.  What it holds after a value has been set or appended at a
path follows from what was pending for it and from the value, and whether the value is found there
from the steps that the document has.  A value that is a NULL with a type is no document.
-/

namespace TypedQuery

open Server

def Value.ofDocument : Option Json -> Value
  | some d => .json d
  | none => .null

/-- A path that leads an update without errors to a JSON column, and the steps in the document. -/
structure JsonTarget (u : Update) (t : Table) where
  path : Expr
  name : String
  steps : List JsonStep
  index : Nat
  column : Column
  error : u.error = none
  table : u.table = .ok t
  target : u.jsonTarget path = .ok (name, steps)
  found : t.findColumn? name = some (index, column)
  isJson : column.type.isJson = true

namespace JsonTarget

variable {u : Update} {t : Table} (j : JsonTarget u t)

def texts : List String := j.steps.map JsonStep.asText

def current : TypedFragment := u.current j.index j.column

theorem onServer_type : j.column.type.onServer = .jsonb := by
  have hjson := j.isJson
  cases htype : j.column.type with
  | json shape => rfl
  | _ =>
      rw [htype] at hjson
      cases hjson

/-- A compiled value is written next to what is pending. -/
theorem apply_eq (h : JsonHelper) {value : Expr} {f : TypedFragment}
    (hvalue : Update.jsonValue (u.compiler t) value = .ok f) :
    h.apply u j.path value = u.withPending j.index (h.written j.steps j.current f) := by
  rw [h.apply_eq_modify j.error j.target, Update.modify_eq j.error j.table j.found,
    JsonHelper.make, if_pos j.isJson, hvalue]
  rfl

variable {engine : Engine} {columns : Columns}

theorem after?_apply (h : JsonHelper) {value : Expr} {f : TypedFragment}
    (hvalue : Update.jsonValue (u.compiler t) value = .ok f) {tree : Tree}
    (hreads : engine.Reads t (h.written j.steps j.current f).query tree) {mode : RenderMode}
    (hmode : mode ≠ .bound .atSign) :
    (h.apply u j.path value).after? engine t mode columns j.index j.column =
      tree.denote engine (Bootstrap.routines engine) columns .jsonb := by
  rw [Update.after?, j.apply_eq h hvalue, Update.current_withPending_self,
    hreads.evaluate?_eq hmode, j.onServer_type]

end JsonTarget

/-!
## Paths
-/

namespace Server.Tree

variable {engine : Engine} {routines : Routines} {columns : Columns}

theorem denote_step (step : JsonStep) :
    step.tree.denote engine routines columns .text = some (.text step.asText) :=
  denote_constant (t := .text) rfl (by decide)
    ⟨rfl, fun _ => engine.input_text step.asText⟩

theorem denote_path (steps : List JsonStep) :
    (pathTree steps).denote engine routines columns (.array .text) =
      some (.array (steps.map fun step => .text step.asText)) := by
  rw [pathTree, denote_cast (.array .text) rfl]
  exact denote_array steps fun step _ => denote_step step

end Server.Tree

theorem path?_texts (steps : List JsonStep) :
    Function.path? (.array (steps.map fun step => .text step.asText)) =
      some (steps.map JsonStep.asText) := by
  rw [Function.path?]
  induction steps with
  | nil => rfl
  | cons step rest ih =>
      rw [List.map_cons, List.mapM_cons, ih]
      rfl

/-!
## Values at paths
-/

namespace Server.Tree

variable {engine : Engine} {routines : Routines} {columns : Columns}

theorem denote_default {current : Tree} {stored : Option Json}
    (hcurrent : current.denote engine routines columns .jsonb = some (.ofDocument stored)) :
    (call "coalesce" [current, emptyObject]).denote engine routines columns .jsonb =
      some (.json (stored.getD (.object []))) := by
  rw [denote_coalesce hcurrent denote_emptyObject]
  cases stored <;> rfl

end Server.Tree

namespace JsonHelper

variable {engine : Engine} {columns : Columns} {current value : Tree} {stored : Option Json}
  {v : Json}

theorem denote_set {routines : Routines}
    (hcurrent : current.denote engine routines columns .jsonb = some (.ofDocument stored))
    (hvalue : value.denote engine routines columns .jsonb = some (.json v))
    {steps : List JsonStep} (hsteps : steps ≠ []) :
    (set.tree steps current value).denote engine routines columns .jsonb =
      ((stored.getD (.object [])).set? (steps.map JsonStep.asText) v).map .json := by
  have hset : set.tree steps current value =
      .call "jsonb_set" [.call "coalesce" [current, .emptyObject], pathTree steps, value,
        .keyword "true"] :=
    if_neg (by rwa [List.isEmpty_iff])
  rw [hset, Tree.denote_documentSet (Tree.denote_default hcurrent) (Tree.denote_path steps) hvalue]
  refine (Function.strict_eq_value _ rfl).trans ?_
  rw [Function.documentSet, path?_texts, Option.bind_some]

theorem denote_append {v : Value} {item : Json}
    (hcurrent : current.denote engine (Bootstrap.routines engine) columns .jsonb =
      some (.ofDocument stored))
    (hvalue : value.denote engine (Bootstrap.routines engine) columns .jsonb = some v)
    (hitem : Function.item? v = some item) (steps : List JsonStep) :
    let d := stored.getD (.object [])
    let path := steps.map JsonStep.asText
    (append.tree steps current value).denote engine (Bootstrap.routines engine) columns .jsonb =
      (d.set? path (((d.at? path).getD (.array [])).concat (.array [item]))).map .json := by
  intro d path
  have hargs : Function.evaluated? columns
      (Tree.denoteAll engine (Bootstrap.routines engine)
        [.call "coalesce" [current, .emptyObject], pathTree steps, value])
      [.jsonb, .array .text, .jsonb] =
        some [.json d, .array (steps.map fun step => .text step.asText), v] :=
    Tree.evaluated?_cons (Tree.denote_default hcurrent) <|
      Tree.evaluated?_cons (Tree.denote_path steps) <|
        Tree.evaluated?_cons hvalue Tree.evaluated?_nil
  exact (Tree.denote_routine rfl rfl (Bootstrap.routines_append engine) hargs).trans
    (Bootstrap.append_value engine d (path?_texts steps) hitem)

end JsonHelper

namespace Value

/-- What a value that is a document has at a path. -/
def found? (path : List String) : Value -> Option Json
  | .json d => d.at? path
  | _ => none

theorem bind_found?_map_json (path : List String) (d : Option Json) :
    (d.map Value.json).bind (found? path) = d.bind (·.at? path) := by
  cases d <;> rfl

end Value

/-- The items that stand at a path, which are none if nothing stands there. -/
def itemsAt? (stored : Option Json) (path : List String) : Option (List Json) :=
  match stored.bind (·.at? path) with
  | none => some []
  | some (.array items) => some items
  | some _ => none

theorem at?_getD_of_itemsAt? {stored : Option Json} {path : List String} (hpath : path ≠ [])
    {items : List Json} (h : itemsAt? stored path = some items) :
    ((stored.getD (.object [])).at? path).getD (.array []) = .array items := by
  cases stored with
  | none =>
      cases h
      cases path with
      | nil => exact absurd rfl hpath
      | cons step rest => rfl
  | some d =>
      rw [itemsAt?, Option.bind_some] at h
      rw [Option.getD_some]
      cases hfound : d.at? path with
      | none =>
          rw [hfound] at h
          cases h
          rfl
      | some found =>
          rw [hfound] at h
          cases found with
          | array found =>
              cases h
              rfl
          | _ => cases h

/-- The value that is appended at a path is found there behind the items of before, if the path can
be set. -/
theorem appended_found_iff {stored : Option Json} {path : List String} {items : List Json}
    (h : itemsAt? stored path = some items) (v : Json) :
    let d := stored.getD (.object [])
    (d.set? path (((d.at? path).getD (.array [])).concat (.array [v]))).bind (·.at? path) =
        some (.array (items ++ [v])) <-> d.Settable path := by
  intro d
  by_cases hpath : path = []
  · subst hpath
    refine iff_of_false (fun happended => ?_) d.not_settable_nil
    -- A document that is set at no step stays as it is.
    have hkept : d = .array (items ++ [v]) := by
      rw [Json.set?] at happended
      split at happended
      · cases happended
      · exact Option.some.inj happended
    cases stored with
    | none =>
        have hd : Json.object [] = .array (items ++ [v]) := hkept
        cases hd
    | some d' =>
        have hd : d' = .array (items ++ [v]) := hkept
        rw [hd] at h
        have hitems : items ++ [v] = items := Option.some.inj h
        exact absurd (congrArg List.length hitems) (by simp)
  · rw [at?_getD_of_itemsAt? hpath h, Json.concat_array]
    exact Json.set?_bind_at?_iff _ d hpath

namespace JsonTarget

variable {u : Update} {t : Table} (j : JsonTarget u t) {engine : Engine} {columns : Columns}
  {stored : Option Json} {value : Expr} {f : TypedFragment} {v : Json} {mode : RenderMode}

theorem after?_set (hpending : engine.Gives t columns .jsonb j.current.query (.ofDocument stored))
    (hvalue : Update.jsonValue (u.compiler t) value = .ok f)
    (hgives : engine.Gives t columns .jsonb f.query (.json v)) (hmode : mode ≠ .bound .atSign) :
    (u.jsonSet j.path value).after? engine t mode columns j.index j.column =
      (if j.texts = [] then some v
        else (stored.getD (.object [])).set? j.texts v).map .json := by
  rcases hpending with ⟨current, hcurrent, hstored⟩
  rcases hgives with ⟨tree, hreads, hv⟩
  refine (j.after?_apply .set hvalue
    (fun env => Reader.yields_set j.steps (hcurrent env) (hreads env)) hmode).trans ?_
  by_cases hsteps : j.steps = []
  · have htexts : j.texts = [] := by rw [texts, hsteps, List.map_nil]
    have htree : JsonHelper.set.tree j.steps current tree = tree :=
      if_pos (List.isEmpty_iff.mpr hsteps)
    rw [if_pos htexts, htree, hv, Option.map_some]
  · have htexts : j.texts ≠ [] := fun h => hsteps (List.map_eq_nil_iff.mp h)
    rw [if_neg htexts, JsonHelper.denote_set hstored hv hsteps, texts]

theorem after?_append
    (hpending : engine.Gives t columns .jsonb j.current.query (.ofDocument stored))
    (hvalue : Update.jsonValue (u.compiler t) value = .ok f)
    (hgives : engine.Gives t columns .jsonb f.query (.json v)) (hmode : mode ≠ .bound .atSign) :
    let d := stored.getD (.object [])
    (u.jsonAppend j.path value).after? engine t mode columns j.index j.column =
      (d.set? j.texts (((d.at? j.texts).getD (.array [])).concat (.array [v]))).map .json := by
  rcases hpending with ⟨current, hcurrent, hstored⟩
  rcases hgives with ⟨tree, hreads, hv⟩
  exact (j.after?_apply .append hvalue
    (fun env => (Reader.yieldsAtom_append j.steps (hcurrent env) (hreads env)).yields) hmode).trans
    (JsonHelper.denote_append hstored hv rfl j.steps)

/-- A value that is set at a path is found there exactly when there are no steps or the document
has all steps before the last one; a value that is appended is found there behind the items of
before exactly when there are steps and the document has all of them before the last one. -/
theorem changed_found_iff
    (hpending : engine.Gives t columns .jsonb j.current.query (.ofDocument stored))
    (hvalue : Update.jsonValue (u.compiler t) value = .ok f)
    (hgives : engine.Gives t columns .jsonb f.query (.json v)) (hmode : mode ≠ .bound .atSign) :
    let found? (u' : Update) : Option Json :=
      (u'.after? engine t mode columns j.index j.column).bind (Value.found? j.texts)
    let d := stored.getD (.object [])
    (found? (u.jsonSet j.path value) = some v <-> j.texts = [] ∨ d.Settable j.texts) ∧
      forall items, itemsAt? stored j.texts = some items ->
        (found? (u.jsonAppend j.path value) = some (.array (items ++ [v])) <->
          d.Settable j.texts) := by
  intro found? d
  constructor
  · show ((u.jsonSet j.path value).after? engine t mode columns j.index j.column).bind _ = _ <-> _
    rw [j.after?_set hpending hvalue hgives hmode, Value.bind_found?_map_json]
    by_cases htexts : j.texts = []
    · rw [if_pos htexts, htexts, Option.bind_some]
      exact iff_of_true rfl (Or.inl rfl)
    · rw [if_neg htexts, Json.set?_bind_at?_iff v d htexts]
      exact (or_iff_right htexts).symm
  · intro items hitems
    show ((u.jsonAppend j.path value).after? engine t mode columns j.index j.column).bind _ = _ <->
      _
    rw [j.after?_append hpending hvalue hgives hmode, Value.bind_found?_map_json]
    exact appended_found_iff hitems v

/-!
The document of a shelf.
-/

def shelfData : Column := { field := "data", name := "data", type := .json none }

def shelf (path : Expr) (steps : List JsonStep)
    (htarget : Update.shelf.jsonTarget path = .ok ("data", steps)) :
    JsonTarget Update.shelf Update.shelfTable where
  path := path
  name := "data"
  steps := steps
  index := 2
  column := shelfData
  error := rfl
  table := rfl
  target := htarget
  found := rfl
  isJson := rfl

def shelfRow (data : Option Json) : Columns :=
  Update.shelfTable.row fun name => if name = "data" then .ofDocument data else .null

theorem shelf_gives (data : Option Json) {path : Expr} {steps : List JsonStep}
    (htarget : Update.shelf.jsonTarget path = .ok ("data", steps)) :
    Engine.plain.Gives Update.shelfTable (shelfRow data) .jsonb
      (shelf path steps htarget).current.query (.ofDocument data) := by
  have hholds : Update.shelf.Holds .plain Update.shelfTable (shelfRow data) 2
      (shelf path steps htarget).column (.ofDocument data) :=
    Update.holds_of_untouched rfl rfl rfl rfl
  exact hholds.gives

def yes : Expr := .constant ⟨.json (.bool true), .json none⟩

theorem jsonValue_yes (c : Compiler) :
    Update.jsonValue c yes = .ok (.ofValue ⟨.json (.bool true), .json none⟩) := by
  have hcompiled := c.compileAs_constant (v := ⟨.json (.bool true), .json none⟩) rfl
  unfold Update.jsonValue yes
  rw [hcompiled]
  rfl

theorem gives_yes (t : Table) (columns : Columns) :
    Engine.plain.Gives t columns .jsonb
      (TypedFragment.ofValue ⟨.json (.bool true), .json none⟩).query (.json (.bool true)) :=
  ⟨_, fun _ => Reader.yields_value _,
    Tree.denote_constant (t := .json none) rfl (by decide) ⟨rfl, fun _ => rfl⟩⟩

def shelfStep : Expr := .field [.column "data", .key "a" false]

def shelfFound? (u : Update) (data : Option Json) (path : List String) : Option Json :=
  (u.after? .plain Update.shelfTable .simple (shelfRow data) 2 shelfData).bind
    (Value.found? path)

theorem shelf_changed_found :
    Update.shelf.jsonTarget shelfStep = .ok ("data", [.key "a"]) ∧
      RenderMode.simple ≠ .bound .atSign ∧
      shelfFound? (Update.shelf.jsonSet shelfStep yes) none ["a"] = some (.bool true) ∧
      shelfFound? (Update.shelf.jsonAppend shelfStep yes) none ["a"] =
        some (.array [.bool true]) := by
  have htarget : Update.shelf.jsonTarget shelfStep = .ok ("data", [.key "a"]) := rfl
  have hmode : RenderMode.simple ≠ .bound .atSign := nofun
  have hsettable : (Json.object []).Settable ["a"] := Json.settable_singleton_iff.mpr trivial
  rcases changed_found_iff (shelf shelfStep [.key "a"] htarget) (shelf_gives none htarget)
    (jsonValue_yes _) (gives_yes _ _) hmode with ⟨hset, happend⟩
  exact ⟨htarget, hmode, hset.mpr (Or.inr hsettable), (happend [] rfl).mpr hsettable⟩

def shelfSteps : Expr := .field [.column "data", .key "a" false, .key "b" false]

def shelfDocument : Expr := .field [.column "data"]

/-- A value behind a step that the document lacks is not set, and at a path without steps nothing
is appended. -/
theorem shelf_changed_lost :
    Update.shelf.jsonTarget shelfSteps = .ok ("data", [.key "a", .key "b"]) ∧
      shelfFound? (Update.shelf.jsonSet shelfSteps yes) (some (.object [])) ["a", "b"] = none ∧
      Update.shelf.jsonTarget shelfDocument = .ok ("data", []) ∧
      shelfFound? (Update.shelf.jsonAppend shelfDocument yes) (some (.array [])) [] =
        some (.array []) := by
  have hsteps : Update.shelf.jsonTarget shelfSteps = .ok ("data", [.key "a", .key "b"]) := rfl
  have hdocument : Update.shelf.jsonTarget shelfDocument = .ok ("data", []) := rfl
  have hmode : RenderMode.simple ≠ .bound .atSign := nofun
  have hset := after?_set (shelf shelfSteps _ hsteps) (shelf_gives (some (.object [])) hsteps)
    (jsonValue_yes _) (gives_yes _ _) hmode
  have happend := after?_append (shelf shelfDocument _ hdocument)
    (shelf_gives (some (.array [])) hdocument) (jsonValue_yes _) (gives_yes _ _) hmode
  exact ⟨hsteps, congrArg (Option.bind · (Value.found? ["a", "b"])) hset, hdocument,
    congrArg (Option.bind · (Value.found? [])) happend⟩

end JsonTarget

end TypedQuery
