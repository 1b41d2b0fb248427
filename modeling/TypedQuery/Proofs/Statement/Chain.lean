import TypedQuery.Proofs.Statement.Builder
import TypedQuery.Statement.Update

/-!
# Chains of builder calls

A chain spells a query out as the calls that make it, starting with the model it was made of.  The
queries of chains over valid models are the ones that can be built, and what a chain lists can be
followed by recursion: its models, its tables, and later the layout of its rows.  An update is
made by a list of calls in the same way.
-/

namespace TypedQuery
namespace Select

/-- The calls that leave the projection and the reading as they are. -/
inductive Clause where
  | withRegistry (calls : CallRegistry)
  | filter (predicate : Expr)
  | exclude (predicate : Expr)
  | order (item : OrderItem)
  | withLimit (n : Nat)
  | withOffset (n : Nat)
  | distinctRows

def Clause.apply {α : Type} (s : Select α) : Clause -> Select α
  | withRegistry calls => s.withRegistry calls
  | filter predicate => s.filter predicate
  | exclude predicate => s.exclude predicate
  | order item => s.order item
  | withLimit n => s.withLimit n
  | withOffset n => s.withOffset n
  | distinctRows => s.distinctRows

/-- The calls that make a query, the last call outermost. -/
inductive Chain : Type -> Type 1 where
  | ofModel (m : Model) : Chain Instance
  | map {α β : Type} (c : Chain α) (f : α -> β) : Chain β
  | clause {α : Type} (c : Chain α) (k : Clause) : Chain α
  | leftJoin {α : Type} (c : Chain α) (m : Model) (on : Expr) : Chain (α × Option Instance)
  | scalar {α : Type} (c : Chain α) (host : FieldHost) (e : Expr) : Chain host.Carrier
  | fields {α : Type} (c : Chain α) (es : List Expr) : Chain Row
  | shape {α : Type} (c : Chain α) (entries : List (String × ShapeEntry)) : Chain ShapedRow

namespace Chain

variable {α : Type}

def select : {α : Type} -> Chain α -> Select α
  | _, ofModel m => Select.ofModel m
  | _, map c f => c.select.map f
  | _, clause c k => k.apply c.select
  | _, leftJoin c m on => c.select.leftJoin m on
  | _, scalar c host e => c.select.scalar host e
  | _, fields c es => c.select.fields es
  | _, shape c entries => c.select.shape entries

def models : {α : Type} -> Chain α -> List Model
  | _, ofModel m => [m]
  | _, leftJoin c m _ => c.models ++ [m]
  | _, map c _ | _, clause c _ | _, scalar c _ _ | _, fields c _ | _, shape c _ => c.models

theorem built_apply {s : Select α} (h : s.Built) (k : Clause) : (k.apply s).Built := by
  cases k with
  | withRegistry calls => exact h.withRegistry calls
  | filter predicate => exact h.filter predicate
  | exclude predicate => exact h.exclude predicate
  | order item => exact h.order item
  | withLimit n => exact h.withLimit n
  | withOffset n => exact h.withOffset n
  | distinctRows => exact h.distinctRows

/-- A chain over valid models builds its query. -/
theorem built (c : Chain α) (h : forall m, m ∈ c.models -> m.IsValid) : c.select.Built := by
  induction c with
  | ofModel m => exact .ofModel (h m List.mem_cons_self)
  | map c f ih => exact (ih h).map f
  | clause c k ih => exact built_apply (ih h) k
  | leftJoin c m on ih =>
      have hm : m.IsValid := h m (List.mem_append_right _ List.mem_cons_self)
      exact (ih fun m' hm' => h m' (List.mem_append_left _ hm')).leftJoin hm on
  | scalar c host e ih => exact (ih h).scalar host e
  | fields c es ih => exact (ih h).fields es
  | shape c entries ih => exact (ih h).shape entries

end Chain

/-!
## What the calls keep
-/

variable {α β : Type}

theorem Clause.tables_apply (s : Select α) (k : Clause) : (k.apply s).tables = s.tables := by
  cases k <;> rfl

theorem Clause.projection_apply (s : Select α) (k : Clause) :
    (k.apply s).projection = s.projection := by
  cases k <;> rfl

theorem Clause.decoder_apply (s : Select α) (k : Clause) : (k.apply s).decoder = s.decoder := by
  cases k <;> rfl

theorem Clause.error_apply (s : Select α) (k : Clause) : (k.apply s).error = s.error := by
  cases k <;> rfl

def verb (s : Select α) : String := if s.distinct then "SELECT DISTINCT " else "SELECT "

def joinedDecoder (s : Select α) (m : Model) : RowM (α × Option Instance) := do
  let left <- s.decoder
  let right <- m.readNullable
  return (left, right)

theorem leftJoin_of_ok {m : Model} {t : Table} (h : m.table = .ok t) (s : Select α) (on : Expr) :
    s.leftJoin m on =
      ({ s with
        tables := s.tables ++ [(.ofPosition s.tables.length, t)]
        joins := s.joins ++ [on] } : Select α).reshape
        (s.projection ++ [.nullable (.ofPosition s.tables.length)]) (s.joinedDecoder m) := by
  unfold Select.leftJoin
  rw [h]
  rfl

theorem leftJoin_of_error {m : Model} {e : Error} (h : m.table = .error e) (s : Select α)
    (on : Expr) :
    s.leftJoin m on = (s.fail e).reshape s.projection (s.joinedDecoder m) := by
  unfold Select.leftJoin
  rw [h]
  rfl

/-- A join without a table leaves an error behind. -/
theorem exists_table_of_leftJoin {m : Model} {s : Select α} {on : Expr}
    (h : (s.leftJoin m on).error = none) : s.error = none ∧ exists t, m.table = .ok t := by
  cases ht : m.table with
  | ok t =>
      rw [leftJoin_of_ok ht] at h
      exact ⟨h, t, rfl⟩
  | error e =>
      rw [leftJoin_of_error ht] at h
      exact absurd h (s.error_fail_ne_none e)

theorem tables_shape (s : Select α) (entries : List (String × ShapeEntry)) :
    (s.shape entries).tables = s.tables := by
  unfold Select.shape
  dsimp only
  split <;> rfl

theorem error_shape (s : Select α) (entries : List (String × ShapeEntry)) :
    (s.shape entries).error = s.error.or (s.shapeParts entries).2.2 := by
  unfold Select.shape
  dsimp only
  split
  · rename_i e he
    rw [he]
    rfl
  · rename_i hnone
    rw [hnone, Option.or_none]
    rfl

theorem shapeParts_of_shape {s : Select α} {entries : List (String × ShapeEntry)}
    (h : (s.shape entries).error = none) : s.error = none ∧ (s.shapeParts entries).2.2 = none := by
  rw [error_shape, Option.or_eq_none_iff] at h
  exact h

namespace Chain

theorem slots_eq (c : Chain α) :
    c.select.tables.map (·.1) = (List.range c.select.tables.length).map Slot.ofPosition := by
  induction c with
  | ofModel m =>
      rw [select, Select.ofModel]
      split <;> rfl
  | clause c k ih =>
      rw [select, k.tables_apply]
      exact ih
  | leftJoin c m on ih =>
      rw [select]
      cases ht : m.table with
      | ok t =>
          rw [leftJoin_of_ok ht]
          simp [reshape, ih, List.range_succ]
      | error e =>
          rw [leftJoin_of_error ht]
          exact ih
  | shape c entries ih =>
      rw [select, tables_shape]
      exact ih
  | map c f ih => exact ih
  | scalar c host e ih => exact ih
  | fields c es ih => exact ih

theorem models_ne_nil (c : Chain α) : c.models ≠ [] := by
  induction c with
  | ofModel m => exact List.cons_ne_nil m []
  | leftJoin c m on _ => exact List.append_ne_nil_of_right_ne_nil _ (List.cons_ne_nil m [])
  | map c f ih => exact ih
  | clause c k ih => exact ih
  | scalar c host e ih => exact ih
  | fields c es ih => exact ih
  | shape c entries ih => exact ih

theorem models_concat_ne (c : Chain α) (m m' : Model) : c.models ++ [m] ≠ [m'] := by
  intro h
  have hlength := congrArg List.length h
  rw [List.length_append, List.length_singleton, List.length_singleton] at hlength
  exact c.models_ne_nil (List.length_eq_zero_iff.mp (Nat.succ.inj hlength))

theorem tables_of_single {m : Model} {t : Table} (c : Chain α) (hsingle : c.models = [m])
    (ht : m.table = .ok t) : c.select.tables = [(.root, t)] := by
  induction c with
  | ofModel m' =>
      cases hsingle
      rw [select, Select.ofModel, ht]
  | leftJoin c m' on _ =>
      exact absurd hsingle (c.models_concat_ne m' m)
  | clause c k ih =>
      rw [select, k.tables_apply]
      exact ih hsingle
  | shape c entries ih =>
      rw [select, tables_shape]
      exact ih hsingle
  | map c f ih => exact ih hsingle
  | scalar c host e ih => exact ih hsingle
  | fields c es ih => exact ih hsingle

theorem error_of_single {m : Model} {e : Error} (c : Chain α) (hsingle : c.models = [m])
    (ht : m.table = .error e) : c.select.error = some e := by
  induction c with
  | ofModel m' =>
      cases hsingle
      rw [select, Select.ofModel, ht]
  | leftJoin c m' on _ =>
      exact absurd hsingle (c.models_concat_ne m' m)
  | clause c k ih =>
      rw [select, k.error_apply]
      exact ih hsingle
  | shape c entries ih =>
      rw [select, error_shape, ih hsingle]
      rfl
  | map c f ih => exact ih hsingle
  | scalar c host e ih => exact ih hsingle
  | fields c es ih => exact ih hsingle

end Chain
end Select

/-!
## Updates
-/

namespace Update

inductive Call where
  | withRegistry (calls : CallRegistry)
  | filter (predicate : Expr)
  | exclude (predicate : Expr)
  | set (column : String) (value : Expr)
  | setWith (column : String) (value : Expr -> Expr)
  | addToList (column : String) (values : Expr)
  | addToListDistinct (column : String) (values : Expr)
  | removeFromList (column : String) (value : Expr)
  | removeAllFromList (column : String) (values : Expr)
  | jsonSet (path value : Expr)
  | jsonAppend (path value : Expr)
  | jsonRemoveValue (path value : Expr)

def Call.apply (u : Update) : Call -> Update
  | withRegistry calls => u.withRegistry calls
  | filter predicate => u.filter predicate
  | exclude predicate => u.exclude predicate
  | set column value => u.set column value
  | setWith column value => u.setWith column value
  | addToList column values => u.addToList column values
  | addToListDistinct column values => u.addToListDistinct column values
  | removeFromList column value => u.removeFromList column value
  | removeAllFromList column values => u.removeAllFromList column values
  | jsonSet path value => u.jsonSet path value
  | jsonAppend path value => u.jsonAppend path value
  | jsonRemoveValue path value => u.jsonRemoveValue path value

def made (m : Model) (calls : List Call) : Update := calls.foldl Call.apply (ofModel m)

theorem table_ofModel (m : Model) : (ofModel m).table = m.table := by
  unfold ofModel
  split <;> rename_i h <;> exact h.symm

theorem table_modify (u : Update) (column : String)
    (make : Compiler -> Column -> TypedFragment -> Result TypedFragment) :
    (u.modify column make).table = u.table := by
  unfold modify
  split
  · rfl
  · dsimp only
    split <;> rfl

theorem table_modifyJson (u : Update) (path : Expr)
    (make : Compiler -> TypedFragment -> List JsonStep -> Result TypedFragment) :
    (u.modifyJson path make).table = u.table := by
  unfold modifyJson
  split
  · rfl
  · split
    · rfl
    · exact u.table_modify _ _

theorem table_apply (u : Update) (call : Call) : (call.apply u).table = u.table := by
  cases call with
  | withRegistry calls => rfl
  | filter predicate => rfl
  | exclude predicate => rfl
  | jsonSet path value => exact u.table_modifyJson _ _
  | jsonAppend path value => exact u.table_modifyJson _ _
  | jsonRemoveValue path value => exact u.table_modifyJson _ _
  | _ => exact u.table_modify _ _

theorem table_made (m : Model) (calls : List Call) : (made m calls).table = m.table := by
  rw [<- table_ofModel m, made]
  generalize ofModel m = u
  induction calls generalizing u with
  | nil => rfl
  | cons call rest ih => rw [List.foldl_cons, ih, table_apply]

theorem error_modify {u : Update} {e : Error} (h : u.error = some e) (column : String)
    (make : Compiler -> Column -> TypedFragment -> Result TypedFragment) :
    (u.modify column make).error = some e := by
  unfold modify
  rw [h]
  exact h

theorem error_modifyJson {u : Update} {e : Error} (h : u.error = some e) (path : Expr)
    (make : Compiler -> TypedFragment -> List JsonStep -> Result TypedFragment) :
    (u.modifyJson path make).error = some e := by
  unfold modifyJson
  rw [h]
  exact h

theorem error_apply {u : Update} {e : Error} (h : u.error = some e) (call : Call) :
    (call.apply u).error = some e := by
  cases call with
  | withRegistry calls => exact h
  | filter predicate => exact h
  | exclude predicate => exact h
  | jsonSet path value => exact error_modifyJson h _ _
  | jsonAppend path value => exact error_modifyJson h _ _
  | jsonRemoveValue path value => exact error_modifyJson h _ _
  | _ => exact error_modify h _ _

theorem error_made {m : Model} {e : Error} (h : m.table = .error e) (calls : List Call) :
    (made m calls).error = some e := by
  have hstart : (ofModel m).error = some e := by
    unfold ofModel
    rw [h]
  unfold made
  generalize ofModel m = u at hstart
  induction calls generalizing u with
  | nil => exact hstart
  | cons call rest ih => exact ih _ (error_apply hstart call)

end Update
end TypedQuery
