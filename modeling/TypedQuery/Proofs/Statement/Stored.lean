import TypedQuery.Proofs.Statement.JsonHelper

/-!
# Values stored into columns

Every call that gives a column a value compiles it for a type that the type of the column decides,
and writes it next to the pending expression of the column.
-/

namespace TypedQuery

namespace Update

def current (u : Update) (index : Nat) (column : Column) : TypedFragment :=
  (u.pending? index).getD ⟨Fragment.empty.column .root column.name, column.type⟩

/-- A change of a column that is there is made, or its error is recorded. -/
theorem modify_eq {u : Update} {t : Table} (herror : u.error = none) (ht : u.table = .ok t)
    {name : String} {index : Nat} {column : Column}
    (hcolumn : t.findColumn? name = some (index, column))
    (make : Compiler -> Column -> TypedFragment -> Result TypedFragment) :
    u.modify name make =
      match make (u.compiler t) column (u.current index column) with
      | .ok value => u.withPending index value
      | .error e => u.fail e := by
  rcases u with ⟨table, assignments, filters, calls, error⟩
  change error = none at herror
  change table = .ok t at ht
  subst herror
  subst ht
  unfold modify
  simp only [Table.requireColumn, hcolumn, Result.ok_bind, current]
  cases make (compiler _ t) column _ <;> rfl

end Update

/-- The calls that give a column a value. -/
inductive Assignment where
  | set (value : Expr)
  | setWith (value : Expr -> Expr)
  | addToList (values : Expr)
  | addToListDistinct (values : Expr)
  | removeFromList (value : Expr)
  | removeAllFromList (values : Expr)

namespace Assignment

def apply (a : Assignment) (u : Update) (column : String) : Update :=
  match a with
  | set value => u.set column value
  | setWith value => u.setWith column value
  | addToList values => u.addToList column values
  | addToListDistinct values => u.addToListDistinct column values
  | removeFromList value => u.removeFromList column value
  | removeAllFromList values => u.removeAllFromList column values

def value (a : Assignment) (current : TypedFragment) : Expr :=
  match a with
  | setWith value => value (.compiled current)
  | set value | addToList value | addToListDistinct value | removeFromList value
  | removeAllFromList value => value

/-- The type that the value must have, if the column can be given one. -/
def target? (a : Assignment) (column : SqlType) : Option SqlType :=
  match a with
  | set _ | setWith _ => some column
  | removeFromList _ => column.item?
  | addToList _ | addToListDistinct _ | removeAllFromList _ =>
      if column.isArray then some column else none

def written (a : Assignment) (column : SqlType) (current value : TypedFragment) : TypedFragment :=
  let between (before middle after : String) : TypedFragment :=
    ⟨((((Fragment.empty.text before).nested current.query).text middle).nested
      value.query).text after, column⟩
  match a with
  | set _ | setWith _ => value
  | addToList _ => between "array_cat(" ", " ")"
  | addToListDistinct _ =>
      let added := between "array_cat(" ", ARRAY(SELECT e FROM unnest("
        ") AS e WHERE NOT (e = ANY(COALESCE("
      ⟨(added.query.nested current.query).text ", '\x7b\x7d')))))", column⟩
  | removeFromList _ => between "array_remove(" ", " ")"
  | removeAllFromList _ =>
      between "ARRAY(SELECT e FROM unnest(" ") AS e WHERE e <> ALL(" "))"

def make (a : Assignment) (c : Compiler) (column : Column) (current : TypedFragment) :
    Result TypedFragment :=
  match a.target? column.type with
  | some target => do
      return a.written column.type current (<- c.compileAs target (a.value current))
  | none => .error (.compile (.notArray column.name column.type))

theorem apply_eq_modify (a : Assignment) (u : Update) (column : String) :
    a.apply u column = u.modify column a.make := by
  have hmodify : forall {k : Compiler -> Column -> TypedFragment -> Result TypedFragment},
      (forall c d current, k c d current = a.make c d current) ->
      u.modify column k = u.modify column a.make := by
    intro k hk
    exact congrArg (u.modify column) (funext fun c => funext fun d => funext fun f => hk c d f)
  have hlist : forall {c : Compiler} {d : Column} {current : TypedFragment},
      (forall t, a.target? t = if t.isArray then some t else none) -> (do
        let _ <- Update.requireList d
        return a.written d.type current (<- c.compileAs d.type (a.value current))) =
          a.make c d current := by
    intro c d current htarget
    rw [make, htarget]
    unfold Update.requireList
    cases d.type <;> rfl
  cases a with
  | set value => exact hmodify fun c d current => (bind_pure _).symm
  | setWith value => exact hmodify fun c d current => (bind_pure _).symm
  | addToList values => exact hmodify fun c d current => hlist fun _ => rfl
  | addToListDistinct values => exact hmodify fun c d current => hlist fun _ => rfl
  | removeAllFromList values => exact hmodify fun c d current => hlist fun _ => rfl
  | removeFromList value =>
      rw [apply, Update.removeFromList]
      refine hmodify fun c d current => ?_
      rw [make, target?]
      unfold Update.requireList
      cases d.type.item? <;> rfl

theorem apply_eq {u : Update} {t : Table} (herror : u.error = none) (ht : u.table = .ok t)
    {name : String} {index : Nat} {column : Column}
    (hcolumn : t.findColumn? name = some (index, column)) (a : Assignment) {target : SqlType}
    (htarget : a.target? column.type = some target) :
    a.apply u name =
      match (u.compiler t).compileAs target (a.value (u.current index column)) with
      | .ok value => u.withPending index (a.written column.type (u.current index column) value)
      | .error e => u.fail e := by
  rw [apply_eq_modify, Update.modify_eq herror ht hcolumn, make, htarget]
  dsimp only
  cases (u.compiler t).compileAs target (a.value (u.current index column)) <;> rfl

end Assignment
end TypedQuery
