import Mathlib.Data.List.Forall2
import TypedQuery.Proofs.Host.RoundTrip
import TypedQuery.Row.Reader

/-!
# Readings of a row

Two facts are told about a reading: how many values it takes when it succeeds, and which values it
reads as which result.  Both are told of every reader the reading may start in, so that readings
one after the other add up.
-/

namespace TypedQuery

namespace RowM

variable {α β : Type}

def Takes (reading : RowM α) (n : Nat) : Prop :=
  forall (r r' : RowReader) (a : α), reading.run r = (.ok a, r') ->
    exists taken, taken.length = n ∧ r.values = taken ++ r'.values

/-- Where these values come next, the reading takes them and has this result. -/
def Reads (reading : RowM α) (values : List Value) (a : α) : Prop :=
  forall (rest : List Value) (position : Nat),
    reading.run ⟨values ++ rest, position⟩ = (.ok a, ⟨rest, position + values.length⟩)

theorem run_bind (x : RowM α) (f : α -> RowM β) (r : RowReader) :
    (x >>= f).run r =
      match x.run r with
      | (.ok a, r') => (f a).run r'
      | (.error e, r') => (.error e, r') := by
  change (match x.run r with | (a, r') => ExceptT.bindCont f a r') = _
  rcases x.run r with ⟨outcome, r'⟩
  cases outcome <;> rfl

theorem run_bind_eq_ok {x : RowM α} {f : α -> RowM β} {r r' : RowReader} {b : β}
    (h : (x >>= f).run r = (.ok b, r')) :
    exists a middle, x.run r = (.ok a, middle) ∧ (f a).run middle = (.ok b, r') := by
  rw [run_bind] at h
  split at h
  · rename_i a middle hx
    exact ⟨a, middle, hx, h⟩
  · cases h

namespace Takes

theorem pure (a : α) : Takes (pure a) 0 := by
  intro r r' b h
  cases h
  exact ⟨[], rfl, rfl⟩

theorem throw (e : Error) (n : Nat) : Takes (throw e : RowM α) n := by
  intro r r' a h
  cases h

theorem bind {x : RowM α} {f : α -> RowM β} {n m : Nat} (hx : Takes x n)
    (hf : forall a, Takes (f a) m) : Takes (x >>= f) (n + m) := by
  intro r r' b h
  rcases run_bind_eq_ok h with ⟨a, middle, ha, hb⟩
  rcases hx r middle a ha with ⟨first, hfirst, hvalues⟩
  rcases hf a middle r' b hb with ⟨second, hsecond, hrest⟩
  refine ⟨first ++ second, ?_, ?_⟩
  · rw [List.length_append, hfirst, hsecond]
  · rw [hvalues, hrest, List.append_assoc]

theorem bind_pure {x : RowM α} {n : Nat} (hx : Takes x n) (f : α -> β) :
    Takes (do return f (<- x)) n :=
  hx.bind fun a => Takes.pure (f a)

theorem exists_error {reading : RowM α} {n : Nat} (h : Takes reading n) {values : List Value}
    (hfew : values.length < n) : exists e, RowReader.run reading values = .error e := by
  cases hrun : reading.run ⟨values, 0⟩ with
  | mk outcome r' =>
      cases outcome with
      | error e =>
          refine ⟨e, ?_⟩
          rw [RowReader.run, hrun]
      | ok a =>
          rcases h ⟨values, 0⟩ r' a hrun with ⟨taken, hlength, hvalues⟩
          have hle : taken.length ≤ values.length := by
            change values = taken ++ r'.values at hvalues
            rw [hvalues, List.length_append]
            exact Nat.le_add_right _ _
          omega

end Takes

namespace Reads

theorem pure (a : α) : Reads (pure a) [] a :=
  fun _ _ => rfl

theorem bind {x : RowM α} {f : α -> RowM β} {values more : List Value} {a : α} {b : β}
    (hx : Reads x values a) (hf : Reads (f a) more b) : Reads (x >>= f) (values ++ more) b := by
  intro rest position
  rw [run_bind, List.append_assoc, hx, List.length_append, <- Nat.add_assoc]
  exact hf rest (position + values.length)

theorem bind_pure {x : RowM α} {values : List Value} {a : α} (hx : Reads x values a) (f : α -> β) :
    Reads (do return f (<- x)) values (f a) := by
  have hf : Reads (Pure.pure (f a)) [] (f a) := Reads.pure (f a)
  have h := hx.bind (f := fun a => Pure.pure (f a)) hf
  rwa [List.append_nil] at h

theorem run_eq_ok {reading : RowM α} {values : List Value} {a : α} (h : Reads reading values a) :
    RowReader.run reading values = .ok a := by
  have hrun := h [] 0
  rw [List.append_nil] at hrun
  rw [RowReader.run, hrun]

end Reads

/-!
## Single values
-/

theorem takes_next : Takes RowReader.next 1 := by
  intro r r' v h
  rcases r with ⟨values, position⟩
  cases values with
  | nil => cases h
  | cons =>
      cases h
      exact ⟨[v], rfl, rfl⟩

theorem reads_next (v : Value) : Reads RowReader.next [v] v :=
  fun _ _ => rfl

theorem takes_read (t : HostType) : Takes (RowReader.read t) 1 := by
  intro r r' v h
  rcases run_bind_eq_ok h with ⟨_, middle, hget, h⟩
  cases hget
  rcases run_bind_eq_ok h with ⟨w, last, hnext, h⟩
  have hlast : last = r' := by
    split at h <;> cases h
    rfl
  exact hlast ▸ takes_next r last w hnext

theorem reads_read {t : HostType} {w : Value} {v : t.Carrier} (h : t.read w = .ok v) :
    Reads (RowReader.read t) [w] v := by
  intro rest position
  have hget : (get : RowM RowReader).run ⟨w :: rest, position⟩ =
      (.ok ⟨w :: rest, position⟩, ⟨w :: rest, position⟩) := rfl
  have hnext := reads_next w rest position
  rw [List.singleton_append] at hnext ⊢
  rw [RowReader.read, run_bind, hget]
  dsimp only
  rw [run_bind, hnext]
  dsimp only
  rw [h]
  rfl

theorem takes_field (host : FieldHost) : Takes host.read 1 := by
  cases host with
  | raw => exact takes_next
  | host t => exact takes_read t

theorem reads_field {host : FieldHost} {w : Value} {v : host.Carrier} (h : host.ofValue w = .ok v) :
    Reads host.read [w] v := by
  cases host with
  | raw =>
      cases h
      exact reads_next w
  | host t => exact reads_read h

/-!
## Several values
-/

theorem takes_skip (n : Nat) : Takes (RowReader.skip n) n := by
  induction n with
  | zero => exact Takes.pure ()
  | succ n ih =>
      rw [RowReader.skip, Nat.add_comm]
      exact takes_next.bind fun _ => ih

theorem reads_skip (values : List Value) : Reads (RowReader.skip values.length) values () := by
  induction values with
  | nil => exact Reads.pure ()
  | cons v rest ih => exact (reads_next v).bind ih

theorem takes_take (n : Nat) : Takes (RowReader.take n) n := by
  induction n with
  | zero => exact Takes.pure []
  | succ n ih =>
      rw [RowReader.take, Nat.add_comm]
      exact takes_next.bind fun v => ih.bind_pure (v :: ·)

theorem reads_take (values : List Value) : Reads (RowReader.take values.length) values values := by
  induction values with
  | nil => exact Reads.pure []
  | cons v rest ih => exact (reads_next v).bind (ih.bind_pure (v :: ·))

theorem takes_mapM {f : α -> RowM β} (xs : List α) (h : forall x, Takes (f x) 1) :
    Takes (xs.mapM f) xs.length := by
  induction xs with
  | nil => exact Takes.pure []
  | cons x rest ih =>
      rw [List.mapM_cons, List.length_cons, Nat.add_comm]
      exact (h x).bind fun y => ih.bind_pure (y :: ·)

theorem takes_fromRow (m : Model) : Takes m.fromRow m.hosts.length :=
  takes_mapM m.hosts fun host => (takes_field host).bind_pure (FieldValue.mk host)

theorem reads_fromRow {m : Model} {i : Instance} {values : List Value}
    (hhosts : i.map (·.host) = m.hosts)
    (hvalues : List.Forall₂ (fun field w => field.host.ofValue w = .ok field.value) i values) :
    Reads m.fromRow values i := by
  unfold Model.fromRow
  rw [<- hhosts, List.mapM_map]
  clear hhosts
  induction hvalues with
  | nil => exact Reads.pure []
  | @cons field w rest more hfirst _ ih =>
      rw [List.mapM_cons]
      exact ((reads_field hfirst).bind_pure (FieldValue.mk field.host)).bind
        (ih.bind_pure (field :: ·))

end RowM

/-!
## Models
-/

/-- The instance is read from one value for each column of the table, and every field as the value
that it was written from. -/
structure Model.ReadsColumns (enums : EnumRegistry) (m : Model) : Prop where
  columns : forall t, m.table = .ok t -> m.hosts.length = t.columns.length
  inverts : forall host, host ∈ m.hosts -> forall (v : host.Carrier) (w : Value),
    FieldValue.write enums ⟨host, v⟩ = .ok w -> host.ofValue w = .ok v

namespace RowM

/-- A first value that is false or NULL, and then a value for each column. -/
def IsAbsent (columns : Nat) (values : List Value) : Prop :=
  exists flag rest, (flag = .bool false ∨ flag = .null) ∧ rest.length = columns ∧
    values = flag :: rest

theorem takes_readNullable {m : Model} {t : Table} (ht : m.table = .ok t)
    (hcolumns : m.hosts.length = t.columns.length) :
    Takes m.readNullable (t.columns.length + 1) := by
  unfold Model.readNullable
  rw [ht, Nat.add_comm]
  apply takes_next.bind
  intro flag
  split
  · rw [<- hcolumns]
    exact (takes_fromRow m).bind_pure some
  · exact (takes_skip t.columns.length).bind_pure fun _ => none
  · exact (takes_skip t.columns.length).bind_pure fun _ => none
  · exact Takes.throw _ _

theorem reads_readNullable_present {m : Model} {i : Instance} {values : List Value}
    (h : Reads m.fromRow values i) :
    Reads m.readNullable (.bool true :: values) (some i) :=
  (reads_next (.bool true)).bind (h.bind_pure some)

theorem reads_readNullable_absent {m : Model} {t : Table} (ht : m.table = .ok t)
    {values : List Value} (h : IsAbsent t.columns.length values) :
    Reads m.readNullable values none := by
  rcases h with ⟨flag, rest, hflag, hrest, rfl⟩
  have hskip : Reads (do RowReader.skip t.columns.length; return none) rest
      (none : Option Instance) := by
    rw [<- hrest]
    exact (reads_skip rest).bind_pure fun _ => none
  unfold Model.readNullable
  rw [ht]
  rcases hflag with rfl | rfl
  · exact (reads_next (.bool false)).bind hskip
  · exact (reads_next .null).bind hskip

end RowM

/-!
## Shaped rows
-/

def ShapedRow.ofEntries (named : List (String × ShapedValue)) : ShapedRow :=
  named.foldl (fun row entry => row.insert entry.1 entry.2) {}

end TypedQuery
