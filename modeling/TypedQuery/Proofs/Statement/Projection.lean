import Mathlib.Algebra.GroupWithZero.Nat
import TypedQuery.Proofs.Fragment.Alias
import TypedQuery.Proofs.Fragment.Text
import TypedQuery.Proofs.Row.Reading
import TypedQuery.Proofs.Statement.Body
import TypedQuery.Proofs.Statement.Chain

/-!
# Projections and readings

The builder calls make the projection of a query and the reading of its rows side by side.  They
stay in step: each part of the projection has so many columns and the reading takes as many values,
so that an output laid out in the order of the SELECT list is read as this output again.
-/

namespace TypedQuery

/-!
## Widths
-/

namespace Scope

variable {tables : List (Slot × Table)} {slot : Slot} {t : Table}

theorem table_append (h : (Scope.mk tables).table slot = .ok t) (more : List (Slot × Table)) :
    (Scope.mk (tables ++ more)).table slot = .ok t := by
  unfold Scope.table at h ⊢
  dsimp only at h ⊢
  rw [List.find?_append]
  split at h
  · rename_i hfind
    rw [hfind]
    exact h
  · cases h

theorem table_concat (hfresh : slot ∉ tables.map (·.1)) (t : Table) :
    (Scope.mk (tables ++ [(slot, t)])).table slot = .ok t := by
  have hnone : tables.find? (·.1 = slot) = none := by
    rw [List.find?_eq_none]
    intro entry hentry hslot
    exact hfresh (List.mem_map.mpr ⟨entry, hentry, of_decide_eq_true hslot⟩)
  unfold Scope.table
  dsimp only
  rw [List.find?_append, hnone]
  simp

end Scope

/-- How many columns a part of the projection has in a query over these tables. -/
inductive Projection.Spans (tables : List (Slot × Table)) : Projection -> Nat -> Prop where
  | columns {slot : Slot} {t : Table} (h : (Scope.mk tables).table slot = .ok t) :
      Spans tables (.columns slot) t.columns.length
  | nullable {slot : Slot} {t : Table} (h : (Scope.mk tables).table slot = .ok t) :
      Spans tables (.nullable slot) (t.columns.length + 1)
  | expr (e : Expr) : Spans tables (.expr e) 1

theorem Projection.Spans.append {tables : List (Slot × Table)} {p : Projection} {n : Nat}
    (h : p.Spans tables n) (more : List (Slot × Table)) : p.Spans (tables ++ more) n := by
  cases h with
  | columns h => exact .columns (Scope.table_append h more)
  | nullable h => exact .nullable (Scope.table_append h more)
  | expr e => exact .expr e

theorem Projection.Spans.root (t : Table) :
    Spans [(.root, t)] (.columns .root) t.columns.length :=
  .columns (@Scope.table_concat [] .root List.not_mem_nil t)

namespace Select

variable {α β : Type}

theorem length_projected {c : Compiler} {p : Projection} {n : Nat} {items : List Fragment}
    {type : Option SqlType} (hspans : p.Spans c.scope.tables n)
    (h : projected c p = .ok (items, type)) : items.length = n := by
  cases hspans with
  | columns ht =>
      rcases Result.bind_eq_ok.mp h with ⟨t, ht', heq⟩
      cases ht.symm.trans ht'
      cases heq
      exact List.length_map _
  | nullable ht =>
      rcases Result.bind_eq_ok.mp h with ⟨t, ht', heq⟩
      cases ht.symm.trans ht'
      cases heq
      rw [List.length_cons, columns, List.length_map]
  | expr e =>
      rcases Result.bind_eq_ok.mp h with ⟨compiled, -, heq⟩
      cases heq
      rfl

theorem lengths_projected {c : Compiler} {projection : List Projection} {widths : List Nat}
    {parts : List (List Fragment × Option SqlType)}
    (hspans : List.Forall₂ (Projection.Spans c.scope.tables) projection widths)
    (hparts : projection.mapM (projected c) = .ok parts) : parts.map (·.1.length) = widths := by
  induction hspans generalizing parts with
  | nil =>
      cases hparts
      rfl
  | @cons p width rest widths hp _ ih =>
      cases Result.mapM_eq_ok.mp hparts with
      | cons hpart hrest =>
          rw [List.map_cons, length_projected hp hpart, ih (Result.mapM_eq_ok.mpr hrest)]

theorem spans_exprs (tables : List (Slot × Table)) (es : List Expr) :
    List.Forall₂ (Projection.Spans tables) (es.map .expr) (List.replicate es.length 1) := by
  induction es with
  | nil => exact .nil
  | cons e rest ih => exact .cons (.expr e) ih

/-!
## Reading shapes
-/

def ShapeReading.width : ShapeReading -> Nat
  | .scalar => 1
  | .model columns => columns + 1

theorem takes_shapeReading (reading : ShapeReading) : RowM.Takes reading.read reading.width := by
  cases reading with
  | scalar => exact RowM.takes_next.bind_pure ShapedValue.scalar
  | model columns =>
      unfold ShapeReading.read
      rw [ShapeReading.width, Nat.add_comm]
      apply (RowM.takes_read _).bind
      intro present
      split
      · exact (RowM.takes_take columns).bind_pure fun values => ShapedValue.model (some values)
      · exact (RowM.takes_skip columns).bind_pure fun _ => ShapedValue.model none

/-- The values of an entry of a shape: one for a scalar; for a model true and its columns, or what
stands for an absent one. -/
inductive ShapeReading.Lays : ShapeReading -> ShapedValue -> List Value -> Prop where
  | scalar (v : Value) : Lays .scalar (.scalar v) [v]
  | present (values : List Value) :
      Lays (.model values.length) (.model (some values)) (.bool true :: values)
  | absent {columns : Nat} {values : List Value} (h : RowM.IsAbsent columns values) :
      Lays (.model columns) (.model none) values

theorem reads_shapeReading {reading : ShapeReading} {v : ShapedValue} {values : List Value}
    (h : reading.Lays v values) : RowM.Reads reading.read values v := by
  cases h with
  | scalar v => exact (RowM.reads_next v).bind_pure ShapedValue.scalar
  | present values =>
      have hflag : RowM.Reads (RowReader.read (.option (.base .bool))) [.bool true] (some true) :=
        RowM.reads_read rfl
      exact hflag.bind
        ((RowM.reads_take values).bind_pure fun values => ShapedValue.model (some values))
  | absent h =>
      rcases h with ⟨flag, rest, hflag, hrest, rfl⟩
      have hskip : RowM.Reads (do RowReader.skip rest.length; return .model none) rest
          (ShapedValue.model none) :=
        (RowM.reads_skip rest).bind_pure fun _ => ShapedValue.model none
      rw [<- hrest]
      rcases hflag with rfl | rfl
      · have hread : RowM.Reads (RowReader.read (.option (.base .bool))) [.bool false]
            (some false) := RowM.reads_read rfl
        exact hread.bind hskip
      · have hread : RowM.Reads (RowReader.read (.option (.base .bool))) [.null] none :=
          RowM.reads_read rfl
        exact hread.bind hskip

def readEntry (row : ShapedRow) (entry : String × ShapeReading) : RowM ShapedRow := do
  return row.insert entry.1 (<- entry.2.read)

theorem projection_shape (s : Select α) (entries : List (String × ShapeEntry)) :
    (s.shape entries).projection = (s.shapeParts entries).1 := by
  unfold Select.shape
  dsimp only
  split <;> rfl

theorem decoder_shape (s : Select α) (entries : List (String × ShapeEntry)) :
    (s.shape entries).decoder = (s.shapeParts entries).2.1.foldlM readEntry {} := by
  unfold Select.shape
  dsimp only
  split <;> rfl

theorem takes_readEntries (readings : List (String × ShapeReading)) (row : ShapedRow) :
    RowM.Takes (readings.foldlM readEntry row) (readings.map (·.2.width)).sum := by
  induction readings generalizing row with
  | nil => exact RowM.Takes.pure row
  | cons entry rest ih =>
      rw [List.foldlM_cons, List.map_cons, List.sum_cons]
      exact ((takes_shapeReading entry.2).bind_pure (row.insert entry.1)).bind ih

theorem spans_shapeParts {s : Select α} {entries : List (String × ShapeEntry)}
    (h : (s.shapeParts entries).2.2 = none) :
    List.Forall₂ (Projection.Spans s.tables) (s.shapeParts entries).1
      ((s.shapeParts entries).2.1.map (·.2.width)) := by
  induction entries with
  | nil => exact .nil
  | cons entry rest ih =>
      rcases entry with ⟨name, entry⟩
      cases entry with
      | scalar e => exact .cons (.expr e) (ih h)
      | model slot =>
          unfold shapeParts at h ⊢
          dsimp only at h ⊢
          cases ht : s.table slot with
          | ok t =>
              rw [ht] at h
              exact .cons (.nullable ht) (ih h)
          | error e =>
              rw [ht] at h
              cases h

/-- The entries of a shape with their values, in the order of the SELECT list. -/
inductive EntriesLaid (s : Select α) : List (String × ShapeEntry) -> List (String × ShapedValue) ->
    List (Projection × List Value) -> Prop where
  | nil : EntriesLaid s [] [] []
  | scalar {entries : List (String × ShapeEntry)} {named : List (String × ShapedValue)}
      {cells : List (Projection × List Value)} (h : EntriesLaid s entries named cells)
      (name : String) (e : Expr) (v : Value) :
      EntriesLaid s ((name, .scalar e) :: entries) ((name, .scalar v) :: named)
        ((.expr e, [v]) :: cells)
  | model {entries : List (String × ShapeEntry)} {named : List (String × ShapedValue)}
      {cells : List (Projection × List Value)} (h : EntriesLaid s entries named cells)
      (name : String) {slot : Slot} {t : Table} {v : ShapedValue} {values : List Value}
      (ht : s.table slot = .ok t)
      (hv : (ShapeReading.model t.columns.length).Lays v values) :
      EntriesLaid s ((name, .model slot) :: entries) ((name, v) :: named)
        ((.nullable slot, values) :: cells)

theorem ShapeReading.Lays.length_eq {reading : ShapeReading} {v : ShapedValue}
    {values : List Value} (h : reading.Lays v values) : values.length = reading.width := by
  cases h with
  | scalar v => rfl
  | present values => rfl
  | absent h =>
      rcases h with ⟨flag, rest, -, hrest, rfl⟩
      rw [List.length_cons, hrest, ShapeReading.width]

theorem EntriesLaid.reads {s : Select α} {entries : List (String × ShapeEntry)}
    {named : List (String × ShapedValue)} {cells : List (Projection × List Value)}
    (h : s.EntriesLaid entries named cells) (row : ShapedRow) :
    cells.map (·.1) = (s.shapeParts entries).1 ∧
      (forall cell, cell ∈ cells -> cell.1.Spans s.tables cell.2.length) ∧
      RowM.Reads ((s.shapeParts entries).2.1.foldlM readEntry row) (cells.flatMap (·.2))
        (named.foldl (fun row entry => row.insert entry.1 entry.2) row) := by
  induction h generalizing row with
  | nil => exact ⟨rfl, by simp, RowM.Reads.pure row⟩
  | @scalar entries named cells _ name e v ih =>
      rcases ih (row.insert name (.scalar v)) with ⟨hparts, hspans, hreads⟩
      refine ⟨congrArg (Projection.expr e :: ·) hparts, ?_, ?_⟩
      · rw [List.forall_mem_cons]
        exact ⟨.expr e, hspans⟩
      · have hfirst := (reads_shapeReading (.scalar v)).bind_pure (row.insert name)
        exact hfirst.bind hreads
  | @model entries named cells _ name slot t v values ht hv ih =>
      rcases ih (row.insert name v) with ⟨hparts, hspans, hreads⟩
      unfold shapeParts
      dsimp only
      rw [ht]
      refine ⟨congrArg (Projection.nullable slot :: ·) hparts, ?_, ?_⟩
      · rw [List.forall_mem_cons]
        have hlength : values.length = t.columns.length + 1 := hv.length_eq
        exact ⟨hlength ▸ .nullable ht, hspans⟩
      · have hfirst := (reads_shapeReading hv).bind_pure (row.insert name)
        exact hfirst.bind hreads

end Select

/-!
## Layouts
-/

namespace Model

def Lays (enums : EnumRegistry) (m : Model) (i : Instance) (values : List Value) : Prop :=
  i.map (·.host) = m.hosts ∧
    (List.range m.hosts.length).mapM (m.columnValue enums i) = .ok values

/-- The values of an optional instance: true and those of its columns, or what stands for an absent
one. -/
def LaysOptional (enums : EnumRegistry) (m : Model) : Option Instance -> List Value -> Prop
  | some i, values => exists columns, m.Lays enums i columns ∧ values = .bool true :: columns
  | none, values => exists t, m.table = .ok t ∧ RowM.IsAbsent t.columns.length values

variable {enums : EnumRegistry} {m : Model} {values : List Value}

theorem Lays.length_eq {i : Instance} (h : m.Lays enums i values) :
    values.length = m.hosts.length := by
  have hlength := (Result.mapM_eq_ok.mp h.2).length_eq
  rwa [List.length_range, eq_comm] at hlength

theorem Lays.ofValue {i : Instance} (hm : m.ReadsColumns enums) (h : m.Lays enums i values) :
    List.Forall₂ (fun field w => field.host.ofValue w = .ok field.value) i values := by
  have hhosts : i.length = m.hosts.length := by
    rw [<- h.1, List.length_map]
  rw [List.forall₂_iff_get]
  refine ⟨hhosts.trans h.length_eq.symm, ?_⟩
  intro k hi hvalues
  have hcolumn := (List.forall₂_iff_get.mp (Result.mapM_eq_ok.mp h.2)).2 k
    (by rw [List.length_range, <- hhosts]; exact hi) hvalues
  rw [List.get_eq_getElem, List.getElem_range, columnValue, List.getElem?_eq_getElem hi] at hcolumn
  have hhost : i[k].host ∈ m.hosts := by
    rw [<- h.1]
    exact List.mem_map_of_mem (List.getElem_mem hi)
  exact hm.inverts _ hhost _ _ hcolumn

theorem Lays.reads {i : Instance} (hm : m.ReadsColumns enums) (h : m.Lays enums i values) :
    RowM.Reads m.fromRow values i :=
  RowM.reads_fromRow h.1 (h.ofValue hm)

theorem LaysOptional.reads {i : Option Instance} (hm : m.ReadsColumns enums)
    (h : m.LaysOptional enums i values) : RowM.Reads m.readNullable values i := by
  cases i with
  | none =>
      rcases h with ⟨t, ht, habsent⟩
      exact RowM.reads_readNullable_absent ht habsent
  | some i =>
      rcases h with ⟨columns, hcolumns, rfl⟩
      exact RowM.reads_readNullable_present (hcolumns.reads hm)

theorem LaysOptional.length_eq {i : Option Instance} {t : Table} (hm : m.ReadsColumns enums)
    (ht : m.table = .ok t) (h : m.LaysOptional enums i values) :
    values.length = t.columns.length + 1 := by
  cases i with
  | none =>
      rcases h with ⟨t', ht', flag, rest, -, hrest, rfl⟩
      cases ht.symm.trans ht'
      rw [List.length_cons, hrest]
  | some i =>
      rcases h with ⟨columns, hcolumns, rfl⟩
      rw [List.length_cons, hcolumns.length_eq, hm.columns t ht]

end Model

namespace Select.Chain

/-- The values of an output, gathered under the parts of the projection that they are columns of:
for each model its columns in order, and for each expression one value. -/
def Lays (enums : EnumRegistry) :
    {α : Type} -> Chain α -> α -> List (Projection × List Value) -> Prop
  | _, ofModel m, i, cells =>
      exists values, m.Lays enums i values ∧ cells = [(.columns .root, values)]
  | _, map c f, out, cells => exists inner, c.Lays enums inner cells ∧ f inner = out
  | _, clause c _, out, cells => c.Lays enums out cells
  | _, leftJoin c m _, (out, joined), cells =>
      exists left right, c.Lays enums out left ∧ m.LaysOptional enums joined right ∧
        cells = left ++ [(.nullable (.ofPosition c.select.tables.length), right)]
  | _, scalar _ host e, v, cells => exists w, host.ofValue w = .ok v ∧ cells = [(.expr e, [w])]
  | _, fields _ es, row, cells =>
      row.values.length = es.length ∧
        cells = (es.zip row.values).map fun entry => (.expr entry.1, [entry.2])
  | _, shape c entries, row, cells =>
      exists named, (named.map (·.1)).Nodup ∧ row = .ofEntries named ∧
        c.select.EntriesLaid entries named cells

variable {α : Type} {enums : EnumRegistry}

theorem fresh_slot (c : Chain α) :
    Slot.ofPosition c.select.tables.length ∉ c.select.tables.map (·.1) := by
  rw [c.slots_eq]
  intro hmem
  rcases List.mem_map.mp hmem with ⟨i, hi, hslot⟩
  have heq : i = c.select.tables.length := Slot.ofPosition_injective hslot
  exact absurd (List.mem_range.mp hi) (heq ▸ Nat.lt_irrefl i)

/-- Unless an error is kept, the reading takes as many values as the projection has columns. -/
theorem exists_widths (c : Chain α) (hmodels : forall m, m ∈ c.models -> m.ReadsColumns enums)
    (herror : c.select.error = none) :
    exists widths, List.Forall₂ (Projection.Spans c.select.tables) c.select.projection widths ∧
      RowM.Takes c.select.decoder widths.sum := by
  induction c with
  | ofModel m =>
      have hm := hmodels m List.mem_cons_self
      unfold select Select.ofModel at herror ⊢
      cases ht : m.table with
      | error e =>
          rw [ht] at herror
          cases herror
      | ok t =>
          have htakes := RowM.takes_fromRow m
          rw [hm.columns t ht] at htakes
          exact ⟨[t.columns.length], .cons (.root t) .nil, htakes⟩
  | map c f ih =>
      rcases ih hmodels herror with ⟨widths, hspans, htakes⟩
      exact ⟨widths, hspans, htakes.bind_pure f⟩
  | clause c k ih =>
      rw [select, k.error_apply] at herror
      rcases ih hmodels herror with ⟨widths, hspans, htakes⟩
      rw [select, k.tables_apply, k.projection_apply, k.decoder_apply]
      exact ⟨widths, hspans, htakes⟩
  | leftJoin c m on ih =>
      have hm := hmodels m (List.mem_append_right _ List.mem_cons_self)
      rcases exists_table_of_leftJoin herror with ⟨hnone, t, ht⟩
      rcases ih (fun m' hm' => hmodels m' (List.mem_append_left _ hm')) hnone with
        ⟨widths, hspans, htakes⟩
      have hslot := Scope.table_concat c.fresh_slot t
      rw [select, leftJoin_of_ok ht]
      refine ⟨widths ++ [t.columns.length + 1], ?_, ?_⟩
      · refine List.rel_append (hspans.imp fun _ _ h => h.append _) ?_
        exact .cons (.nullable hslot) .nil
      · rw [List.sum_append, List.sum_singleton]
        apply htakes.bind
        intro out
        exact (RowM.takes_readNullable ht (hm.columns t ht)).bind_pure fun right => (out, right)
  | scalar c host e ih => exact ⟨[1], .cons (.expr e) .nil, RowM.takes_field host⟩
  | fields c es ih =>
      refine ⟨List.replicate es.length 1, spans_exprs _ es, ?_⟩
      rw [List.sum_replicate_nat, Nat.mul_one]
      exact (RowM.takes_take es.length).bind_pure Row.mk
  | shape c entries ih =>
      rcases shapeParts_of_shape herror with ⟨-, hparts⟩
      rw [select, tables_shape, projection_shape, decoder_shape]
      exact ⟨_, spans_shapeParts hparts, takes_readEntries _ _⟩

/-- What an output is laid out as stands under the parts of the projection and is read as this
output again. -/
theorem Lays.reads {c : Chain α} (hmodels : forall m, m ∈ c.models -> m.ReadsColumns enums)
    (herror : c.select.error = none) {out : α} {cells : List (Projection × List Value)}
    (h : c.Lays enums out cells) :
    cells.map (·.1) = c.select.projection ∧
      (forall cell, cell ∈ cells -> cell.1.Spans c.select.tables cell.2.length) ∧
      RowM.Reads c.select.decoder (cells.flatMap (·.2)) out := by
  induction c generalizing cells with
  | ofModel m =>
      have hm := hmodels m List.mem_cons_self
      rcases h with ⟨values, hvalues, rfl⟩
      unfold select Select.ofModel at herror ⊢
      cases ht : m.table with
      | error e =>
          rw [ht] at herror
          cases herror
      | ok t =>
          have hspans := Projection.Spans.root t
          rw [<- hm.columns t ht, <- hvalues.length_eq] at hspans
          refine ⟨rfl, ?_, ?_⟩
          · rw [List.forall_mem_singleton]
            exact hspans
          · rw [List.flatMap_singleton]
            exact hvalues.reads hm
  | map c f ih =>
      rcases h with ⟨inner, hinner, rfl⟩
      rcases ih hmodels herror hinner with ⟨hparts, hspans, hreads⟩
      exact ⟨hparts, hspans, hreads.bind_pure f⟩
  | clause c k ih =>
      rw [select, k.error_apply] at herror
      rw [select, k.tables_apply, k.projection_apply, k.decoder_apply]
      exact ih hmodels herror h
  | leftJoin c m on ih =>
      rcases out with ⟨out, joined⟩
      rcases h with ⟨left, right, hleft, hright, rfl⟩
      have hm := hmodels m (List.mem_append_right _ List.mem_cons_self)
      rcases exists_table_of_leftJoin herror with ⟨hnone, t, ht⟩
      rcases ih (fun m' hm' => hmodels m' (List.mem_append_left _ hm')) hnone hleft with
        ⟨hparts, hspans, hreads⟩
      have hslot := Scope.table_concat c.fresh_slot t
      rw [select, leftJoin_of_ok ht]
      refine ⟨?_, ?_, ?_⟩
      · rw [List.map_append, hparts]
        rfl
      · rw [List.forall_mem_append, List.forall_mem_singleton, hright.length_eq hm ht]
        exact ⟨fun cell hcell => (hspans cell hcell).append _, .nullable hslot⟩
      · rw [List.flatMap_append, List.flatMap_singleton]
        exact hreads.bind ((hright.reads hm).bind_pure fun right => (out, right))
  | scalar c host e ih =>
      rcases h with ⟨w, hw, rfl⟩
      refine ⟨rfl, ?_, ?_⟩
      · rw [List.forall_mem_singleton]
        exact .expr e
      · exact RowM.reads_field hw
  | fields c es ih =>
      rcases h with ⟨hlength, rfl⟩
      have hvalues : ((es.zip out.values).map fun entry =>
          (Projection.expr entry.1, [entry.2])).flatMap (·.2) = out.values := by
        rw [List.flatMap_map]
        change (es.zip out.values).flatMap (fun entry => [entry.2]) = out.values
        rw [<- List.map_eq_flatMap, List.map_snd_zip (Nat.le_of_eq hlength)]
      refine ⟨?_, ?_, ?_⟩
      · rw [List.map_map]
        change (es.zip out.values).map (Projection.expr ∘ Prod.fst) = es.map .expr
        rw [<- List.map_map, List.map_fst_zip (Nat.le_of_eq hlength.symm)]
      · intro cell hcell
        rcases List.mem_map.mp hcell with ⟨entry, -, rfl⟩
        exact .expr entry.1
      · rw [hvalues, select, Select.fields, <- hlength]
        exact (RowM.reads_take out.values).bind_pure Row.mk
  | shape c entries ih =>
      rcases h with ⟨named, -, rfl, hentries⟩
      rcases hentries.reads {} with ⟨hparts, hspans, hreads⟩
      rw [select, tables_shape, projection_shape, decoder_shape]
      exact ⟨hparts, hspans, hreads⟩

end Select.Chain

/-!
## Built queries
-/

namespace Select

variable {α : Type} {s : Select α}

theorem extends_joinClauses {query result : Fragment} {slots : Nat}
    {clauses : List ((Slot × Table) × Expr)}
    (h : s.joinClauses query slots clauses = .ok result) : result.Extends query := by
  induction clauses generalizing query slots with
  | nil =>
      cases h
      exact Fragment.Extends.refl _
  | cons clause rest ih =>
      rcases clause with ⟨⟨slot, t⟩, on⟩
      rcases Result.bind_eq_ok.mp h with ⟨condition, -, hrest⟩
      have hjoin := ((((Fragment.Extends.refl query).push (.text " LEFT JOIN ")).push
        (.table slot t)).push (.text " ON (")).push (.nested condition.query.parts)
      exact (ih hrest).trans (hjoin.push (.text ")"))

theorem extends_filtered {f g : Fragment} {c : Compiler} {predicates : List Expr}
    (h : f.filtered c predicates = .ok g) : g.Extends f := by
  unfold Fragment.filtered at h
  split at h
  · cases h
    exact Fragment.Extends.refl f
  · rcases Result.bind_eq_ok.mp h with ⟨compiled, -, hg⟩
    cases hg
    exact ((Fragment.Extends.refl f).push _).push _

theorem extends_ordered {query result : Fragment} (h : s.ordered query = .ok result) :
    result.Extends query := by
  rcases Result.bind_eq_ok.mp h with ⟨items, -, h⟩
  have hitems : (if items.isEmpty then query else
      (query.text " ORDER BY ").joined items ", ").Extends query := by
    split
    · exact Fragment.Extends.refl query
    · exact ((Fragment.Extends.refl query).push _).joined items ", "
  cases h
  cases s.limit <;> cases s.offset
  · exact hitems
  · exact hitems.push _
  · exact hitems.push _
  · exact (hitems.push _).push _

/-- The SELECT list of a query is made of its projection, part by part. -/
theorem text_build {statement : Statement (List α)} (h : s.build = .ok statement) :
    exists parts tail, s.projection.mapM (projected (s.compiler s.tables.length)) = .ok parts ∧
      statement.query.renderSimple =
        s.verb ++ ",".intercalate
          ((parts.flatMap (·.1)).map fun item => (s.framed item).renderSimple) ++
          " FROM " ++ tail := by
  rcases Result.bind_eq_ok.mp h with ⟨⟨body, single⟩, hbody, heq⟩
  cases heq
  rcases body_cases hbody with
    ⟨parts, head, root, t, rest, joined, filtered, hparts, hhead, -, hjoined, hfiltered, hordered⟩
  have hextends : body.Extends (head.text " FROM ") :=
    ((extends_ordered hordered).trans (extends_filtered hfiltered)).trans
      ((extends_joinClauses hjoined).trans ((Fragment.Extends.refl _).push _))
  have hframed : forall item : Fragment, (s.framed item).renderSimple =
      item.simpleIn (Scopes.push {} s.aliases false) :=
    fun item => Fragment.renderSimple_framed ⟨item, s.aliases, false⟩
  rcases hextends (Scopes.push {} s.aliases false) with ⟨tail, htail⟩
  refine ⟨parts, tail, hparts, ?_⟩
  rw [hframed, htail, Fragment.simpleIn_text, hhead, Fragment.simpleIn_joined,
    Fragment.simpleIn_text, Fragment.simpleIn_empty, String.empty_append]
  simp only [hframed, verb]

namespace Chain

/-- The SELECT list of a statement, part by part of the projection, and the reading of its rows
stand side by side. -/
structure Aligned (enums : EnumRegistry) (c : Chain α) (statement : Statement (List α))
    (parts : List (List Fragment × Option SqlType)) : Prop where
  projected : c.select.projection.mapM (projected (c.select.compiler c.select.tables.length)) =
    .ok parts
  /-- The columns are the ones that the statement lists. -/
  listed : exists tail, statement.query.renderSimple =
    c.select.verb ++ ",".intercalate
      ((parts.flatMap (·.1)).map fun item => (c.select.framed item).renderSimple) ++
      " FROM " ++ tail
  /-- A row is read from as many values as there are columns, whatever the values. -/
  takes : RowM.Takes c.select.decoder (parts.flatMap (·.1)).length
  /-- An output has a value for every column, under the part that the column belongs to. -/
  laid : forall (out : α) (cells : List (Projection × List Value)), c.Lays enums out cells ->
    cells.map (·.1) = c.select.projection ∧
      cells.map (·.2.length) = parts.map (·.1.length)
  /-- Rows that are laid out for outputs are read as these outputs. -/
  decodes : forall (outs : List α) (rows : List (List Value)) (affected : Nat),
    List.Forall₂ (fun out row => exists cells, c.Lays enums out cells ∧
      row = cells.flatMap (·.2)) outs rows -> statement.decode ⟨rows, affected⟩ = .ok outs
  /-- A row with fewer values than columns cannot be read. -/
  fails : forall (rows : List (List Value)) (affected : Nat) (row : List Value), row ∈ rows ->
    row.length < (parts.flatMap (·.1)).length ->
      exists e, statement.decode ⟨rows, affected⟩ = .error e

/-- Whatever the chain of calls, projection and reading of a query that is built are aligned. -/
theorem exists_aligned {enums : EnumRegistry} {c : Chain α} {statement : Statement (List α)}
    (hmodels : forall m, m ∈ c.models -> m.ReadsColumns enums)
    (hbuild : c.select.build = .ok statement) : exists parts, c.Aligned enums statement parts := by
  rcases text_build hbuild with ⟨parts, tail, hparts, htext⟩
  rcases Result.bind_eq_ok.mp hbuild with ⟨⟨body, single⟩, hbody, heq⟩
  cases heq
  have herror := error_of_body hbody
  rcases c.exists_widths hmodels herror with ⟨widths, hspans, htakes⟩
  have htables : (c.select.compiler c.select.tables.length).scope.tables = c.select.tables :=
    List.take_length
  rw [<- htables] at hspans
  have hcount : (parts.flatMap (·.1)).length = widths.sum := by
    rw [List.length_flatMap, lengths_projected hspans hparts]
  refine ⟨parts, ⟨hparts, ⟨tail, htext⟩, hcount ▸ htakes, ?_, ?_, ?_⟩⟩
  · intro out cells hcells
    rcases hcells.reads hmodels herror with ⟨hprojection, hwidths, -⟩
    refine ⟨hprojection, (lengths_projected ?_ hparts).symm⟩
    rw [<- hprojection, htables, List.forall₂_map_left_iff, List.forall₂_map_right_iff,
      List.forall₂_same]
    exact hwidths
  · intro outs rows affected hrows
    apply Result.mapM_eq_ok.mpr
    apply hrows.flip.imp
    rintro row out ⟨cells, hcells, rfl⟩
    exact (hcells.reads hmodels herror).2.2.run_eq_ok
  · intro rows affected row hrow hfew
    rw [hcount] at hfew
    rcases htakes.exists_error hfew with ⟨e, he⟩
    cases hmap : rows.mapM (RowReader.run c.select.decoder) with
    | error e' => exact ⟨e', hmap⟩
    | ok outs =>
        rcases Result.exists_image_of_mapM hmap hrow with ⟨out, -, hout⟩
        cases he.symm.trans hout

def author : Model where
  name := "Author"
  table := .ok {
    model := "Author"
    name := "author"
    schema := none
    columns := [
      { field := "id", name := "id", type := .bigint, primaryKey := true },
      { field := "name", name := "name", type := .text, nullable := true }] }
  hosts := [.host (.base .int64), .host (.option (.base .text))]

def review : Model where
  name := "Review"
  table := .ok {
    model := "Review"
    name := "review"
    schema := none
    columns := [
      { field := "author", name := "author_id", type := .bigint },
      { field := "stars", name := "stars", type := .integer }] }
  hosts := [.host (.base .int64), .host (.base .int16)]

def reviewsJoined : Chain ((Instance × Option Instance) × Option Instance) :=
  ((Chain.ofModel review).leftJoin author
    (.binary .eq (.col "author") (.slotCol (.ofPosition 1) "id"))).leftJoin author
      (.binary .eq (.col "stars") (.slotCol (.ofPosition 2) "id"))

def nameless : Instance :=
  [⟨.host (.base .int64), (2 : Int64)⟩, ⟨.host (.option (.base .text)), none⟩]

def fourStars : Instance :=
  [⟨.host (.base .int64), (2 : Int64)⟩, ⟨.host (.base .int16), (4 : Int16)⟩]

theorem author_readsColumns : author.ReadsColumns {} := by
  constructor
  · intro t ht
    cases ht
    rfl
  · rintro host (_ | ⟨_, _ | ⟨_, hnil⟩⟩) v w h
    · exact HostType.read_of_write rfl trivial h
    · have hshapes : HostType.ShapesInvert (.option (.base .text)) v := by
        cases v <;> trivial
      exact HostType.read_of_write rfl hshapes h
    · cases hnil

theorem review_readsColumns : review.ReadsColumns {} := by
  constructor
  · intro t ht
    cases ht
    rfl
  · rintro host (_ | ⟨_, _ | ⟨_, hnil⟩⟩) v w h
    · exact HostType.read_of_write rfl trivial h
    · exact HostType.read_of_write rfl trivial h
    · cases hnil

theorem reviewsJoined_aligned :
    (forall m, m ∈ reviewsJoined.models -> m.ReadsColumns {}) ∧
      exists statement, reviewsJoined.select.build = .ok statement ∧
        (exists parts, reviewsJoined.Aligned {} statement parts) ∧
        statement.decode
            ⟨[[.bigint 2, .int 4, .bool true, .bigint 2, .null, .null, .null, .null]], 1⟩ =
          .ok [((fourStars, some nameless), none)] := by
  have hmodels : forall m, m ∈ reviewsJoined.models -> m.ReadsColumns {} := by
    rintro m (_ | ⟨_, _ | ⟨_, _ | ⟨_, hnil⟩⟩⟩)
    · exact review_readsColumns
    · exact author_readsColumns
    · exact author_readsColumns
    · cases hnil
  have hbuilds : exists statement, reviewsJoined.select.build = .ok statement := ⟨_, rfl⟩
  rcases hbuilds with ⟨statement, hbuild⟩
  rcases exists_aligned hmodels hbuild with ⟨parts, haligned⟩
  refine ⟨hmodels, statement, hbuild, ⟨parts, haligned⟩, ?_⟩
  have hreview : (Chain.ofModel review).Lays {} fourStars
      [(.columns .root, [.bigint 2, .int 4])] := ⟨_, ⟨rfl, rfl⟩, rfl⟩
  have hpresent : author.LaysOptional {} (some nameless) [.bool true, .bigint 2, .null] :=
    ⟨_, ⟨rfl, rfl⟩, rfl⟩
  have habsent : author.LaysOptional {} none [.null, .null, .null] :=
    ⟨_, rfl, .null, [.null, .null], Or.inr rfl, rfl, rfl⟩
  have hlaid : reviewsJoined.Lays {} ((fourStars, some nameless), none) _ :=
    ⟨_, _, ⟨_, _, hreview, hpresent, rfl⟩, habsent, rfl⟩
  exact haligned.decodes _ _ 1 (.cons ⟨_, hlaid, rfl⟩ .nil)

end Chain
end Select
end TypedQuery
