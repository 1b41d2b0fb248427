import TypedQuery.Proofs.Expr.Path
import TypedQuery.Proofs.Fragment.Leaf
import TypedQuery.Proofs.Server.Name

/-!
# References of a fragment

Under the frames it sits in, every column of a fragment is a reference and every table a relation of
a FROM list.  The name that a slot is bound to qualifies its columns unless the table has the same
name.
-/

namespace TypedQuery

open Server

def Server.Reference.written (ref : Reference) : String :=
  match ref.qualifier with
  | some q => aliasIdent q ++ "." ++ Text.quoteIdent ref.column
  | none => Text.quoteIdent ref.column

def Table.relation (t : Table) (name : Option String) : Relation :=
  ⟨name.getD t.name, t.columns.map (·.name)⟩

def Placed.relation? (p : Placed) : Option Relation :=
  match p.leaf with
  | .table slot t => some (t.relation (p.scopes.tableName? slot))
  | _ => none

namespace Scopes

def reference (scopes : Scopes) (slot : Slot) (name : String) : Reference :=
  ⟨scopes.qualifierName? slot, name⟩

theorem columnText_eq_written (scopes : Scopes) (slot : Slot) (name : String) :
    scopes.columnText slot name = (scopes.reference slot name).written := by
  unfold columnText reference Reference.written
  rw [scopes.qualifier?_eq]
  cases scopes.qualifierName? slot <;> rfl

end Scopes

/-!
## References to outer frames
-/

namespace Scopes

variable {scopes : Scopes} {slot : Slot} {aliases : AliasMap} {unqualified : Bool}
  {outer : List (AliasMap × Bool)} {b : Binding}

/-- A slot that the innermost frame does not bind has the binding of the frames around it, and
keeps its qualifier in an unqualified frame. -/
theorem qualifierName?_outer (hframes : scopes.frames = (aliases, unqualified) :: outer)
    (hinner : aliases.contains slot = false) (hb : (Scopes.mk outer).binding? slot = some b) :
    scopes.qualifierName? slot = b.writtenName? := by
  have hbinding : scopes.binding? slot = some b := by
    have hnone : aliases.binding? slot = none := by
      simpa [AliasMap.contains] using hinner
    unfold binding? at hb ⊢
    rw [hframes, List.findSome?_cons]
    simpa only [hnone] using hb
  have hname : scopes.tableName? slot = b.writtenName? := by
    rw [tableName?, hbinding]
  unfold qualifierName?
  rw [hframes]
  cases unqualified with
  | false => exact hname
  | true =>
      simp only [hinner]
      exact hname

end Scopes

namespace Binding

variable {b : Binding} {column : String}

/-- A reference qualified by the name of an outer relation passes every FROM list without a
relation of that name. -/
theorem level?_of_ne (h : b.name ≠ b.table) {inner rest : List (List Relation)}
    {relations : List Relation}
    (hinner : forall level, level ∈ inner -> forall r, r ∈ level -> r.name ≠ b.name)
    (houter : exists r, r ∈ relations ∧ r.name = b.name) :
    Reference.level? ⟨b.writtenName?, column⟩ (inner ++ relations :: rest) = some inner.length := by
  have hwritten : b.writtenName? = some b.name := if_neg h
  rw [hwritten]
  apply Reference.level?_append
  · intro level hlevel
    simp only [Reference.isTakenBy, List.any_eq_false, beq_iff_eq]
    exact hinner level hlevel
  · rcases houter with ⟨r, hr, hname⟩
    simp only [Reference.isTakenBy, List.any_eq_true, beq_iff_eq]
    exact ⟨r, hr, hname⟩

theorem level?_of_eq (h : b.name = b.table) {r : Relation} (hr : column ∈ r.columns)
    (rest : List (List Relation)) :
    Reference.level? ⟨b.writtenName?, column⟩ ([r] :: rest) = some 0 := by
  have hwritten : b.writtenName? = none := if_pos h
  rw [hwritten, Reference.level?, List.findIdx?_cons]
  simp [Reference.isTakenBy, hr]

end Binding

namespace Fragment

/-- A column of an outer slot is written with the name that the slot is bound to as its qualifier,
and then no relation of the queries in between, other than one of the very same name, can capture
it, exactly when that name is not the name of the slot's own table. -/
theorem outer_column_not_captured_iff {f : Fragment} {before after : List Placed} {p : Placed}
    (hleaves : f.leaves = before ++ p :: after) {slot : Slot} {name : String}
    (hleaf : p.leaf = .column slot name) {aliases : AliasMap} {unqualified : Bool}
    {outer : List (AliasMap × Bool)} (hframes : p.scopes.frames = (aliases, unqualified) :: outer)
    (hinner : aliases.contains slot = false) {b : Binding}
    (hb : (Scopes.mk outer).binding? slot = some b) :
    exists ref : Reference, ref.column = name ∧
      (forall mode : RenderMode, f.renderWith mode =
        after.foldl mode.writeLeaf ((before.foldl mode.writeLeaf {}).write ref.written)) ∧
      (ref.qualifier = some b.name <-> b.name ≠ b.table) ∧
      ((forall (inner : List (List Relation)) (relations : List Relation)
          (rest : List (List Relation)),
        (forall level, level ∈ inner -> forall r, r ∈ level -> r.name ≠ b.name) ->
        (exists r, r ∈ relations ∧ r.name = b.name ∧ name ∈ r.columns) ->
          ref.level? (inner ++ relations :: rest) = some inner.length) <-> b.name ≠ b.table) := by
  have href : p.scopes.reference slot name = ⟨b.writtenName?, name⟩ := by
    rw [Scopes.reference, Scopes.qualifierName?_outer hframes hinner hb]
  refine ⟨⟨b.writtenName?, name⟩, rfl, ?_, ?_, ?_, ?_⟩
  · intro mode
    have hpiece : p.piece = .sql (Reference.written ⟨b.writtenName?, name⟩) := by
      rw [Placed.piece, hleaf, <- href, <- Scopes.columnText_eq_written]
    rw [f.renderWith_eq_foldl, hleaves, List.foldl_append, List.foldl_cons,
      RenderMode.writeLeaf_eq, hpiece, RenderMode.writePiece]
  · unfold Binding.writtenName?
    split
    · rename_i heq
      simp [heq]
    · rename_i hne
      simp [hne]
  · intro h heq
    -- A relation of another name with the same column stands in the way of a bare reference.
    have hcaptured := h [[⟨b.name ++ "_", [name]⟩]] [⟨b.name, [name]⟩] [] ?_
      ⟨_, List.mem_singleton_self _, rfl, List.mem_singleton_self _⟩
    · rw [List.singleton_append, Binding.level?_of_eq heq (List.mem_singleton_self _)] at hcaptured
      cases hcaptured
    · intro level hlevel r hr
      rw [List.mem_singleton.mp hlevel] at hr
      rw [List.mem_singleton.mp hr]
      intro hname
      have hlength := congrArg String.length hname
      rw [String.length_append, show "_".length = 1 from rfl] at hlength
      omega
  · rintro h inner relations rest hnames ⟨r, hr, hname, -⟩
    exact Binding.level?_of_ne h hnames ⟨r, hr, hname⟩

def writerTable : Table where
  model := "Writer"
  name := "writer"
  schema := some "blog"
  columns := [{ field := "id", name := "id", type := .bigint, primaryKey := true }]

def entryTable : Table where
  model := "Entry"
  name := "entry"
  schema := some "blog"
  columns := [
    { field := "id", name := "id", type := .bigint, primaryKey := true },
    { field := "writer_id", name := "writer_id", type := .bigint }]

def writersWithEntries (aliases : AliasMap) : Fragment :=
  ⟨[.frame aliases false [
    .text "SELECT ", .column .root "id", .text " FROM ", .table .root writerTable,
    .text " WHERE EXISTS (SELECT 1 FROM ",
    .frame (.single (.ofPosition 1) entryTable) false [
      .table (.ofPosition 1) entryTable, .text " WHERE ",
      .column (.ofPosition 1) "writer_id", .text " = ", .column .root "id"],
    .text ")"]]⟩

def writerReference (aliases : AliasMap) : Placed :=
  ⟨⟨[(.single (.ofPosition 1) entryTable, false), (aliases, false)]⟩, .column .root "id"⟩

theorem positional_writer_not_captured :
    let aliases := AliasMap.positional [(.root, writerTable)]
    let f := writersWithEntries aliases
    let p := writerReference aliases
    let b : Binding := ⟨.root, "t0", "writer"⟩
    f.leaves = f.leaves.take 9 ++ p :: f.leaves.drop 10 ∧
      p.leaf = .column .root "id" ∧
      p.scopes.frames = (.single (.ofPosition 1) entryTable, false) :: [(aliases, false)] ∧
      (AliasMap.single (.ofPosition 1) entryTable).contains .root = false ∧
      (Scopes.mk [(aliases, false)]).binding? .root = some b ∧
      exists ref : Reference, ref.qualifier = some "t0" ∧
        forall inner relations rest,
          (forall level, level ∈ inner -> forall r, r ∈ level -> r.name ≠ "t0") ->
          (exists r : Relation, r ∈ relations ∧ r.name = "t0" ∧ "id" ∈ r.columns) ->
            ref.level? (inner ++ relations :: rest) = some inner.length := by
  intro aliases f p b
  have hleaves : f.leaves = f.leaves.take 9 ++ p :: f.leaves.drop 10 := rfl
  have hleaf : p.leaf = .column .root "id" := rfl
  have hframes : p.scopes.frames =
      (.single (.ofPosition 1) entryTable, false) :: [(aliases, false)] := rfl
  have hinner : (AliasMap.single (.ofPosition 1) entryTable).contains .root = false := rfl
  have hb : (Scopes.mk [(aliases, false)]).binding? .root = some b := rfl
  have hne : b.name ≠ b.table := by decide
  rcases outer_column_not_captured_iff hleaves hleaf hframes hinner hb with
    ⟨ref, -, -, hqualifier, hlevel⟩
  exact ⟨hleaves, hleaf, hframes, hinner, hb, ref, hqualifier.mpr hne, hlevel.mpr hne⟩

/-- Under the alias map of a single table the writer is written bare, and the entries, which have a
column of the same name, take the reference. -/
theorem single_writer_captured :
    let aliases := AliasMap.single .root writerTable
    let p := writerReference aliases
    let ref := p.scopes.reference .root "id"
    p ∈ (writersWithEntries aliases).leaves ∧
      (AliasMap.single (.ofPosition 1) entryTable).contains .root = false ∧
      aliases.contains .root = true ∧
      (writersWithEntries aliases).renderSimple =
        "SELECT \"id\" FROM \"blog\".\"writer\" WHERE EXISTS " ++
          "(SELECT 1 FROM \"blog\".\"entry\" WHERE \"writer_id\" = \"id\")" ∧
      ref.qualifier = none ∧
      ref.level? [[entryTable.relation none], [writerTable.relation none]] = some 0 := by
  refine ⟨?_, rfl, rfl, rfl, rfl, rfl⟩
  exact List.mem_of_getElem? (show (writersWithEntries _).leaves[9]? = some _ from rfl)

end Fragment

end TypedQuery
