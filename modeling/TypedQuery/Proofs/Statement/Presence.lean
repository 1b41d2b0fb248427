import TypedQuery.Proofs.Expr.Qualified
import TypedQuery.Proofs.Fragment.Text
import TypedQuery.Proofs.Row.Reading
import TypedQuery.Proofs.Server.RowTest
import TypedQuery.Proofs.Statement.Condition
import TypedQuery.Proofs.Statement.Join

/-!
# Whether a joined row is present

Before the columns of a joined table a query selects whether the table matched: whether its key is
not NULL, or without a key whether its columns are not all NULL.  A row that matched is told by this
unless the table has no key and all values of the row are NULL, which its columns may all be.
-/

namespace TypedQuery

open Server

/-!
## Joined rows
-/

theorem exists_partner {α β : Type} {R : α -> β -> Prop} {xs : List α} {ys : List β}
    (h : List.Forall₂ R xs ys) {x : α} (hx : x ∈ xs) : exists y, (x, y) ∈ xs.zip ys ∧ R x y := by
  rcases List.forall₂_iff_zip.mp h with ⟨hlength, hpairs⟩
  rw [<- List.map_fst_zip (Nat.le_of_eq hlength)] at hx
  rcases List.mem_map.mp hx with ⟨⟨_, y⟩, hy, rfl⟩
  exact ⟨y, hy, hpairs hy⟩

namespace Table

/-- NULL is the value of columns that accept it only, and never that of the key. -/
def Holds (t : Table) (values : List Value) : Prop :=
  List.Forall₂ (fun column v => v.isNull = true ->
    column.nullable = true ∧ column.primaryKey = false) t.columns values

theorem columns_ne_nil_of_validate {t : Table} (h : t.validate = .ok ()) : t.columns ≠ [] := by
  rintro hempty
  rw [validate, hempty] at h
  cases h

/-- What a join puts out for the columns of a table: the row that matched, or NULL throughout. -/
def joined (t : Table) : Option (List Value) -> List Value
  | some values => values
  | none => List.replicate t.columns.length .null

theorem length_joined {t : Table} {row : Option (List Value)}
    (h : forall values, row = some values -> t.Holds values) :
    (t.joined row).length = t.columns.length := by
  cases row with
  | none => exact List.length_replicate
  | some values => exact (h values rfl).length_eq.symm

/-- Whether there is a row that is told from none: one with a key, or with a value. -/
def detects (t : Table) : Option (List Value) -> Bool
  | some values => t.primaryKey?.isSome || values.any fun v => !v.isNull
  | none => false

/-- A row that a table may have is detected where a column needs a value. -/
theorem detects_of_holds {t : Table} {values : List Value} (h : t.Holds values) {column : Column}
    (hcolumn : column ∈ t.columns) (hvalue : column.primaryKey = true ∨ column.nullable = false) :
    t.detects (some values) = true := by
  rcases exists_partner h hcolumn with ⟨v, hv, hholds⟩
  cases hnull : v.isNull with
  | true =>
      rcases hholds hnull with ⟨hnullable, hprimary⟩
      rcases hvalue with hkey | hrequired
      · rw [hkey] at hprimary
        cases hprimary
      · rw [hrequired] at hnullable
        cases hnullable
  | false =>
      have hany : (values.any fun v => !v.isNull) = true :=
        List.any_eq_true.mpr ⟨v, (List.of_mem_zip hv).2, by rw [hnull]; rfl⟩
      rw [detects, hany, Bool.or_true]

theorem detects_nulls (t : Table)
    (h : forall column, column ∈ t.columns -> column.primaryKey = false) (n : Nat) :
    t.detects (some (List.replicate n .null)) = false := by
  have hkey : t.primaryKey? = none :=
    firstColumn?_eq_none_iff.mpr fun _ column hcolumn => h column (List.mem_of_getElem? hcolumn)
  rw [detects, hkey]
  simp [Value.isNull]

end Table

/-!
## Fragments without values
-/

namespace Fragment

variable {scopes : Scopes} {f inner : Fragment}

def Unbound (scopes : Scopes) (f : Fragment) : Prop :=
  Piece.values (Part.pieces scopes f.parts) = []

theorem values_push (scopes : Scopes) (f : Fragment) (part : Part) :
    Piece.values (Part.pieces scopes (f.push part).parts) =
      Piece.values (Part.pieces scopes f.parts) ++ Piece.values (Part.pieces scopes [part]) := by
  show Piece.values (Part.pieces scopes (pushPart part f.parts)) = _
  rcases pushPart_cases part f.parts with hpush | ⟨before, s, t, hparts, rfl, hpush⟩
  · rw [hpush, Part.pieces_append, Piece.values_append]
  · have hmerged : Piece.values (Part.pieces scopes [.text (s ++ t)]) = [] := rfl
    have hlast : Piece.values (Part.pieces scopes [.text s]) = [] := rfl
    have hadded : Piece.values (Part.pieces scopes [.text t]) = [] := rfl
    rw [hpush, hparts, Part.pieces_append, Part.pieces_append, Piece.values_append,
      Piece.values_append, hmerged, hlast, hadded, List.append_nil, List.append_nil]

theorem unbound_push {part : Part} : (f.push part).Unbound scopes <->
    f.Unbound scopes ∧ Piece.values (Part.pieces scopes [part]) = [] := by
  rw [Unbound, values_push, List.append_eq_nil_iff]
  rfl

theorem Unbound.text (h : f.Unbound scopes) (s : String) : (f.text s).Unbound scopes :=
  unbound_push.mpr ⟨h, rfl⟩

theorem Unbound.column (h : f.Unbound scopes) (slot : Slot) (name : String) :
    (f.column slot name).Unbound scopes :=
  unbound_push.mpr ⟨h, rfl⟩

theorem Unbound.nested (h : f.Unbound scopes) (hinner : inner.Unbound scopes) :
    (f.nested inner).Unbound scopes := by
  refine unbound_push.mpr ⟨h, ?_⟩
  rwa [Part.pieces_nested]

theorem Unbound.joined (h : f.Unbound scopes) {items : List Fragment} {separator : String}
    (hitems : forall item, item ∈ items -> item.Unbound scopes) :
    (f.joined items separator).Unbound scopes := by
  cases items with
  | nil => exact h
  | cons item rest =>
      have hrest : forall (more : List Fragment) (g : Fragment), g.Unbound scopes ->
          (forall item, item ∈ more -> item.Unbound scopes) ->
          (more.foldl (fun f item => (f.text separator).nested item) g).Unbound scopes := by
        intro more
        induction more with
        | nil => exact fun _ hg _ => hg
        | cons next more ih =>
            intro g hg hmore
            exact ih _ ((hg.text separator).nested (hmore next List.mem_cons_self))
              fun item hitem => hmore item (List.mem_cons_of_mem _ hitem)
      exact hrest rest _ (h.nested (hitems item List.mem_cons_self))
        fun item hitem => hitems item (List.mem_cons_of_mem _ hitem)

end Fragment

theorem Piece.text_marks_of_values {pieces : List Piece} (h : values pieces = []) (p : Placeholder)
    (count : Nat) : Mark.text p (marks count pieces) = simpleText pieces := by
  induction pieces with
  | nil => exact Mark.text_nil p
  | cons piece rest ih =>
      cases piece with
      | sql text =>
          rw [marks, Mark.text_cons, ih h]
          rfl
      | value v => cases h

namespace Select

variable {α : Type} {s : Select α} {slot : Slot} {t : Table}

theorem sql_framed {f : Fragment} (h : f.Unbound s.outermost) (mode : RenderMode) :
    ((s.framed f).renderWith mode).sql = f.simpleIn s.outermost := by
  have hpieces : (s.framed f).pieces = Part.pieces s.outermost f.parts :=
    congrArg (List.map Placed.piece) (s.leaves_framed f)
  cases mode with
  | simple => rw [Fragment.renderWith_simple, hpieces, Fragment.simpleIn]
  | bound p =>
      rw [Fragment.renderWith_bound, Fragment.marks, hpieces, Piece.text_marks_of_values h]
      rfl

/-!
## The text of an indicator
-/

theorem unbound_indicator (scopes : Scopes) (slot : Slot) (t : Table) :
    (indicator slot t).Unbound scopes := by
  have hempty : Fragment.empty.Unbound scopes := rfl
  unfold indicator
  split
  · exact (hempty.column _ _).text _
  · refine ((hempty.text _).joined fun item hitem => ?_).text _
    rcases List.mem_map.mp hitem with ⟨column, -, rfl⟩
    exact hempty.column _ _

theorem simpleIn_columnAlone (scopes : Scopes) (slot : Slot) (name : String) :
    (Fragment.empty.column slot name).simpleIn scopes = scopes.columnText slot name :=
  String.append_empty

theorem simpleIn_indicator_key {index : Nat} {key : Column}
    (hkey : t.primaryKey? = some (index, key)) (scopes : Scopes) (slot : Slot) :
    (indicator slot t).simpleIn scopes = scopes.columnText slot key.name ++ " IS NOT NULL" := by
  rw [indicator, hkey]
  dsimp only
  rw [Fragment.simpleIn_text, simpleIn_columnAlone]

theorem simpleIn_indicator_keyless (hkey : t.primaryKey? = none) (scopes : Scopes) (slot : Slot) :
    (indicator slot t).simpleIn scopes =
      "NOT ((" ++ ", ".intercalate (t.columns.map fun c => scopes.columnText slot c.name) ++
        ") IS NULL)" := by
  have hcolumns : (columns slot t).map (Fragment.simpleIn scopes) =
      t.columns.map fun c => scopes.columnText slot c.name := by
    rw [columns, List.map_map]
    exact List.map_congr_left fun c _ => simpleIn_columnAlone scopes slot c.name
  rw [indicator, hkey]
  dsimp only
  rw [Fragment.simpleIn_text, Fragment.simpleIn_joined, Fragment.simpleIn_text,
    Fragment.simpleIn_empty, String.empty_append, hcolumns]

/-!
## Qualifiers of slots
-/

theorem isTableWord_ofPosition (i : Nat) : isTableWord (Slot.ofPosition i).name = true := by
  have hwords : forall w, w ∈ reservedWords ++ functionWords ->
      w.toList.any Char.isDigit = false := by decide +kernel
  have hdigit : (Slot.ofPosition i).name.toList.any Char.isDigit = true := by
    rw [Slot.ofPosition, String.toList_append, List.any_append, Number.toList_toString]
    rcases List.exists_mem_of_ne_nil _ (Nat.toDigits_ne_nil (n := i) (b := 10)) with ⟨c, hc⟩
    have hc' : c.isDigit = true := Nat.isDigit_of_mem_toDigits (by decide) (by decide) hc
    rw [List.any_eq_true.mpr ⟨c, hc, hc'⟩, Bool.or_true]
  have hnot : (Slot.ofPosition i).name ∉ reservedWords ++ functionWords := by
    intro hmem
    rw [hwords _ hmem] at hdigit
    cases hdigit
  simpa [isTableWord] using hnot

theorem WellFormed.qualifier_allowed (h : s.WellFormed) (hmem : (slot, t) ∈ s.tables) :
    (s.outermost.qualifierName? slot).all isQualifier = true := by
  by_cases hjoined : 2 ≤ s.tables.length
  · rcases List.mem_iff_getElem?.mp hmem with ⟨i, hi⟩
    rw [outermost, Scopes.qualifierName?_push {} (h.binding?_aliases hjoined hmem),
      Binding.writtenName?]
    split
    · rfl
    · rw [Option.all_some, isQualifier, h.slot_eq hi, isTableWord_ofPosition, Bool.or_true]
  · have hsingle : s.tables = [(slot, t)] := by
      rcases hs : s.tables with _ | ⟨entry, _ | ⟨next, rest⟩⟩
      · rw [hs] at hmem
        cases hmem
      · rw [hs] at hmem
        rw [List.mem_singleton.mp hmem]
      · rw [hs] at hjoined
        exact absurd (Nat.le_add_left 2 rest.length) hjoined
    have haliases : s.aliases = .single slot t := by
      rw [aliases, hsingle]
    have hbinding : s.aliases.binding? slot = some ⟨slot, t.name, t.name⟩ := by
      rw [haliases]
      exact AliasMap.binding?_single slot t
    rw [outermost, Scopes.qualifierName?_push {} hbinding, Binding.writtenName?, if_pos rfl]
    rfl

/-!
## The truth of an indicator
-/

/-- The server finds the values of a joined row at the columns of a slot. -/
structure Shows (s : Select α) (slot : Slot) (t : Table) (cells : Reference -> Option Value)
    (row : Option (List Value)) : Prop where
  holds : forall values, row = some values -> t.Holds values
  finds : List.Forall₂ (fun column v => cells (s.outermost.reference slot column.name) = some v)
    t.columns (t.joined row)

/-- The truth of the indicator of a slot, as the server reads it in a query. -/
def presence? (s : Select α) (slot : Slot) (t : Table) (mode : RenderMode) (conforming : Bool)
    (cells : Reference -> Option Value) : Option Truth :=
  (readRow? conforming (fun _ => none) ((s.framed (indicator slot t)).renderWith mode).sql).bind
    (Tree.truth? cells)

variable {mode : RenderMode} {conforming : Bool} {cells : Reference -> Option Value}
  {row : Option (List Value)}

theorem isQualified_columnTree (h : s.WellFormed) (hmem : (slot, t) ∈ s.tables) (name : String) :
    (s.outermost.columnTree slot name).isQualified = true := by
  have hallowed := h.qualifier_allowed hmem
  unfold Scopes.columnTree
  cases hname : s.outermost.qualifierName? slot with
  | none => rfl
  | some qualifier =>
      rw [hname] at hallowed
      exact hallowed

/-- A table with a key is told by its key. -/
theorem presence?_key (h : s.WellFormed) (hmem : (slot, t) ∈ s.tables) {index : Nat}
    {key : Column} (hkey : t.primaryKey? = some (index, key)) {v : Value}
    (hcell : cells (s.outermost.reference slot key.name) = some v) :
    s.presence? slot t mode conforming cells = some (some (!v.isNull)) := by
  have hread : readRow? conforming (fun _ => none)
      (s.outermost.columnText slot key.name ++ " IS NOT NULL") =
        some (.isNull true (s.outermost.columnTree slot key.name)) := by
    have hcolumn := @atomText_column conforming (fun _ => none) s.outermost slot key.name
    have hwhole := (hcolumn.isNull true).whole
    rw [nullTest, if_pos rfl, <- String.toList_append] at hwhole
    exact readRow?_of_read? (hwhole.read?_of_isQualified (isQualified_columnTree h hmem key.name))
  have hmembers : (s.outermost.columnTree slot key.name).members? cells = some [v] :=
    congrArg (Option.map fun v => [v]) hcell
  rw [presence?, sql_framed (unbound_indicator _ _ _), simpleIn_indicator_key hkey, hread,
    Option.bind_some, Tree.truth?, hmembers]
  simp

/-- A table without a key is told by any value. -/
theorem presence?_keyless (h : s.WellFormed) (hmem : (slot, t) ∈ s.tables)
    (hkey : t.primaryKey? = none) {values : List Value}
    (hcells : List.Forall₂ (fun column v =>
      cells (s.outermost.reference slot column.name) = some v) t.columns values) :
    s.presence? slot t mode conforming cells = some (some (values.any fun v => !v.isNull)) := by
  have hne : t.columns.map (fun c => s.outermost.columnTree slot c.name) ≠ [] :=
    mt List.map_eq_nil_iff.mp (Table.columns_ne_nil_of_validate (h.valid slot t hmem))
  have htexts : List.Forall₂ (WholeText conforming fun _ => none)
      ((t.columns.map fun c => s.outermost.columnText slot c.name).map String.toList)
      (t.columns.map fun c => s.outermost.columnTree slot c.name) := by
    rw [List.map_map, List.forall₂_map_left_iff, List.forall₂_map_right_iff, List.forall₂_same]
    exact fun c _ => (atomText_column s.outermost slot c.name).whole
  have hqualified : Tree.allQualified
      (t.columns.map fun c => s.outermost.columnTree slot c.name) = true := by
    rw [Tree.allQualified_iff]
    intro tree htree
    rcases List.mem_map.mp htree with ⟨c, -, rfl⟩
    exact isQualified_columnTree h hmem c.name
  have hmembers := Tree.members?_rowTree hne (List.forall₂_map_left_iff.mpr hcells)
  rw [presence?, sql_framed (unbound_indicator _ _ _), simpleIn_indicator_keyless hkey,
    readRow?_negated hne htexts hqualified, Option.bind_some, Tree.truth?_negated hmembers]

def valueIn? (relations : List Relation) (rows : List (List Value)) (ref : Reference) :
    Option Value :=
  (ref.resolve? relations).bind fun place => rows[place.1]?.bind fun values => values[place.2]?

theorem WellFormed.shows_of_rows (h : s.WellFormed) (hjoined : 2 ≤ s.tables.length) {i : Nat}
    (hi : s.tables[i]? = some (slot, t)) (hname : t.name ≠ slot.name) {rows : List (List Value)}
    (hrow : rows[i]? = some (t.joined row))
    (hholds : forall values, row = some values -> t.Holds values) :
    s.Shows slot t (valueIn? (s.tables.map relationOf) rows) row := by
  refine ⟨hholds, List.forall₂_iff_get.mpr ⟨(Table.length_joined hholds).symm, ?_⟩⟩
  intro j hj hj'
  have hcolumn : (t.columns.map (·.name))[j]? = some (t.columns.get ⟨j, hj⟩).name := by
    rw [List.getElem?_map, List.getElem?_eq_getElem hj]
    rfl
  have hlast : i < s.tables.length := (List.getElem?_eq_some_iff.mp hi).1
  have hresolves := (h.resolve?_iff hjoined hi hcolumn hlast).mpr (Or.inl hname)
  rw [List.take_of_length_le (Nat.le_of_eq (List.length_map _))] at hresolves
  rw [valueIn?, hresolves, Option.bind_some, hrow, Option.bind_some, List.getElem?_eq_getElem hj']
  rfl

theorem presence?_eq (h : s.WellFormed) (hmem : (slot, t) ∈ s.tables)
    (hshows : s.Shows slot t cells row) :
    s.presence? slot t mode conforming cells = some (some (t.detects row)) := by
  cases hkey : t.primaryKey? with
  | some found =>
      rcases found with ⟨index, key⟩
      rcases Table.firstColumn?_eq_some_iff.mp hkey with ⟨hcolumn, hprimary, -⟩
      rcases exists_partner hshows.finds (List.mem_of_getElem? hcolumn) with ⟨v, hv, hcell⟩
      rw [presence?_key h hmem hkey hcell]
      cases row with
      | none =>
          rw [List.eq_of_mem_replicate (List.of_mem_zip hv).2]
          rfl
      | some values =>
          have hnull : v.isNull = false := by
            refine Bool.eq_false_iff.mpr fun hnull => ?_
            have hnot := ((List.forall₂_iff_zip.mp (hshows.holds values rfl)).2 hv hnull).2
            rw [hprimary] at hnot
            cases hnot
          rw [hnull, Table.detects, hkey]
          rfl
  | none =>
      rw [presence?_keyless h hmem hkey hshows.finds]
      cases row with
      | none => simp [Table.joined, Table.detects, Value.isNull]
      | some values => simp [Table.joined, Table.detects, hkey]

theorem shows_nulls (s : Select α) (slot : Slot)
    (h : forall column, column ∈ t.columns -> column.nullable = true ∧ column.primaryKey = false) :
    s.Shows slot t (fun _ => some .null) (some (List.replicate t.columns.length .null)) := by
  have hlength : t.columns.length = (List.replicate t.columns.length Value.null).length := by
    rw [List.length_replicate]
  constructor
  · rintro _ ⟨⟩
    refine List.forall₂_iff_zip.mpr ⟨hlength, fun hv _ => ?_⟩
    exact h _ (List.of_mem_zip hv).1
  · refine List.forall₂_iff_zip.mpr ⟨hlength, fun hv => ?_⟩
    rw [List.eq_of_mem_replicate (List.of_mem_zip hv).2]

/-- In every mode the indicator of a slot is true of a row that is detected and false of every other
row and of none, and behind it the columns are read as an instance or as none accordingly.  So a row
is told from none whatever it holds exactly when some column needs a value. -/
theorem match_told_iff (hbuilt : s.Built) (hmem : (slot, t) ∈ s.tables) :
    (forall mode conforming cells row, s.Shows slot t cells row ->
      s.presence? slot t mode conforming cells = some (some (t.detects row)) ∧
      forall (m : Model) (i : Instance), m.table = .ok t ->
        (forall values, row = some values -> RowM.Reads m.fromRow values i) ->
          RowM.Reads m.readNullable (.bool (t.detects row) :: t.joined row)
            (if t.detects row then some i else none)) ∧
    ((forall mode conforming cells row, s.Shows slot t cells row ->
        s.presence? slot t mode conforming cells = some (some row.isSome)) <->
      exists column, column ∈ t.columns ∧
        (column.primaryKey = true ∨ column.nullable = false)) := by
  have hwell := hbuilt.wellFormed
  refine ⟨?_, ?_, ?_⟩
  · intro mode conforming cells row hshows
    refine ⟨presence?_eq hwell hmem hshows, ?_⟩
    intro m i hm hreads
    cases hdetects : t.detects row with
    | true =>
        cases row with
        | none => cases hdetects
        | some values => exact RowM.reads_readNullable_present (hreads values rfl)
    | false =>
        have hlength := (List.forall₂_iff_zip.mp hshows.finds).1
        exact RowM.reads_readNullable_absent hm
          ⟨.bool false, t.joined row, Or.inl rfl, hlength.symm, rfl⟩
  · intro htells
    refine Classical.byContradiction fun hnone => ?_
    have hnullable : forall column, column ∈ t.columns ->
        column.nullable = true ∧ column.primaryKey = false := by
      intro column hcolumn
      rcases not_or.mp (not_and.mp (not_exists.mp hnone column) hcolumn) with ⟨hkey, hrequired⟩
      exact ⟨eq_true_of_ne_false hrequired, eq_false_of_ne_true hkey⟩
    have hnulls := shows_nulls s slot hnullable
    have hundetected := t.detects_nulls fun column hcolumn => (hnullable column hcolumn).2
    have htold := htells .simple true _ _ hnulls
    rw [presence?_eq hwell hmem hnulls, hundetected] at htold
    cases htold
  · rintro ⟨column, hcolumn, hvalue⟩ mode conforming cells row hshows
    rw [presence?_eq hwell hmem hshows]
    cases row with
    | none => rfl
    | some values => rw [Table.detects_of_holds (hshows.holds values rfl) hcolumn hvalue]; rfl

def besideWriter {α : Type} (s : Select α) (joined : List Value) : Reference -> Option Value :=
  valueIn? (s.tables.map relationOf) [[.bigint 3], joined]

def entryModel : Model where
  name := "Entry"
  table := .ok Fragment.entryTable
  hosts := [.host (.base .int64), .host (.base .int64)]

theorem entry_match_told :
    let s := writersJoining "entry"
    let t := Fragment.entryTable
    let row : List Value := [.bigint 7, .bigint 3]
    s.Built ∧ (.ofPosition 1, t) ∈ s.tables ∧
      s.Shows (.ofPosition 1) t (s.besideWriter row) (some row) ∧
      s.Shows (.ofPosition 1) t (s.besideWriter (t.joined none)) none ∧
      s.presence? (.ofPosition 1) t .simple true (s.besideWriter row) = some (some true) ∧
      s.presence? (.ofPosition 1) t .simple true (s.besideWriter (t.joined none)) =
        some (some false) ∧
      RowM.Reads entryModel.readNullable (.bool true :: row)
        (some [⟨.host (.base .int64), (7 : Int64)⟩, ⟨.host (.base .int64), (3 : Int64)⟩]) := by
  intro s t row
  have hbuilt : s.Built := built_writersJoining "entry"
  have hmem : (.ofPosition 1, t) ∈ s.tables := List.mem_cons_of_mem _ List.mem_cons_self
  have hholds : t.Holds row := .cons nofun (.cons nofun .nil)
  have hname : t.name ≠ (Slot.ofPosition 1).name := by decide
  have hmatched : s.Shows (.ofPosition 1) t (s.besideWriter row) (some row) := by
    refine hbuilt.wellFormed.shows_of_rows (i := 1) (Nat.le_refl 2) rfl hname rfl ?_
    rintro _ ⟨⟩
    exact hholds
  have hunmatched : s.Shows (.ofPosition 1) t (s.besideWriter (t.joined none)) none :=
    hbuilt.wellFormed.shows_of_rows (i := 1) (Nat.le_refl 2) rfl hname rfl nofun
  rcases match_told_iff hbuilt hmem with ⟨heach, htold⟩
  have htells := htold.mpr ⟨_, List.mem_cons_self, Or.inl rfl⟩
  refine ⟨hbuilt, hmem, hmatched, hunmatched, htells _ _ _ _ hmatched,
    htells _ _ _ _ hunmatched, ?_⟩
  refine (heach .simple true _ _ hmatched).2 entryModel _ rfl ?_
  rintro _ ⟨⟩
  exact RowM.reads_fromRow rfl (.cons rfl (.cons rfl .nil))

def remarkTable : Table where
  model := "Remark"
  name := "remark"
  schema := some "blog"
  columns := [
    { field := "body", name := "body", type := .text, nullable := true },
    { field := "tag", name := "tag", type := .text, nullable := true }]

def remarkModel : Model := ⟨"Remark", .ok remarkTable, []⟩

def writersWithRemarks : Select (Instance × Option Instance) :=
  (ofModel ⟨"Writer", .ok Fragment.writerTable, []⟩).leftJoin remarkModel
    (.isNull (.slotCol (.ofPosition 1) "body"))

/-- A remark with neither body nor tag matches, and is taken for none. -/
theorem remark_match_untold :
    let row : List Value := [.null, .null]
    writersWithRemarks.Built ∧ (.ofPosition 1, remarkTable) ∈ writersWithRemarks.tables ∧
      (exists statement, writersWithRemarks.build = .ok statement ∧ statement.query.renderSimple =
        "SELECT t0.\"id\",NOT ((t1.\"body\", t1.\"tag\") IS NULL),t1.\"body\",t1.\"tag\" " ++
          "FROM \"blog\".\"writer\" t0 LEFT JOIN \"blog\".\"remark\" t1 " ++
            "ON ((t1.\"body\") IS NULL)") ∧
      writersWithRemarks.Shows (.ofPosition 1) remarkTable (writersWithRemarks.besideWriter row)
        (some row) ∧
      writersWithRemarks.presence? (.ofPosition 1) remarkTable .simple true
        (writersWithRemarks.besideWriter row) = some (some false) ∧
      RowM.Reads remarkModel.readNullable (.bool false :: row) none := by
  intro row
  have hbuilt : writersWithRemarks.Built :=
    .leftJoin (.ofModel (Model.isValid_of_validate rfl)) (Model.isValid_of_validate rfl) _
  have hmem : (.ofPosition 1, remarkTable) ∈ writersWithRemarks.tables :=
    List.mem_cons_of_mem _ List.mem_cons_self
  have hholds : remarkTable.Holds row :=
    .cons (fun _ => ⟨rfl, rfl⟩) (.cons (fun _ => ⟨rfl, rfl⟩) .nil)
  have hname : remarkTable.name ≠ (Slot.ofPosition 1).name := by decide
  have hmatched : writersWithRemarks.Shows (.ofPosition 1) remarkTable
      (writersWithRemarks.besideWriter row) (some row) := by
    refine hbuilt.wellFormed.shows_of_rows (i := 1) (Nat.le_refl 2) rfl hname rfl ?_
    rintro _ ⟨⟩
    exact hholds
  refine ⟨hbuilt, hmem, ⟨_, rfl, rfl⟩, hmatched, presence?_eq hbuilt.wellFormed hmem hmatched, ?_⟩
  exact RowM.reads_readNullable_absent rfl ⟨_, _, Or.inl rfl, rfl, rfl⟩

end Select
end TypedQuery
