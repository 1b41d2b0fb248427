import TypedQuery.Proofs.Fragment.Site
import TypedQuery.Proofs.Fragment.Text
import TypedQuery.Proofs.Statement.Body
import TypedQuery.Proofs.Statement.Chain
import TypedQuery.Statement.Delete

/-!
# One WHERE clause for three statements

A query over one table, an update and a deletion build their scopes and frames each on its own, but
what they make of the same predicates is the same clause.  The clause is compiled in the same scope,
and its text does not depend on whether the frame leaves out the qualifiers of its own table.
-/

namespace TypedQuery

/-!
## Clauses
-/

namespace Fragment

variable {before : List Part}

theorem filtered_following (hclosed : Part.Closed before) (f : Fragment) (c : Compiler)
    (predicates : List Expr) :
    (f.following before).filtered c predicates =
      (f.filtered c predicates).map (·.following before) := by
  unfold filtered
  split
  · rfl
  · rename_i predicate _
    cases c.compilePredicate predicate with
    | error e => rfl
    | ok compiled =>
        change Except.ok (((f.following before).text " WHERE ").nested compiled.query) =
          Except.ok (((f.text " WHERE ").nested compiled.query).following before)
        rw [text, nested, push_following hclosed, push_following hclosed]
        rfl

theorem filtered_closed {f : Fragment} (hclosed : Part.Closed f.parts) (c : Compiler)
    (predicates : List Expr) :
    f.filtered c predicates = (empty.filtered c predicates).map (·.following f.parts) := by
  have h := filtered_following hclosed empty c predicates
  rwa [following_empty] at h

theorem closed_filtered {c : Compiler} {predicates : List Expr} {clause : Fragment}
    (h : empty.filtered c predicates = .ok clause) : Part.Closed clause.parts := by
  unfold filtered at h
  split at h
  · cases h
    intro s hlast
    cases hlast
  · rcases Result.bind_eq_ok.mp h with ⟨compiled, -, hclause⟩
    cases hclause
    exact closed_nested _ _

end Fragment

namespace Select

variable {α : Type} {s : Select α} {before : List Part}

def unfiltered (s : Select α) : Select α := { s with filters := [] }

def orderItems (s : Select α) : Result (List Fragment) :=
  s.orderBy.mapM fun item => do
    return (Fragment.empty.nested (<- (s.compiler s.tables.length).compile item.expr).query).text
      item.keyword

def trailing (s : Select α) (items : List Fragment) (query : Fragment) : Fragment :=
  let query := if items.isEmpty then query else (query.text " ORDER BY ").joined items ", "
  let query :=
    match s.limit with
    | some n => query.text s!" LIMIT {n}"
    | none => query
  match s.offset with
  | some n => query.text s!" OFFSET {n}"
  | none => query

theorem ordered_eq (s : Select α) (query : Fragment) :
    s.ordered query = s.orderItems >>= fun items => .ok (s.trailing items query) := rfl

theorem trailing_following (hclosed : Part.Closed before) (items : List Fragment) (f : Fragment) :
    s.trailing items (f.following before) = (s.trailing items f).following before := by
  have htext : forall (g : Fragment) (word : String),
      (g.following before).text word = (g.text word).following before :=
    fun g word => Fragment.push_following hclosed g (.text word)
  have hitems : (if items.isEmpty then f.following before else
      ((f.following before).text " ORDER BY ").joined items ", ") =
      (if items.isEmpty then f else (f.text " ORDER BY ").joined items ", ").following before := by
    split
    · rfl
    · rw [htext, Fragment.joined_following hclosed]
  unfold trailing
  rw [hitems]
  cases s.limit <;> cases s.offset <;> simp only [htext]

def leading (s : Select α) (columns : List Fragment) (root : Slot) (t : Table) : Fragment :=
  (((Fragment.empty.text s.verb).joined columns ",").text " FROM ").table root t

theorem clauses_of_single {root : Slot} {t : Table} (htables : s.tables = [(root, t)])
    (columns : List Fragment) :
    s.clauses ((Fragment.empty.text s.verb).joined columns ",") =
      (s.leading columns root t).filtered (s.compiler s.tables.length) s.filters := by
  unfold clauses
  rw [htables]
  rfl

def onlyType (parts : List (List Fragment × Option SqlType)) : Option SqlType :=
  match parts with
  | [(_, type)] => type
  | _ => none

/-- The body of a query over one table: its projection, its predicates, and what comes after. -/
theorem body_of_single {root : Slot} {t : Table} (htables : s.tables = [(root, t)])
    {parts : List (List Fragment × Option SqlType)} (hcheck : s.check = .ok ())
    (hparts : s.projection.mapM (projected (s.compiler s.tables.length)) = .ok parts)
    (hcolumns : ¬(parts.flatMap (·.1)).isEmpty) :
    s.body =
      (s.leading (parts.flatMap (·.1)) root t).filtered (s.compiler s.tables.length) s.filters >>=
        fun query => s.ordered query >>= fun query => .ok (query, onlyType parts) := by
  rw [<- clauses_of_single htables]
  unfold body
  rw [hcheck, hparts, Result.ok_bind, Result.ok_bind]
  dsimp only
  rw [if_neg hcolumns]
  rfl

/-- With predicates, the clause stands between the parts of the query without them. -/
theorem body_of_unfiltered {root : Slot} {t : Table} (htables : s.tables = [(root, t)])
    {query : Fragment} {single : Option SqlType} (h : s.unfiltered.body = .ok (query, single)) :
    exists before after, query.parts = before ++ after ∧
      s.body = (Fragment.empty.filtered { scope := ⟨[(root, t)]⟩, calls := s.calls } s.filters).map
        fun clause => (⟨before ++ clause.parts ++ after⟩, single) := by
  rcases Result.bind_eq_ok.mp h with ⟨_, hcheck, h'⟩
  rcases Result.bind_eq_ok.mp h' with ⟨parts, hparts, h'⟩
  have hcolumns : ¬(parts.flatMap (·.1)).isEmpty := by
    intro hempty
    dsimp only at h'
    rw [if_pos hempty] at h'
    cases h'
  have hcompiler : s.compiler s.tables.length = { scope := ⟨[(root, t)]⟩, calls := s.calls } := by
    unfold compiler
    rw [htables]
    rfl
  rw [s.unfiltered.body_of_single htables hcheck hparts hcolumns] at h
  rcases Result.bind_eq_ok.mp h with ⟨plain, hplain, h⟩
  rcases Result.bind_eq_ok.mp h with ⟨ordered, hordered, hquery⟩
  rcases Result.bind_eq_ok.mp hordered with ⟨items, horder, htrailing⟩
  cases hplain
  cases htrailing
  cases hquery
  -- The parts that are appended do not depend on what they are appended to.
  have htrail : forall behind : List Part, Part.Closed behind ->
      s.trailing items ⟨behind⟩ = ⟨behind ++ (s.trailing items .empty).parts⟩ := by
    intro behind hbehind
    rw [<- Fragment.following_empty, trailing_following hbehind]
    rfl
  have hclosed : Part.Closed (s.leading (parts.flatMap (·.1)) root t).parts :=
    Fragment.closed_table _ root t
  refine ⟨_, _, congrArg Fragment.parts (htrail _ hclosed), ?_⟩
  rw [s.body_of_single htables hcheck hparts hcolumns, hcompiler,
    Fragment.filtered_closed hclosed]
  cases hclause :
    Fragment.empty.filtered { scope := ⟨[(root, t)]⟩, calls := s.calls } s.filters with
  | error e => rfl
  | ok clause =>
      have hordered :=
        s.ordered_eq (clause.following (s.leading (parts.flatMap (·.1)) root t).parts)
      rw [show s.orderItems = .ok items from horder, Result.ok_bind, Fragment.following,
        htrail _ (hclosed.append (Fragment.closed_filtered hclause))] at hordered
      exact congrArg (· >>= fun query => .ok (query, onlyType parts)) hordered

theorem exists_unfiltered {t : Table} (hvalid : t.validate = .ok ())
    (htables : s.tables = [(.root, t)]) (herror : s.error = none)
    (hprojection : s.projection = [.columns .root]) (horder : s.orderBy = []) :
    exists plain, s.unfiltered.build = .ok plain := by
  have hcheck : s.unfiltered.check = .ok () := check_eq_ok_iff.mpr herror
  have hcompiler : s.compiler s.tables.length = { scope := .ofTable t, calls := s.calls } := by
    unfold compiler
    rw [htables]
    rfl
  have hparts : s.unfiltered.projection.mapM
      (projected (s.unfiltered.compiler s.unfiltered.tables.length)) =
        .ok [(columns .root t, none)] := by
    change s.projection.mapM (projected (s.compiler s.tables.length)) = _
    rw [hprojection, hcompiler]
    rfl
  have hcolumns : ¬(List.flatMap (·.1) [(columns .root t, (none : Option SqlType))]).isEmpty := by
    rw [List.flatMap_singleton, columns, List.isEmpty_map]
    unfold Table.validate at hvalid
    split at hvalid
    · cases hvalid
    · assumption
  have hitems : s.unfiltered.orderItems = .ok [] := by
    change s.orderItems = _
    unfold orderItems
    rw [horder]
    rfl
  have hbody := s.unfiltered.body_of_single htables hcheck hparts hcolumns
  change _ = s.unfiltered.ordered _ >>= _ at hbody
  rw [ordered_eq, hitems] at hbody
  unfold build
  rw [hbody]
  exact ⟨_, rfl⟩

theorem build_of_single {t : Table} (htables : s.tables = [(.root, t)])
    {plain : Statement (List α)} (h : s.unfiltered.build = .ok plain) :
    exists before after,
      plain.query = (Frame.mk ⟨before ++ after⟩ (.single .root t) false).framed ∧
      s.build = (Fragment.empty.filtered { scope := .ofTable t, calls := s.calls } s.filters).map
        fun clause =>
          ⟨(Frame.mk ⟨before ++ clause.parts ++ after⟩ (.single .root t) false).framed,
            fun result => result.rows.mapM (RowReader.run s.decoder)⟩ := by
  have haliases : s.aliases = .single .root t := by
    unfold aliases
    rw [htables]
  rcases Result.bind_eq_ok.mp h with ⟨⟨query, single⟩, hbody, heq⟩
  cases heq
  rcases body_of_unfiltered htables hbody with ⟨before, after, hquery, hwhole⟩
  refine ⟨before, after, ?_, ?_⟩
  · have hparts : query = ⟨before ++ after⟩ := congrArg Fragment.mk hquery
    change s.framed query = _
    rw [framed, hparts, haliases]
  · unfold build framed
    rw [hwhole, haliases]
    change Except.map _ (Fragment.empty.filtered { scope := .ofTable t, calls := s.calls }
      s.filters) >>= _ = _
    cases Fragment.empty.filtered { scope := .ofTable t, calls := s.calls } s.filters <;> rfl

def Clause.isOrder : Clause -> Bool
  | order _ => true
  | _ => false

namespace Chain

/-- Whether the chain keeps to the rows of its model, in no particular order. -/
def isPlain : {α : Type} -> Chain α -> Bool
  | _, ofModel _ => true
  | _, map c _ => c.isPlain
  | _, clause c k => !k.isOrder && c.isPlain
  | _, _ => false

theorem plain_of_isPlain {m : Model} {t : Table} {c : Chain α} (hsingle : c.models = [m])
    (ht : m.table = .ok t) (h : c.isPlain = true) :
    c.select.error = none ∧ c.select.projection = [.columns .root] ∧ c.select.orderBy = [] := by
  induction c with
  | ofModel m' =>
      cases hsingle
      rw [select, Select.ofModel, ht]
      exact ⟨rfl, rfl, rfl⟩
  | map c f ih => exact ih hsingle h
  | clause c k ih =>
      rw [isPlain, Bool.and_eq_true, Bool.not_eq_true'] at h
      rcases ih hsingle h.2 with ⟨herror, hprojection, horder⟩
      cases k with
      | order item => cases h.1
      | _ => exact ⟨herror, hprojection, horder⟩
  | leftJoin c m' on ih => cases h
  | scalar c host e ih => cases h
  | fields c es ih => cases h
  | shape c entries ih => cases h

end Chain

end Select

/-!
## Updates and deletions
-/

namespace Update

def unfiltered (u : Update) : Update := { u with filters := [] }

def leading (u : Update) (t : Table) : Fragment :=
  (((Fragment.empty.text "UPDATE ").table .root t).text " SET ").joined
    (u.assignments.map fun (index, value) =>
      let name :=
        match t.columns[index]? with
        | some c => c.quoted
        | none => ""
      (Fragment.empty.text (name ++ " = ")).nested value.query) ", "

theorem build_of_table {u : Update} {t : Table} (ht : u.table = .ok t) (herror : u.error = none)
    (hassigned : u.assignments ≠ []) :
    u.build = (Fragment.empty.filtered (u.compiler t) u.filters).map fun clause =>
      ⟨(Frame.mk ⟨(u.leading t).parts ++ clause.parts⟩ (.single .root t) true).framed,
        fun result => .ok result.affected⟩ := by
  have hclosed : Part.Closed (u.leading t).parts := by
    apply Fragment.closed_joined
    simpa using hassigned
  have hbuild : u.build = (u.leading t).filtered (u.compiler t) u.filters >>= fun query =>
      .ok ⟨(Frame.mk query (.single .root t) true).framed, fun result => .ok result.affected⟩ := by
    unfold build
    rw [herror, ht, Result.ok_bind]
    have hisEmpty : ¬ u.assignments.isEmpty := by
      simpa using hassigned
    dsimp only
    rw [if_neg hisEmpty]
    rfl
  rw [hbuild, Fragment.filtered_closed hclosed]
  cases Fragment.empty.filtered (u.compiler t) u.filters <;> rfl

end Update

namespace Delete

def unfiltered (d : Delete) : Delete := { d with filters := [] }

def leading (t : Table) : Fragment := (Fragment.empty.text "DELETE FROM ").table .root t

theorem build_of_table {d : Delete} {t : Table} (ht : d.table = .ok t) :
    d.build =
      (Fragment.empty.filtered { scope := .ofTable t, calls := d.calls } d.filters).map
        fun clause => ⟨(Frame.mk ⟨(leading t).parts ++ clause.parts⟩ (.single .root t) true).framed,
          fun result => .ok result.affected⟩ := by
  have hclosed : Part.Closed (leading t).parts := Fragment.closed_table _ .root t
  have hbuild : d.build =
      (leading t).filtered { scope := .ofTable t, calls := d.calls } d.filters >>= fun query =>
        .ok ⟨(Frame.mk query (.single .root t) true).framed,
          fun result => .ok result.affected⟩ := by
    unfold build
    rw [ht]
    rfl
  rw [hbuild, Fragment.filtered_closed hclosed]
  cases Fragment.empty.filtered { scope := .ofTable t, calls := d.calls } d.filters <;> rfl

end Delete

/-!
## The shared clause
-/

/-- The clause stands somewhere in the other fragment: its text is written with its placeholders
shifted by the number of parameters before it, and it adds its own parameters. -/
def Fragment.HasClause (whole plain clause : Fragment) : Prop :=
  exists before after, plain.pieces = before ++ after ∧
    (forall p, whole.renderWith (.bound p) =
      { sql := Mark.text p (Piece.marks 0 before) ++
          Mark.text p (clause.marks.map (Mark.shift (Piece.values before).length)) ++
          Mark.text p (Piece.marks
            ((Piece.values before).length + clause.boundValues.length) after)
        params := ⟨Piece.values before ++ clause.boundValues ++ Piece.values after⟩ }) ∧
    whole.renderSimple = Piece.simpleText before ++ clause.renderSimple ++ Piece.simpleText after

theorem Fragment.hasClause_of_pieces {whole plain clause : Fragment} {before after : List Piece}
    (hplain : plain.pieces = before ++ after)
    (hwhole : whole.pieces = before ++ clause.pieces ++ after) :
    whole.HasClause plain clause := by
  have hmarks : Piece.marks (Piece.values before).length clause.pieces =
      clause.marks.map (Mark.shift (Piece.values before).length) := by
    have hadd := Piece.marks_add 0 (Piece.values before).length clause.pieces
    rwa [Nat.zero_add] at hadd
  refine ⟨before, after, hplain, ?_, ?_⟩
  · intro p
    rw [renderWith_eq_pieces, Piece.foldl_writePiece_bound, hwhole]
    simp only [Piece.marks_append, Piece.values_append, Mark.text_append, clause.values_pieces,
      List.length_append, Parameters.size, List.length_nil, List.nil_append, Nat.zero_add, hmarks]
    simp
  · rw [renderSimple_eq, hwhole, renderSimple_eq]
    simp only [Piece.simpleText_append]

theorem Fragment.hasClause_of_framed {before after : List Part} (clause : Fragment) (t : Table)
    (unqualified : Bool) :
    (Frame.mk ⟨before ++ clause.parts ++ after⟩ (.single .root t) unqualified).framed.HasClause
      (Frame.mk ⟨before ++ after⟩ (.single .root t) unqualified).framed
      (Frame.mk clause (.single .root t) false).framed := by
  have hframed : forall (parts : List Part) (flag : Bool),
      (Frame.mk ⟨parts⟩ (.single .root t) flag).framed.pieces =
        Part.pieces (Scopes.push {} (.single .root t) flag) parts := by
    intro parts flag
    exact Part.pieces_singleton {} (.frame (.single .root t) flag parts)
  have hclause := Part.pieces_of_alike (Scopes.alike_single {} .root t unqualified) clause.parts
  apply Fragment.hasClause_of_pieces
  · rw [hframed, Part.pieces_append]
  · rw [hframed, hframed, Part.pieces_append, Part.pieces_append, hclause]

/-- Given the same predicates, a query over one table, an update and a deletion all fail in the same
way, or all have the same WHERE clause. -/
theorem where_clause_shared {α : Type} {m : Model} (hvalid : m.IsValid) {c : Select.Chain α}
    (hsingle : c.models = [m])
    {calls : List Update.Call} {d : Delete} (htable : d.table = m.table)
    (hregistry : (Update.made m calls).calls = c.select.calls ∧ d.calls = c.select.calls)
    (hfilters : (Update.made m calls).filters = c.select.filters ∧ d.filters = c.select.filters)
    (hselect : c.isPlain = true ∨
      forall t, m.table = .ok t -> exists plain, c.select.unfiltered.build = .ok plain)
    (hupdate : forall t, m.table = .ok t ->
      (Update.made m calls).error = none ∧ (Update.made m calls).assignments ≠ []) :
    (exists e, c.select.build = .error e ∧ (Update.made m calls).build = .error e ∧
      d.build = .error e) ∨
    exists t clause selected updated deleted,
      m.table = .ok t ∧
        Fragment.empty.filtered { scope := .ofTable t, calls := c.select.calls } c.select.filters =
          .ok clause ∧
        c.select.build = .ok selected ∧ (Update.made m calls).build = .ok updated ∧
        d.build = .ok deleted ∧
        (exists plain, c.select.unfiltered.build = .ok plain ∧
          selected.query.HasClause plain.query (Frame.mk clause (.single .root t) false).framed) ∧
        (exists plain, (Update.made m calls).unfiltered.build = .ok plain ∧
          updated.query.HasClause plain.query (Frame.mk clause (.single .root t) false).framed) ∧
        (exists plain, d.unfiltered.build = .ok plain ∧
          deleted.query.HasClause plain.query
            (Frame.mk clause (.single .root t) false).framed) := by
  cases ht : m.table with
  | error e =>
      left
      refine ⟨e, ?_, ?_, ?_⟩
      · have hcheck : c.select.check = .error e := by
          unfold Select.check
          rw [c.error_of_single hsingle ht]
        unfold Select.build Select.body
        rw [hcheck]
        rfl
      · unfold Update.build
        rw [Update.error_made ht calls]
        rfl
      · unfold Delete.build
        rw [htable, ht]
        rfl
  | ok t =>
      have htables := c.tables_of_single hsingle ht
      have hunfiltered : exists plain, c.select.unfiltered.build = .ok plain := by
        rcases hselect with hplain | hselect
        · rcases Select.Chain.plain_of_isPlain hsingle ht hplain with
            ⟨herror, hprojection, horder⟩
          exact Select.exists_unfiltered (hvalid t ht) htables herror hprojection horder
        · exact hselect t ht
      rcases hunfiltered with ⟨plain, hplain⟩
      rcases hupdate t ht with ⟨herror, hassigned⟩
      rcases Select.build_of_single htables hplain with
        ⟨before, after, hquery, hselected⟩
      have hmade : (Update.made m calls).table = .ok t := (Update.table_made m calls).trans ht
      have hupdated := Update.build_of_table hmade herror hassigned
      have hplainUpdate := @Update.build_of_table (Update.made m calls).unfiltered t hmade herror
        hassigned
      have hdeleted := Delete.build_of_table (htable.trans ht)
      have hplainDelete := @Delete.build_of_table d.unfiltered t (htable.trans ht)
      rw [Update.compiler, hregistry.1, hfilters.1] at hupdated
      rw [hregistry.2, hfilters.2] at hdeleted
      cases hclause : Fragment.empty.filtered { scope := .ofTable t, calls := c.select.calls }
        c.select.filters with
      | error e =>
          left
          rw [hclause] at hselected hupdated hdeleted
          exact ⟨e, hselected, hupdated, hdeleted⟩
      | ok clause =>
          right
          rw [hclause] at hselected hupdated hdeleted
          refine ⟨t, clause, _, _, _, rfl, hclause, hselected, hupdated, hdeleted, ⟨_, hplain, ?_⟩,
            ⟨_, hplainUpdate, ?_⟩, ⟨_, hplainDelete, ?_⟩⟩
          · rw [hquery]
            exact clause.hasClause_of_framed t false
          · have hframed := @Fragment.hasClause_of_framed
              ((Update.made m calls).leading t).parts [] clause t true
            rwa [List.append_nil] at hframed
          · have hframed := @Fragment.hasClause_of_framed (Delete.leading t).parts [] clause t true
            rwa [List.append_nil] at hframed

def letterTable : Table where
  model := "Letter"
  name := "letter"
  schema := none
  columns := [
    { field := "id", name := "id", type := .bigint, primaryKey := true },
    { field := "seal", name := "seal", type := .bytea }]

def letter : Model := ⟨"Letter", .ok letterTable, [.host (.base .int64), .host (.base .bytes)]⟩

def sealedWith (bytes : List UInt8) : Expr :=
  .binary .eq (.col "seal") (.constant ⟨.bytes bytes, .bytea⟩)

def sealedLetters : Select.Chain Instance :=
  ((Select.Chain.ofModel letter).clause (.filter (sealedWith [1]))).clause (.withLimit 5)

def resealing : List Update.Call :=
  [.set "seal" (.constant ⟨.bytes [2], .bytea⟩), .filter (sealedWith [1])]

def sealedClause : Frame where
  query := ⟨[.text " WHERE ", .nested [.text "(", .nested [.column .root "seal"], .text ") = (",
    .nested [.value ⟨.bytes [1], .bytea⟩], .text ")"]]⟩
  aliases := .single .root letterTable

theorem sealedClause_shared :
    exists selected updated deleted,
      sealedLetters.select.build = .ok selected ∧
        (Update.made letter resealing).build = .ok updated ∧
        ((Delete.ofModel letter).filter (sealedWith [1])).build = .ok deleted ∧
        (exists plain, sealedLetters.select.unfiltered.build = .ok plain ∧
          selected.query.HasClause plain.query sealedClause.framed) ∧
        (exists plain, (Update.made letter resealing).unfiltered.build = .ok plain ∧
          updated.query.HasClause plain.query sealedClause.framed) ∧
        (exists plain,
          ((Delete.ofModel letter).filter (sealedWith [1])).unfiltered.build = .ok plain ∧
          deleted.query.HasClause plain.query sealedClause.framed) := by
  have hvalid : letter.IsValid := Model.isValid_of_validate rfl
  have hupdate : forall t, letter.table = .ok t ->
      (Update.made letter resealing).error = none ∧
        (Update.made letter resealing).assignments ≠ [] := by
    intro t _
    exact ⟨rfl, List.cons_ne_nil _ _⟩
  have hbuilt : exists selected, sealedLetters.select.build = .ok selected := ⟨_, rfl⟩
  rcases hbuilt with ⟨selected, hselected⟩
  rcases @where_clause_shared _ letter hvalid sealedLetters rfl resealing
    ((Delete.ofModel letter).filter (sealedWith [1])) rfl ⟨rfl, rfl⟩ ⟨rfl, rfl⟩
    (Or.inl rfl) hupdate with
    ⟨e, herror, -, -⟩ | ⟨t, clause, selected, updated, deleted, ht, hclause, hbuilds⟩
  · cases hselected.symm.trans herror
  · cases ht
    cases hclause
    exact ⟨selected, updated, deleted, hbuilds⟩

end TypedQuery
