import TypedQuery.Proofs.Expr.Whole
import TypedQuery.Proofs.Statement.Body
import TypedQuery.Statement.Delete
import TypedQuery.Statement.Insert

/-!
# Statements are whole

Clause by clause, a statement that a builder makes of whole expressions is whole.  The texts between
the expressions keep them apart, and the names and constants that are part of such a text are quoted
in it.
-/

namespace TypedQuery

open Fragment

namespace Compiler

variable {c : Compiler}

theorem whole_predicate (hcalls : c.calls.KeepsWhole) {e : Expr} (he : e.IsWhole)
    {f : TypedFragment} (h : c.compilePredicate e = .ok f) : f.query.Whole :=
  whole_compile hcalls he (compile_of_compilePredicate h)

/-- A stored value is the label or the compiled expression, perhaps turned into JSON. -/
theorem compileAs_cases {target : SqlType} {e : Expr} {f : TypedFragment}
    (h : c.compileAs target e = .ok f) :
    exists value, (f = value ∨ f = value.toJsonb) ∧
      (TypedFragment.enumLabel? target (fold e) = some value ∨ c.compile e = .ok value) := by
  unfold compileAs at h
  dsimp only at h
  split at h
  · rename_i label hlabel
    rcases Result.bind_eq_ok.mp h with ⟨value, hvalue, h⟩
    cases hvalue
    refine ⟨label, ?_, Or.inl hlabel⟩
    split at h
    · cases h
      exact Or.inr rfl
    split at h
    · cases h
      exact Or.inl rfl
    · cases h
  · rcases Result.bind_eq_ok.mp h with ⟨value, hvalue, h⟩
    refine ⟨value, ?_, Or.inr hvalue⟩
    split at h
    · cases h
      exact Or.inr rfl
    split at h
    · cases h
      exact Or.inl rfl
    · cases h

theorem whole_compileAs (hcalls : c.calls.KeepsWhole) {target : SqlType} {e : Expr}
    (he : e.IsWhole) {f : TypedFragment} (h : c.compileAs target e = .ok f) : f.query.Whole := by
  rcases compileAs_cases h with ⟨value, hf, hvalue⟩
  have hwhole : value.query.Whole := by
    rcases hvalue with hlabel | hvalue
    · exact TypedFragment.whole_of_enumLabel? hlabel
    · exact whole_compile hcalls he hvalue
  rcases hf with rfl | rfl
  · exact hwhole
  · exact TypedFragment.whole_toJsonb hwhole

end Compiler

theorem Expr.isWhole_conjunction? {es : List Expr} {e : Expr} (hes : forall e, e ∈ es -> e.IsWhole)
    (h : conjunction? es = some e) : e.IsWhole := by
  have hsources := sources_conjunction? h
  constructor
  · intro q hq
    rw [hsources] at hq
    rcases List.mem_flatMap.mp hq with ⟨e', he', hq⟩
    exact (hes e' he').subquery q hq
  · intro f hf
    rw [hsources] at hf
    rcases List.mem_flatMap.mp hf with ⟨e', he', hf⟩
    exact (hes e' he').compiled f hf

theorem Fragment.whole_filtered {c : Compiler} (hcalls : c.calls.KeepsWhole) {f g : Fragment}
    (hf : f.Whole) {predicates : List Expr} (hpredicates : forall e, e ∈ predicates -> e.IsWhole)
    (h : f.filtered c predicates = .ok g) : g.Whole := by
  unfold filtered at h
  split at h
  · cases h
    exact hf
  · rename_i predicate hsome
    rcases Result.bind_eq_ok.mp h with ⟨compiled, hcompiled, hg⟩
    cases hg
    have hpredicate := Expr.isWhole_conjunction? hpredicates hsome
    exact (hf.joiner (isJoiner_sql rfl rfl)).nested (c.whole_predicate hcalls hpredicate hcompiled)

/-!
## SELECT
-/

namespace Select

variable {α : Type} {s : Select α}

theorem whole_columns (slot : Slot) (t : Table) :
    forall f, f ∈ columns slot t -> f.Whole := by
  intro f hf
  rcases List.mem_map.mp hf with ⟨column, -, rfl⟩
  exact opening_empty.column slot column.name

theorem whole_indicator (slot : Slot) (t : Table) : (indicator slot t).Whole := by
  unfold indicator
  split
  · exact (opening_empty.column _ _).closer (isCloser_sql rfl rfl)
  · have hopen : IsOpener "NOT ((" := isOpener_sql rfl
    exact whole_joined_text (opening_empty.text hopen) (whole_columns slot t)
      (isJoiner_sql rfl rfl) (isCloser_sql rfl rfl)

theorem whole_projected {c : Compiler} (hcalls : c.calls.KeepsWhole) {p : Projection}
    (hp : forall e, p.expr? = some e -> e.IsWhole) {items : List Fragment}
    {type : Option SqlType} (h : projected c p = .ok (items, type)) :
    forall f, f ∈ items -> f.Whole := by
  intro f hf
  cases p with
  | columns slot =>
      rcases Result.bind_eq_ok.mp h with ⟨t, -, heq⟩
      cases heq
      exact whole_columns slot t f hf
  | nullable slot =>
      rcases Result.bind_eq_ok.mp h with ⟨t, -, heq⟩
      cases heq
      cases hf with
      | head => exact whole_indicator slot t
      | tail _ hf => exact whole_columns slot t f hf
  | expr e =>
      rcases Result.bind_eq_ok.mp h with ⟨compiled, hcompiled, heq⟩
      cases heq
      rw [List.mem_singleton.mp hf]
      exact c.whole_compile hcalls (hp e rfl) hcompiled

/-- What a query takes from elsewhere is whole. -/
structure IsWhole (s : Select α) : Prop where
  calls : s.calls.KeepsWhole
  exprs : forall e, e ∈ s.exprs -> e.IsWhole

theorem whole_joinClauses (hs : s.IsWhole) {clauses : List ((Slot × Table) × Expr)}
    (hclauses : forall clause, clause ∈ clauses -> clause.2.IsWhole) {query result : Fragment}
    (hquery : query.Whole) {slots : Nat} (h : s.joinClauses query slots clauses = .ok result) :
    result.Whole := by
  induction clauses generalizing query slots with
  | nil =>
      cases h
      exact hquery
  | cons clause rest ih =>
      rcases clause with ⟨⟨slot, t⟩, on⟩
      rcases Result.bind_eq_ok.mp h with ⟨condition, hcondition, hrest⟩
      have hon : on.IsWhole := hclauses _ List.mem_cons_self
      have hwhole := Compiler.whole_predicate (c := s.compiler slots) hs.calls hon hcondition
      have htable := (hquery.joiner (isJoiner_sql rfl rfl : IsJoiner " LEFT JOIN ")).table slot t
      have hnext := ((htable.joiner (isJoiner_sql rfl rfl : IsJoiner " ON (")).nested hwhole).closer
        (isCloser_sql rfl rfl : IsCloser ")")
      exact ih (fun clause hclause => hclauses clause (List.mem_cons_of_mem _ hclause)) hnext hrest

theorem whole_clauses (hs : s.IsWhole) {head result : Fragment}
    (hhead : (head.text " FROM ").Opening) (h : s.clauses head = .ok result) : result.Whole := by
  unfold clauses at h
  split at h
  · cases h
  · rename_i root t rest htables
    rcases Result.bind_eq_ok.mp h with ⟨joined, hjoined, hfiltered⟩
    have hclauses : forall clause, clause ∈ rest.zip s.joins -> clause.2.IsWhole := by
      intro clause hclause
      exact hs.exprs _ (mem_exprs.mpr (Or.inl (List.of_mem_zip hclause).2))
    have hwhole := whole_joinClauses hs hclauses (hhead.table root t) hjoined
    refine whole_filtered (c := s.compiler s.tables.length) hs.calls hwhole ?_ hfiltered
    exact fun e he => hs.exprs e (mem_exprs.mpr (Or.inr (Or.inl he)))

theorem isCloser_count {text : String} (h : IsJoiner text) (n : Nat) :
    IsCloser (text ++ toString n) :=
  h.whole (isWholeText_integer n)

theorem whole_ordered (hs : s.IsWhole) {query result : Fragment} (hquery : query.Whole)
    (h : s.ordered query = .ok result) : result.Whole := by
  rcases Result.bind_eq_ok.mp h with ⟨items, hitems, h⟩
  have hwhole : forall item, item ∈ items -> item.Whole := by
    intro f hf
    rcases Result.exists_origin_of_mapM hitems hf with ⟨item, hitem, hf⟩
    rcases Result.bind_eq_ok.mp hf with ⟨compiled, hcompiled, heq⟩
    cases heq
    have hexpr : item.expr.IsWhole :=
      hs.exprs _ (mem_exprs.mpr (Or.inr (Or.inr (Or.inr ⟨item, hitem, rfl⟩))))
    have hnested := opening_empty.nested (Compiler.whole_compile hs.calls hexpr hcompiled)
    unfold OrderItem.keyword
    split
    · exact hnested.closer (isCloser_sql rfl rfl)
    · exact hnested.closer (isCloser_sql rfl rfl)
  have hordered : (if items.isEmpty then query
      else (query.text " ORDER BY ").joined items ", ").Whole := by
    split
    · exact hquery
    · rename_i hne
      have hopening := hquery.joiner (isJoiner_sql rfl rfl : IsJoiner " ORDER BY ")
      exact whole_joined hopening (by simpa using hne) hwhole (isJoiner_sql rfl rfl)
  have hlimit : IsJoiner " LIMIT " := isJoiner_sql rfl rfl
  have hoffset : IsJoiner " OFFSET " := isJoiner_sql rfl rfl
  cases h
  cases s.limit with
  | none =>
      cases s.offset with
      | none => exact hordered
      | some n => exact hordered.closer (isCloser_count hoffset n)
  | some m =>
      have hlimited := hordered.closer (isCloser_count hlimit m)
      cases s.offset with
      | none => exact hlimited
      | some n => exact hlimited.closer (isCloser_count hoffset n)

theorem whole_body (hs : s.IsWhole) {query : Fragment} {single : Option SqlType}
    (h : s.body = .ok (query, single)) : query.Whole := by
  rcases Result.bind_eq_ok.mp h with ⟨_, -, h⟩
  rcases Result.bind_eq_ok.mp h with ⟨parts, hparts, h⟩
  have hitems : forall item, item ∈ parts.flatMap (·.1) -> item.Whole := by
    intro item hitem
    rcases List.mem_flatMap.mp hitem with ⟨⟨items, type⟩, hpart, hitem⟩
    rcases Result.exists_origin_of_mapM hparts hpart with ⟨p, hp, hprojected⟩
    refine whole_projected (c := s.compiler s.tables.length) hs.calls ?_ hprojected item hitem
    intro e he
    have hmem : e ∈ s.projection.filterMap Projection.expr? := List.mem_filterMap.mpr ⟨p, hp, he⟩
    exact hs.exprs e (List.mem_append_left _ (List.mem_append_right _ hmem))
  have hverb : IsOpener (if s.distinct then "SELECT DISTINCT " else "SELECT ") := by
    cases s.distinct <;> exact isOpener_sql rfl
  have hhead := opening_joined_text (opening_empty.text hverb) hitems
    (isJoiner_sql rfl rfl : IsJoiner ",") (isJoiner_sql rfl rfl : IsJoiner " FROM ")
  dsimp only at h
  split at h
  · cases h
  · rcases Result.bind_eq_ok.mp h with ⟨filtered, hclauses, h⟩
    rcases Result.bind_eq_ok.mp h with ⟨ordered, hordered, hquery⟩
    cases hquery
    exact whole_ordered hs (whole_clauses hs hhead hclauses) hordered

theorem whole_framed {body : Fragment} (h : body.Whole) : (s.framed body).Whole :=
  opening_empty.frame h

theorem whole_build (hs : s.IsWhole) {statement : Statement (List α)}
    (h : s.build = .ok statement) : statement.query.Whole := by
  rcases Result.bind_eq_ok.mp h with ⟨⟨body, single⟩, hbody, hstatement⟩
  cases hstatement
  exact whole_framed (whole_body hs hbody)

theorem whole_count (hs : s.IsWhole) {statement : Statement Int64}
    (h : s.count = .ok statement) : statement.query.Whole := by
  unfold count at h
  dsimp only at h
  split at h
  · rcases Result.bind_eq_ok.mp h with ⟨⟨body, single⟩, hbody, hstatement⟩
    cases hstatement
    have hopen : IsOpener "SELECT COUNT(*) FROM (" := isOpener_sql rfl
    exact whole_framed (((opening_empty.text hopen).nested (whole_body hs hbody)).closer
      (isCloser_sql rfl rfl))
  · rcases Result.bind_eq_ok.mp h with ⟨_, -, h⟩
    rcases Result.bind_eq_ok.mp h with ⟨query, hclauses, hstatement⟩
    cases hstatement
    have hopen : IsOpener "SELECT COUNT(*)" := isOpener_sql rfl
    have hfrom : IsOpener " FROM " := isOpener_sql rfl
    exact whole_framed (whole_clauses hs ((opening_empty.text hopen).text hfrom) hclauses)

theorem whole_toSubquery (hs : s.IsWhole) {q : Subquery} (h : s.toSubquery = .ok q) :
    q.frame.query.Whole := by
  rcases Result.bind_eq_ok.mp h with ⟨⟨body, single⟩, hbody, hq⟩
  cases hq
  exact whole_body hs hbody

end Select

/-!
## Drafted expressions

Fragments and subqueries get into an expression from elsewhere.  In a drafted expression they were
made of drafted expressions themselves, so that no SQL in it was written by hand.
-/

/-- The source was made of drafted expressions, or is one of the given fragments. -/
inductive Expr.IsDraftedSource (given : List TypedFragment) : Expr -> Prop where
  | field (path : List PathStep) : IsDraftedSource given (.field path)
  | invalid (error : Error) : IsDraftedSource given (.invalid error)
  | given {f : TypedFragment} (h : f ∈ given) : IsDraftedSource given (.compiled f)
  | compiled {c : Compiler} {e : Expr} {f : TypedFragment} (hcalls : c.calls.KeepsWhole)
      (hsources : forall source, source ∈ e.sources -> IsDraftedSource given source)
      (h : c.compile e = .ok f) : IsDraftedSource given (.compiled f)
  | subquery {α : Type} {s : Select α} {q : Subquery} (hcalls : s.calls.KeepsWhole)
      (hsources : forall e, e ∈ s.exprs -> forall source, source ∈ e.sources ->
        IsDraftedSource given source)
      (h : s.toSubquery = .ok q) : IsDraftedSource given (.subquery q)

def Expr.Drafted (given : List TypedFragment) (e : Expr) : Prop :=
  forall source, source ∈ e.sources -> source.IsDraftedSource given

namespace Expr

variable {given : List TypedFragment} {e : Expr}

theorem drafted_of_isPlain (h : e.isPlain = true) : e.Drafted given := by
  intro source hsource
  rcases isPathOrError_of_isPlain h hsource with ⟨path, rfl⟩ | ⟨error, rfl⟩
  · exact .field path
  · exact .invalid error

theorem isWhole_of_sources (h : forall source, source ∈ e.sources -> source.IsWhole) :
    e.IsWhole :=
  ⟨fun q hq => (h _ hq).subquery q List.mem_cons_self,
    fun f hf => (h _ hf).compiled f List.mem_cons_self⟩

theorem isWhole_subquery {q : Subquery} (hq : q.frame.query.Whole) : (subquery q).IsWhole := by
  constructor
  · intro q' hq'
    cases List.mem_singleton.mp hq'
    exact hq
  · intro f hf
    cases List.mem_singleton.mp hf

theorem isWhole_compiled {f : TypedFragment} (hf : f.query.Whole) : (compiled f).IsWhole := by
  constructor
  · intro q hq
    cases List.mem_singleton.mp hq
  · intro f' hf'
    cases List.mem_singleton.mp hf'
    exact hf

theorem IsDraftedSource.isWhole (hgiven : forall f, f ∈ given -> f.query.Whole)
    (h : e.IsDraftedSource given) : e.IsWhole := by
  induction h with
  | field path =>
      constructor <;> intro _ hsource <;> cases List.mem_singleton.mp hsource
  | invalid error =>
      constructor <;> intro _ hsource <;> cases List.mem_singleton.mp hsource
  | given h => exact isWhole_compiled (hgiven _ h)
  | compiled hcalls _ h ih =>
      exact isWhole_compiled (Compiler.whole_compile hcalls (isWhole_of_sources ih) h)
  | subquery hcalls _ h ih =>
      exact isWhole_subquery
        (Select.whole_toSubquery ⟨hcalls, fun e he => isWhole_of_sources (ih e he)⟩ h)

theorem Drafted.isWhole (hgiven : forall f, f ∈ given -> f.query.Whole) (h : e.Drafted given) :
    e.IsWhole :=
  isWhole_of_sources fun source hsource => (h source hsource).isWhole hgiven

theorem Drafted.isWhole_nil (h : e.Drafted []) : e.IsWhole :=
  h.isWhole fun _ hf => absurd hf List.not_mem_nil

end Expr

/-!
## DELETE
-/

theorem Delete.whole_build {d : Delete} (hcalls : d.calls.KeepsWhole)
    (hfilters : forall e, e ∈ d.filters -> e.IsWhole) {statement : Statement Nat}
    (h : d.build = .ok statement) : statement.query.Whole := by
  rcases Result.bind_eq_ok.mp h with ⟨t, -, h⟩
  rcases Result.bind_eq_ok.mp h with ⟨query, hquery, hstatement⟩
  cases hstatement
  have hopen : IsOpener "DELETE FROM " := isOpener_sql rfl
  have htable := (opening_empty.text hopen).table .root t
  exact opening_empty.frame (whole_filtered hcalls htable hfilters hquery)

/-!
## INSERT
-/

namespace Insert

variable {i : Insert}

theorem whole_sourceValue {source : InsertSource}
    (hsource : forall q, source = .subquery q -> q.frame.query.Whole) {f : Fragment}
    (h : sourceValue source = .ok f) : f.Whole := by
  cases source with
  | subquery q =>
      rcases Result.bind_eq_ok.mp h with ⟨value, hvalue, heq⟩
      cases heq
      exact Subquery.whole_expression (hsource q rfl) hvalue
  | sequence parent =>
      unfold sourceValue at h
      dsimp only at h
      split at h
      · cases h
      · rename_i key _
        cases h
        have hopen : IsOpener "currval(pg_get_serial_sequence(" := isOpener_sql rfl
        have htable := hopen.whole (isWholeText_quoteLiteral parent.qualifiedName)
        have hcomma : IsJoiner ", " := isJoiner_sql rfl rfl
        have hclose : IsCloser "))" := isCloser_sql rfl rfl
        have hkey := (htable.joiner hcomma).whole (isWholeText_quoteLiteral key.name)
        exact opening_empty.wholeText (hkey.closer hclose)

theorem whole_tuple (plain : List Nat) {sources : List Fragment}
    (hsources : forall f, f ∈ sources -> f.Whole) (row : List Typed) :
    forall f, f ∈ tuple plain sources row -> f.Whole := by
  intro f hf
  rcases List.mem_append.mp hf with hplain | hsource
  · rcases List.mem_map.mp hplain with ⟨index, -, rfl⟩
    exact opening_empty.value _
  · exact hsources f hsource

theorem whole_tuples {plain : List Nat} {sources : List Fragment}
    (hsources : forall f, f ∈ sources -> f.Whole) {rows : List (List Typed)} (hne : rows ≠ [])
    {query : Fragment} (hquery : query.Opening) : (tuples query plain sources rows).Whole := by
  have hopen : IsOpener "(" := isOpener_sql rfl
  have hcomma : IsJoiner "," := isJoiner_sql rfl rfl
  have hclose : IsCloser ")" := isCloser_sql rfl rfl
  induction rows generalizing query with
  | nil => exact absurd rfl hne
  | cons row rest ih =>
      have hrow := whole_joined_text (hquery.text hopen) (whole_tuple plain hsources row) hcomma
        hclose
      cases rest with
      | nil => exact hrow
      | cons next more => exact ih (List.cons_ne_nil next more) (hrow.joiner hcomma)

theorem isOpener_names {before after : String} (hbefore : IsOpener before) (hafter : IsJoiner after)
    {names : List String} (hnames : forall name, name ∈ names -> name = "" ∨ IsWholeText name) :
    IsOpener (before ++ ",".intercalate names ++ after) := by
  have hcomma : IsJoiner "," := isJoiner_sql rfl rfl
  induction names generalizing before with
  | nil =>
      rw [String.intercalate_nil, String.append_empty]
      exact hbefore.append hafter.isOpener
  | cons name rest ih =>
      have hname := hnames name List.mem_cons_self
      cases rest with
      | nil =>
          rw [String.intercalate_singleton]
          rcases hname with rfl | hname
          · rw [String.append_empty]
            exact hbefore.append hafter.isOpener
          · exact (hbefore.whole hname).joiner hafter
      | cons next more =>
          have hnext : IsOpener (before ++ name ++ ",") := by
            rcases hname with rfl | hname
            · rw [String.append_empty]
              exact hbefore.append hcomma.isOpener
            · exact (hbefore.whole hname).joiner hcomma
          have hall := ih hnext fun name hname => hnames name (List.mem_cons_of_mem _ hname)
          rw [String.intercalate_cons_cons]
          simpa only [String.append_assoc] using hall

theorem columnName_cases (t : Table) (index : Nat) :
    columnName t index = "" ∨ IsWholeText (columnName t index) := by
  unfold columnName
  split
  · exact Or.inr (isWholeText_quoteIdent _)
  · exact Or.inl rfl

theorem isCloser_conflictTarget (target : List String) :
    IsCloser (" ON CONFLICT (" ++ ",".intercalate (target.map Text.quoteIdent) ++ ")") := by
  have hopen : IsJoiner " ON CONFLICT (" := isJoiner_sql rfl rfl
  have hclose : IsCloser ")" := isCloser_sql rfl rfl
  cases target with
  | nil =>
      rw [List.map_nil, String.intercalate_nil, String.append_empty]
      exact hopen.whole hclose.isWholeText
  | cons name rest =>
      refine (hopen.whole (isWholeText_intercalate (isJoiner_sql rfl rfl) ?_ ?_)).closer hclose
      · exact List.cons_ne_nil _ _
      · intro text htext
        rcases List.mem_map.mp htext with ⟨name, -, rfl⟩
        exact isWholeText_quoteIdent name

theorem isCloser_conflictClause (conflict : OnConflict) : IsCloser (conflictClause conflict) := by
  cases conflict with
  | nothing => exact isCloser_sql rfl rfl
  | update target assign =>
      have htarget := isCloser_conflictTarget target
      unfold conflictClause
      dsimp only
      split
      · exact htarget.closer (isCloser_sql rfl rfl)
      · rename_i hne
        have hset : IsJoiner " DO UPDATE SET " := isJoiner_sql rfl rfl
        have hequals : IsJoiner " = EXCLUDED." := isJoiner_sql rfl rfl
        have hcomma : IsJoiner ", " := isJoiner_sql rfl rfl
        refine (htarget.joiner hset).whole (isWholeText_intercalate hcomma (by simpa using hne) ?_)
        intro text htext
        rcases List.mem_map.mp htext with ⟨name, -, rfl⟩
        have hname := isWholeText_quoteIdent name
        exact (hname.joiner hequals).whole hname

def head (t : Table) (names : List String) : Fragment :=
  ((empty.text "INSERT INTO ").table .root t).text ("(" ++ ",".intercalate names ++ ") VALUES ")

theorem opening_head (t : Table) {names : List String}
    (hnames : forall name, name ∈ names -> name = "" ∨ IsWholeText name) :
    (head t names).Opening := by
  have hopen : IsOpener "INSERT INTO " := isOpener_sql rfl
  have hvalues : IsJoiner ") VALUES " := isJoiner_sql rfl rfl
  have hlist := isOpener_names isOpener_empty hvalues hnames
  rw [String.empty_append] at hlist
  rw [head, String.append_assoc]
  exact (opening_empty.text hopen).table_text .root t hlist

def IsWhole (i : Insert) : Prop :=
  forall index q, (index, .subquery q) ∈ i.sources -> q.frame.query.Whole

theorem whole_build (hi : i.IsWhole) {statement : Statement Inserted}
    (h : i.build = .ok statement) : statement.query.Whole := by
  unfold build at h
  cases herror : i.error with
  | some e =>
      rw [herror] at h
      cases h
  | none =>
      rw [herror] at h
      rcases Result.bind_eq_ok.mp h with ⟨t, -, h⟩
      cases hrows : i.rows with
      | nil =>
          rw [hrows] at h
          cases h
      | cons row rest =>
          rw [hrows] at h
          rcases Result.bind_eq_ok.mp h with ⟨sources, hsources, h⟩
          have hwhole : forall f, f ∈ sources -> f.Whole := by
            intro f hf
            rcases Result.exists_origin_of_mapM hsources hf with
              ⟨⟨index, source⟩, hsource, hvalue⟩
            refine whole_sourceValue ?_ hvalue
            intro q hq
            exact hi index q (hq ▸ hsource)
          have hreturning : IsJoiner " RETURNING " := isJoiner_sql rfl rfl
          have hhead : (head t ((i.plainColumns t ++ i.sources.map (·.1)).map
              (columnName t))).Opening := by
            refine opening_head t fun name hname => ?_
            rcases List.mem_map.mp hname with ⟨index, -, rfl⟩
            exact columnName_cases t index
          have htuples : (tuples _ (i.plainColumns t) sources (row :: rest)).Whole :=
            whole_tuples hwhole (List.cons_ne_nil row rest) hhead
          cases h
          refine opening_empty.frame ?_
          dsimp only
          split
          · refine Whole.closer ?_ (hreturning.whole (isWholeText_quoteIdent _))
            split
            · exact htuples.closer (isCloser_conflictClause _)
            · exact htuples
          · split
            · exact htuples.closer (isCloser_conflictClause _)
            · exact htuples

end Insert
end TypedQuery
