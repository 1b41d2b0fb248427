import TypedQuery.Proofs.Fragment.Alias
import TypedQuery.Proofs.Statement.Body

/-!
# Conditions of joins

The condition of a join is compiled for the tables up to its own and stands behind its table in the
finished query, because clauses that follow only append.  Since a compiled expression mentions what
its paths resolve to, a condition mentions no table that is joined later.
-/

namespace TypedQuery

/-!
## The condition in the query
-/

namespace Fragment.HasStretch

variable {f g : Fragment} {parts : List Part}

theorem filtered (h : f.HasStretch parts) {c : Compiler} {predicates : List Expr}
    (hg : f.filtered c predicates = .ok g) : g.HasStretch parts := by
  unfold Fragment.filtered at hg
  split at hg
  · cases hg
    exact h
  · rcases Result.bind_eq_ok.mp hg with ⟨compiled, -, heq⟩
    cases heq
    exact (h.push _).push _

variable {α : Type} {s : Select α}

theorem joinClauses (h : f.HasStretch parts) {slots : Nat}
    {clauses : List ((Slot × Table) × Expr)} (hg : s.joinClauses f slots clauses = .ok g) :
    g.HasStretch parts := by
  induction clauses generalizing f slots with
  | nil =>
      cases hg
      exact h
  | cons clause rest ih =>
      rcases Result.bind_eq_ok.mp hg with ⟨condition, -, hrest⟩
      exact ih (((((h.push _).push _).push _).push _).push _) hrest

theorem ordered (h : f.HasStretch parts) (hg : s.ordered f = .ok g) : g.HasStretch parts := by
  rcases Result.bind_eq_ok.mp hg with ⟨items, -, heq⟩
  cases heq
  have hitems : (if items.isEmpty then f else (f.text " ORDER BY ").joined items ", ").HasStretch
      parts := by
    split
    · exact h
    · exact (h.push _).joined items _
  cases s.limit <;> cases s.offset
  · exact hitems
  · exact hitems.push _
  · exact hitems.push _
  · exact (hitems.push _).push _

end Fragment.HasStretch

namespace Select

variable {α : Type} {s : Select α}

theorem condition_of_joinClauses {clauses : List ((Slot × Table) × Expr)} {query result : Fragment}
    {slots : Nat} (h : s.joinClauses query slots clauses = .ok result) {k : Nat} {slot : Slot}
    {t : Table} {on : Expr} (hclause : clauses[k]? = some ((slot, t), on)) :
    exists condition, (s.compiler (slots + k)).compilePredicate on = .ok condition ∧
      result.HasStretch [.table slot t, .text " ON (", .nested condition.query.parts] := by
  induction clauses generalizing query slots k with
  | nil => cases hclause
  | cons clause rest ih =>
      rcases clause with ⟨⟨slot', t'⟩, on'⟩
      rcases Result.bind_eq_ok.mp h with ⟨condition, hcondition, hrest⟩
      cases k with
      | zero =>
          cases hclause
          refine ⟨condition, hcondition, ?_⟩
          have htable := (query.text " LEFT JOIN ").hasStretch_table slot t " ON (" condition.query
          exact (htable.push _).joinClauses hrest
      | succ k =>
          rw [List.getElem?_cons_succ] at hclause
          have hnext := ih hrest hclause
          rwa [show slots + 1 + k = slots + (k + 1) by omega] at hnext

/-- The condition of a join is compiled for its own table and those before it, and stands behind
its table. -/
theorem condition_of_body {query : Fragment} {single : Option SqlType}
    (h : s.body = .ok (query, single)) {k : Nat} {on : Expr} (hon : s.joins[k]? = some on)
    {slot : Slot} {t : Table} (ht : s.tables[k + 1]? = some (slot, t)) :
    exists condition, (s.compiler (k + 2)).compilePredicate on = .ok condition ∧
      query.HasStretch [.table slot t, .text " ON (", .nested condition.query.parts] := by
  rcases body_cases h with
    ⟨parts, head, root, t', rest, joined, filtered, -, -, htables, hjoined, hfiltered, hordered⟩
  have hclause : (rest.zip s.joins)[k]? = some ((slot, t), on) := by
    rw [htables, List.getElem?_cons_succ] at ht
    exact List.getElem?_zip_eq_some.mpr ⟨ht, hon⟩
  rcases condition_of_joinClauses hjoined hclause with ⟨condition, hcondition, hstretch⟩
  rw [Nat.add_comm 2 k] at hcondition
  exact ⟨condition, hcondition, (hstretch.filtered hfiltered).ordered hordered⟩

end Select

/-!
## Expressions in scope
-/

namespace Compiler

variable {c : Compiler} {e : Expr}

theorem resolves_of_columnOf {path : List PathStep} {ref : Slot × String}
    (h : c.columnOf path = .ok ref) : exists r, c.resolve path = .ok r := by
  rcases Result.bind_eq_ok.mp h with ⟨r, hr, -⟩
  exact ⟨r, hr⟩

theorem exists_table_of_mem_columns (hcalls : c.calls.Composes) (hplain : e.isPlain = true)
    {f : TypedFragment} (h : c.compile e = .ok f) {ref : Slot × String}
    (href : ref ∈ f.query.columns) : exists t, (ref.1, t) ∈ c.scope.tables := by
  rcases ref with ⟨slot, name⟩
  rcases columns_of_compile hcalls hplain h with ⟨-, refs, hrefs, hperm⟩
  rcases Result.exists_origin_of_mapM hrefs (hperm.subset href) with ⟨path, -, hpath⟩
  rcases declares_of_columnOf hpath with ⟨_, t, column, htable, -, hpart⟩
  cases hpart
  exact ⟨t, Scope.mem_of_table htable⟩

/-- A plain expression compiles only if all its paths resolve and no error is kept in it; then its
fragment mentions exactly the columns that the paths resolve to, each as often as a path does.  In a
query, the condition of a join is such a fragment, and the columns in it have the slots of the
tables up to its own. -/
theorem compile_scope_safe :
    (forall (c : Compiler) (e : Expr), c.calls = .builtin -> e.isPlain = true ->
      (forall f, c.compile e = .ok f ->
        (forall path, path ∈ e.paths -> exists r, c.resolve path = .ok r) ∧
          (forall error, .invalid error ∉ e.sources) ∧
          exists refs, e.paths.mapM c.columnOf = .ok refs ∧ f.query.columns.Perm refs) ∧
      ((exists path error, path ∈ e.paths ∧ c.resolve path = .error error) ∨
          (exists error, .invalid error ∈ e.sources) ->
        exists error, c.compile e = .error error)) ∧
    (forall {α : Type} (s : Select α), s.Built -> s.calls = .builtin ->
      forall statement, s.build = .ok statement ->
        forall k on, s.joins[k]? = some on -> on.isPlain = true ->
          exists body slot t condition, statement.query = s.framed body ∧
            s.tables[k + 1]? = some (slot, t) ∧
            (s.compiler (k + 2)).compilePredicate on = .ok condition ∧
            [.table slot t, .text " ON (", .nested condition.query.parts] <:+: body.parts ∧
            forall ref, ref ∈ condition.query.columns ->
              exists i, i ≤ k + 1 ∧ ref.1 = Slot.ofPosition i) := by
  constructor
  · intro c e hcalls hplain
    have hcomposes : c.calls.Composes := hcalls ▸ CallRegistry.builtin_composes
    have hsafe : forall f, c.compile e = .ok f ->
        (forall path, path ∈ e.paths -> exists r, c.resolve path = .ok r) ∧
          (forall error, .invalid error ∉ e.sources) ∧
          exists refs, e.paths.mapM c.columnOf = .ok refs ∧ f.query.columns.Perm refs := by
      intro f h
      rcases columns_of_compile hcomposes hplain h with ⟨hvalid, refs, hrefs, hperm⟩
      refine ⟨?_, hvalid, refs, hrefs, hperm⟩
      intro path hpath
      rcases Result.exists_image_of_mapM hrefs hpath with ⟨ref, -, href⟩
      exact resolves_of_columnOf href
    refine ⟨hsafe, ?_⟩
    intro hbad
    cases h : c.compile e with
    | error error => exact ⟨error, rfl⟩
    | ok f =>
        rcases hsafe f h with ⟨hresolve, hvalid, -⟩
        rcases hbad with ⟨path, error, hpath, herror⟩ | ⟨error, herror⟩
        · rcases hresolve path hpath with ⟨r, hr⟩
          rw [herror] at hr
          cases hr
        · exact absurd herror (hvalid error)
  · intro α s hbuilt hcalls statement hbuild k on hon hplain
    rcases Result.bind_eq_ok.mp hbuild with ⟨⟨body, single⟩, hbody, hstatement⟩
    cases hstatement
    have hwell := hbuilt.wellFormed
    have hlength := hwell.joins (Select.error_of_body hbody)
    rcases List.getElem?_eq_some_iff.mp hon with ⟨hk, -⟩
    have hentry : exists entry, s.tables[k + 1]? = some entry :=
      ⟨_, List.getElem?_eq_getElem (by omega)⟩
    rcases hentry with ⟨⟨slot, t⟩, ht⟩
    rcases Select.condition_of_body hbody hon ht with ⟨condition, hcondition, hstretch⟩
    refine ⟨body, slot, t, condition, rfl, ht, hcondition, hstretch.isInfix, ?_⟩
    intro ref href
    have hcomposes : (s.compiler (k + 2)).calls.Composes := by
      rw [show (s.compiler (k + 2)).calls = s.calls from rfl, hcalls]
      exact CallRegistry.builtin_composes
    rcases exists_table_of_mem_columns hcomposes hplain (compile_of_compilePredicate hcondition)
      href with ⟨t', hmem⟩
    rcases List.mem_take_iff_getElem.mp hmem with ⟨i, hi, hget⟩
    have hslot : s.tables[i]? = some (ref.1, t') := by
      rw [<- hget]
      exact List.getElem?_eq_getElem _
    exact ⟨i, by omega, hwell.slot_eq hslot⟩

end Compiler

namespace Select

def onWriter : Expr := .binary .eq (.col "id") (.slotCol (.ofPosition 1) "writer_id")

def writersJoining (table : String) : Select (Instance × Option Instance) :=
  (ofModel ⟨"Writer", .ok Fragment.writerTable, []⟩).leftJoin
    ⟨"Entry", .ok { Fragment.entryTable with name := table }, []⟩ onWriter

theorem built_writersJoining (table : String) : (writersJoining table).Built :=
  .leftJoin (.ofModel (Model.isValid_of_validate rfl)) (Model.isValid_of_validate rfl) onWriter

end Select

namespace Compiler

open Select (onWriter writersJoining built_writersJoining)

theorem onWriter_scope_safe :
    (writersJoining "entry").Built ∧ (writersJoining "entry").calls = .builtin ∧
      (exists statement, (writersJoining "entry").build = .ok statement) ∧
      (writersJoining "entry").joins[0]? = some onWriter ∧ onWriter.isPlain = true ∧
      exists condition,
        ((writersJoining "entry").compiler 2).compilePredicate onWriter = .ok condition ∧
        condition.query.columns.Perm [(.ofPosition 0, "id"), (.ofPosition 1, "writer_id")] ∧
        forall ref, ref ∈ condition.query.columns ->
          exists i, i ≤ 1 ∧ ref.1 = Slot.ofPosition i := by
  rcases compile_scope_safe.2 (writersJoining "entry") (built_writersJoining _) rfl _ rfl 0 onWriter
    rfl rfl with ⟨body, slot, t, condition, -, -, hcondition, -, hslots⟩
  rcases compile_scope_safe.1 ((writersJoining "entry").compiler 2) onWriter rfl rfl with
    ⟨hsafe, -⟩
  rcases hsafe condition (compile_of_compilePredicate hcondition) with ⟨-, -, refs, hrefs, hperm⟩
  cases hrefs
  exact ⟨built_writersJoining _, rfl, ⟨_, rfl⟩, rfl, rfl, condition, hcondition, hperm, hslots⟩

end Compiler

end TypedQuery
