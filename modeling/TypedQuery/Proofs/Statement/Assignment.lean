import TypedQuery.Proofs.Statement.Chain
import TypedQuery.Proofs.Statement.Whole

/-!
# Assignments are whole

Every call on an UPDATE makes a whole expression of whole ones, the list and JSON helpers of the
pending expression of their column, so that all assignments of an update are whole at every moment.
-/

namespace TypedQuery

open Fragment

namespace Update

/-- The assignments made so far are whole, and what the filters take from elsewhere is. -/
structure IsWhole (u : Update) : Prop where
  calls : u.calls.KeepsWhole
  assignments : forall entry, entry ∈ u.assignments -> entry.2.query.Whole
  filters : forall e, e ∈ u.filters -> e.IsWhole

variable {u : Update}

def Makes (u : Update) (make : Compiler -> Column -> TypedFragment -> Result TypedFragment) :
    Prop :=
  forall {t : Table} {column : Column} {current f : TypedFragment}, current.query.Whole ->
    make (u.compiler t) column current = .ok f -> f.query.Whole

theorem mem_assigned {index : Nat} {value : TypedFragment} {entries : List (Nat × TypedFragment)}
    {entry : Nat × TypedFragment} (h : entry ∈ assigned index value entries) :
    entry ∈ entries ∨ entry.2 = value := by
  induction entries with
  | nil =>
      rw [assigned, List.mem_singleton] at h
      rw [h]
      exact Or.inr rfl
  | cons first rest ih =>
      rcases first with ⟨i, v⟩
      rw [assigned] at h
      split at h
      · rcases List.mem_cons.mp h with rfl | h
        · exact Or.inr rfl
        · exact Or.inl (List.mem_cons_of_mem _ h)
      · rcases List.mem_cons.mp h with rfl | h
        · exact Or.inl List.mem_cons_self
        · exact (ih h).imp_left (List.mem_cons_of_mem _)

theorem IsWhole.fail (hu : u.IsWhole) (e : Error) : (u.fail e).IsWhole :=
  ⟨hu.calls, hu.assignments, hu.filters⟩

theorem IsWhole.pending (hu : u.IsWhole) (index : Nat) (column : Column) :
    ((u.pending? index).getD
      ⟨Fragment.empty.column .root column.name, column.type⟩).query.Whole := by
  cases hpending : u.pending? index with
  | none => exact opening_empty.column .root column.name
  | some value =>
      rcases Option.map_eq_some_iff.mp hpending with ⟨entry, hentry, rfl⟩
      exact hu.assignments entry (List.mem_of_find?_eq_some hentry)

theorem IsWhole.modify (hu : u.IsWhole) (column : String)
    {make : Compiler -> Column -> TypedFragment -> Result TypedFragment} (hmake : u.Makes make) :
    (u.modify column make).IsWhole := by
  unfold Update.modify
  split
  · exact hu
  · dsimp only
    split
    · rename_i index value houtcome
      rcases Result.bind_eq_ok.mp houtcome with ⟨t, -, houtcome⟩
      rcases Result.bind_eq_ok.mp houtcome with ⟨⟨index', descriptor⟩, -, houtcome⟩
      rcases Result.bind_eq_ok.mp houtcome with ⟨value', hvalue, heq⟩
      cases heq
      refine ⟨hu.calls, ?_, hu.filters⟩
      intro entry hentry
      rcases mem_assigned hentry with hentry | hentry
      · exact hu.assignments entry hentry
      · rw [hentry]
        exact hmake (hu.pending _ _) hvalue
    · exact hu.fail _

theorem IsWhole.modifyJson (hu : u.IsWhole) (path : Expr)
    {make : Compiler -> TypedFragment -> List JsonStep -> Result TypedFragment}
    (hmake : forall steps, u.Makes fun compiler _ current => make compiler current steps) :
    (u.modifyJson path make).IsWhole := by
  unfold Update.modifyJson
  split
  · exact hu
  · split
    · exact hu.fail _
    · rename_i column steps _
      refine hu.modify column ?_
      intro t descriptor current f hcurrent h
      dsimp only at h
      split at h
      · exact @hmake steps t descriptor current f hcurrent h
      · cases h

/-!
## Calls
-/

section

variable {value : Expr}

theorem IsWhole.filter (hu : u.IsWhole) (hvalue : value.IsWhole) : (u.filter value).IsWhole := by
  refine ⟨hu.calls, hu.assignments, ?_⟩
  intro e he
  rcases List.mem_append.mp he with he | he
  · exact hu.filters e he
  · rw [List.mem_singleton.mp he]
    exact hvalue

theorem IsWhole.set (hu : u.IsWhole) (column : String) (hvalue : value.IsWhole) :
    (u.set column value).IsWhole := by
  refine hu.modify column ?_
  intro t descriptor current f _ h
  exact Compiler.whole_compileAs (c := u.compiler t) hu.calls hvalue h

theorem IsWhole.setWith (hu : u.IsWhole) (column : String) {make : Expr -> Expr}
    (hmake : forall current : TypedFragment, current.query.Whole ->
      (make (.compiled current)).IsWhole) : (u.setWith column make).IsWhole := by
  refine hu.modify column ?_
  intro t descriptor current f hcurrent h
  exact Compiler.whole_compileAs (c := u.compiler t) hu.calls (hmake current hcurrent) h

theorem whole_between {before between after : String} (hbefore : IsOpener before)
    {first second : Fragment} (hfirst : first.Whole) (hbetween : IsJoiner between)
    (hsecond : second.Whole) (hafter : IsCloser after) :
    (((((Fragment.empty.text before).nested first).text between).nested second).text after).Whole :=
  ((((opening_empty.text hbefore).nested hfirst).joiner hbetween).nested hsecond).closer hafter

theorem whole_listHelper {c : Compiler} (hcalls : c.calls.KeepsWhole) (hvalue : value.IsWhole)
    {descriptor : Column} {target : SqlType -> SqlType} {write : TypedFragment -> TypedFragment}
    (hwrite : forall g : TypedFragment, g.query.Whole -> (write g).query.Whole) {f : TypedFragment}
    (h : (do
      let item <- requireList descriptor
      let g <- c.compileAs (target item) value
      return write g) = .ok f) : f.query.Whole := by
  rcases Result.bind_eq_ok.mp h with ⟨item, -, h⟩
  rcases Result.bind_eq_ok.mp h with ⟨g, hg, hf⟩
  cases hf
  exact hwrite g (Compiler.whole_compileAs hcalls hvalue hg)

theorem IsWhole.addToList (hu : u.IsWhole) (column : String) (hvalue : value.IsWhole) :
    (u.addToList column value).IsWhole := by
  refine hu.modify column ?_
  intro t descriptor current f hcurrent
  refine whole_listHelper (c := u.compiler t) hu.calls hvalue ?_
  intro added hadded
  exact whole_between (isOpener_sql rfl) hcurrent (isJoiner_sql rfl rfl) hadded
    (isCloser_sql rfl rfl)

theorem isCloser_emptyArray : IsCloser ", '\x7b\x7d')))))" := by
  have hcomma : IsJoiner ", " := isJoiner_sql rfl rfl
  have hclose : IsCloser ")))))" := isCloser_sql rfl rfl
  exact (hcomma.whole (isWholeText_quoteLiteral "\x7b\x7d")).closer hclose

theorem IsWhole.addToListDistinct (hu : u.IsWhole) (column : String) (hvalue : value.IsWhole) :
    (u.addToListDistinct column value).IsWhole := by
  refine hu.modify column ?_
  intro t descriptor current f hcurrent
  refine whole_listHelper (c := u.compiler t) hu.calls hvalue ?_
  intro added hadded
  have hopen : IsOpener "array_cat(" := isOpener_sql rfl
  have hunnest : IsJoiner ", ARRAY(SELECT e FROM unnest(" := isJoiner_sql rfl rfl
  have habsent : IsJoiner ") AS e WHERE NOT (e = ANY(COALESCE(" := isJoiner_sql rfl rfl
  have hfirst := (((opening_empty.text hopen).nested hcurrent).joiner hunnest).nested hadded
  exact ((hfirst.joiner habsent).nested hcurrent).closer isCloser_emptyArray

theorem IsWhole.removeFromList (hu : u.IsWhole) (column : String) (hvalue : value.IsWhole) :
    (u.removeFromList column value).IsWhole := by
  refine hu.modify column ?_
  intro t descriptor current f hcurrent
  refine whole_listHelper (c := u.compiler t) hu.calls hvalue ?_
  intro removed hremoved
  exact whole_between (isOpener_sql rfl) hcurrent (isJoiner_sql rfl rfl) hremoved
    (isCloser_sql rfl rfl)

theorem IsWhole.removeAllFromList (hu : u.IsWhole) (column : String) (hvalue : value.IsWhole) :
    (u.removeAllFromList column value).IsWhole := by
  refine hu.modify column ?_
  intro t descriptor current f hcurrent
  refine whole_listHelper (c := u.compiler t) hu.calls hvalue ?_
  intro removed hremoved
  exact whole_between (isOpener_sql rfl) hcurrent (isJoiner_sql rfl rfl) hremoved
    (isCloser_sql rfl rfl)

/-!
## JSON helpers
-/

theorem whole_jsonValue {c : Compiler} (hcalls : c.calls.KeepsWhole) (hvalue : value.IsWhole)
    {f : TypedFragment} (h : jsonValue c value = .ok f) : f.query.Whole := by
  rcases Result.bind_eq_ok.mp h with ⟨compiled, hcompiled, h⟩
  split at h
  · cases h
    have hcast : IsCloser "::jsonb" := isCloser_sql rfl rfl
    exact opening_empty.wholeText ((isWholeText_quoteLiteral "null").closer hcast)
  · cases h
    exact Compiler.whole_compileAs hcalls hvalue hcompiled

theorem whole_pathArray (steps : List JsonStep) : (pathArray steps).Whole := by
  have hopen : IsOpener "ARRAY[" := isOpener_sql rfl
  have hcomma : IsJoiner "," := isJoiner_sql rfl rfl
  have hclose : IsCloser "]::text[]" := isCloser_sql rfl rfl
  -- Behind the first step, which has number 0, the fragment is whole.
  have hrest : forall (rest : List JsonStep) (n : Nat) (f : Fragment), f.Whole ->
      ((rest.zipIdx (n + 1)).foldl (fun query entry =>
        (if entry.2 = 0 then query else query.text ",").value
          ⟨.text entry.1.asText, .text⟩) f).Whole := by
    intro rest
    induction rest with
    | nil => exact fun _ _ hf => hf
    | cons step more ih =>
        intro n f hf
        rw [List.zipIdx_cons, List.foldl_cons, if_neg (Nat.succ_ne_zero n)]
        exact ih (n + 1) _ ((hf.joiner hcomma).value _)
  unfold pathArray
  cases steps with
  | nil => exact (opening_empty.text hopen).wholeText hclose.isWholeText
  | cons step rest =>
      have hfirst := (opening_empty.text hopen).value ⟨.text step.asText, .text⟩
      exact (hrest rest 0 _ hfirst).closer hclose

theorem isJoiner_emptyDocument : IsJoiner ", '\x7b\x7d'::jsonb), " := by
  have hcomma : IsJoiner ", " := isJoiner_sql rfl rfl
  have hcast : IsJoiner "::jsonb), " := isJoiner_sql rfl rfl
  exact hcomma.append ((isWholeText_quoteLiteral "\x7b\x7d").joiner hcast)

theorem IsWhole.jsonSet (hu : u.IsWhole) (path : Expr) (hvalue : value.IsWhole) :
    (u.jsonSet path value).IsWhole := by
  refine hu.modifyJson path ?_
  intro steps t descriptor current f hcurrent h
  rcases Result.bind_eq_ok.mp h with ⟨compiled, hcompiled, h⟩
  have hwhole := whole_jsonValue (c := u.compiler t) hu.calls hvalue hcompiled
  split at h
  · cases h
    exact hwhole
  · cases h
    have hopen : IsOpener "jsonb_set(COALESCE(" := isOpener_sql rfl
    have hcomma : IsJoiner ", " := isJoiner_sql rfl rfl
    have hclose : IsCloser ", true)" := isCloser_sql rfl rfl
    have htarget := ((opening_empty.text hopen).nested hcurrent).joiner isJoiner_emptyDocument
    exact (((htarget.nested (whole_pathArray steps)).joiner hcomma).nested hwhole).closer hclose

theorem IsWhole.jsonAppend (hu : u.IsWhole) (path : Expr) (hvalue : value.IsWhole) :
    (u.jsonAppend path value).IsWhole := by
  refine hu.modifyJson path ?_
  intro steps t descriptor current f hcurrent h
  rcases Result.bind_eq_ok.mp h with ⟨compiled, hcompiled, h⟩
  cases h
  have hwhole := whole_jsonValue (c := u.compiler t) hu.calls hvalue hcompiled
  have hopen : IsOpener "jsonb_append_at_path(COALESCE(" := isOpener_sql rfl
  have hcomma : IsJoiner ", " := isJoiner_sql rfl rfl
  have hclose : IsCloser ")" := isCloser_sql rfl rfl
  have htarget := ((opening_empty.text hopen).nested hcurrent).joiner isJoiner_emptyDocument
  exact (((htarget.nested (whole_pathArray steps)).joiner hcomma).nested hwhole).closer hclose

theorem isOpener_elements :
    IsOpener "(SELECT COALESCE(jsonb_agg(e), '[]'::jsonb) FROM jsonb_array_elements(" := by
  have hbefore : IsOpener "(SELECT COALESCE(jsonb_agg(e), " := isOpener_sql rfl
  have hafter : IsJoiner "::jsonb) FROM jsonb_array_elements(" := isJoiner_sql rfl rfl
  exact hbefore.append ((isWholeText_quoteLiteral "[]").joiner hafter)

theorem IsWhole.jsonRemoveValue (hu : u.IsWhole) (path : Expr) (hvalue : value.IsWhole) :
    (u.jsonRemoveValue path value).IsWhole := by
  refine hu.modifyJson path ?_
  intro steps t descriptor current f hcurrent h
  rcases Result.bind_eq_ok.mp h with ⟨compiled, hcompiled, h⟩
  have hwhole := whole_jsonValue (c := u.compiler t) hu.calls hvalue hcompiled
  have hkept : forall elements : Fragment, elements.Whole ->
      (((((Fragment.empty.text
        "(SELECT COALESCE(jsonb_agg(e), '[]'::jsonb) FROM jsonb_array_elements(").nested
          elements).text ") AS e WHERE e <> ").nested compiled.query).text ")").Whole :=
    fun elements helements =>
      whole_between isOpener_elements helements (isJoiner_sql rfl rfl) hwhole (isCloser_sql rfl rfl)
  split at h
  · cases h
    exact hkept _ hcurrent
  · cases h
    have hpath := whole_pathArray steps
    have hopen : IsOpener "jsonb_set(" := isOpener_sql rfl
    have hcomma : IsJoiner ", " := isJoiner_sql rfl rfl
    have hclose : IsCloser ")" := isCloser_sql rfl rfl
    have helements := whole_between (isOpener_sql rfl : IsOpener "(") hcurrent
      (isJoiner_sql rfl rfl : IsJoiner " #> ") hpath (isCloser_sql rfl rfl : IsCloser ")")
    have htarget := ((opening_empty.text hopen).nested hcurrent).joiner hcomma
    exact (((htarget.nested hpath).joiner hcomma).nested (hkept _ helements)).closer hclose

end

/-!
## Statements
-/

/-- The expressions of the call are drafted; of the fragments made before, what is put in the place
of one may hold that one. -/
def Call.Drafted : Call -> Prop
  | withRegistry calls => calls.KeepsWhole
  | setWith _ make => forall current : TypedFragment, (make (.compiled current)).Drafted [current]
  | filter value | exclude value | set _ value | addToList _ value | addToListDistinct _ value
  | removeFromList _ value | removeAllFromList _ value | jsonSet _ value | jsonAppend _ value
  | jsonRemoveValue _ value => value.Drafted []

theorem IsWhole.apply (hu : u.IsWhole) {call : Call} (hcall : call.Drafted) :
    (call.apply u).IsWhole := by
  cases call with
  | withRegistry calls => exact ⟨hcall, hu.assignments, hu.filters⟩
  | setWith column make =>
      refine hu.setWith column fun current hcurrent => (hcall current).isWhole fun f hf => ?_
      rw [List.mem_singleton.mp hf]
      exact hcurrent
  | filter value => exact hu.filter (Expr.Drafted.isWhole_nil hcall)
  | exclude value => exact hu.filter ((Expr.Drafted.isWhole_nil hcall).mono fun _ h => h)
  | set column value => exact hu.set column (Expr.Drafted.isWhole_nil hcall)
  | addToList column value => exact hu.addToList column (Expr.Drafted.isWhole_nil hcall)
  | addToListDistinct column value =>
      exact hu.addToListDistinct column (Expr.Drafted.isWhole_nil hcall)
  | removeFromList column value => exact hu.removeFromList column (Expr.Drafted.isWhole_nil hcall)
  | removeAllFromList column value =>
      exact hu.removeAllFromList column (Expr.Drafted.isWhole_nil hcall)
  | jsonSet path value => exact hu.jsonSet path (Expr.Drafted.isWhole_nil hcall)
  | jsonAppend path value => exact hu.jsonAppend path (Expr.Drafted.isWhole_nil hcall)
  | jsonRemoveValue path value => exact hu.jsonRemoveValue path (Expr.Drafted.isWhole_nil hcall)

theorem isWhole_made (m : Model) {calls : List Call}
    (hcalls : forall call, call ∈ calls -> call.Drafted) : (made m calls).IsWhole := by
  have hstart : (ofModel m).IsWhole := by
    unfold ofModel
    split <;> exact ⟨CallRegistry.builtin_keepsWhole, fun _ h => absurd h List.not_mem_nil,
      fun _ h => absurd h List.not_mem_nil⟩
  unfold made
  generalize ofModel m = u at hstart
  induction calls generalizing u with
  | nil => exact hstart
  | cons call rest ih =>
      rw [List.foldl_cons]
      exact ih (fun call hcall => hcalls call (List.mem_cons_of_mem _ hcall)) _
        (hstart.apply (hcalls call List.mem_cons_self))

theorem isOpener_assigned (t : Table) (index : Nat) :
    IsOpener ((match t.columns[index]? with | some c => c.quoted | none => "") ++ " = ") := by
  have hequals : IsJoiner " = " := isJoiner_sql rfl rfl
  split
  · exact (isWholeText_quoteIdent _).joiner hequals
  · exact isOpener_empty.append hequals.isOpener

theorem whole_build (hu : u.IsWhole) {statement : Statement Nat} (h : u.build = .ok statement) :
    statement.query.Whole := by
  unfold build at h
  cases herror : u.error with
  | some e =>
      rw [herror] at h
      cases h
  | none =>
      rw [herror] at h
      rcases Result.bind_eq_ok.mp h with ⟨t, -, h⟩
      split at h
      · cases h
      · rename_i hne
        rcases Result.bind_eq_ok.mp h with ⟨query, hquery, hstatement⟩
        cases hstatement
        have hopen : IsOpener "UPDATE " := isOpener_sql rfl
        have hset : IsJoiner " SET " := isJoiner_sql rfl rfl
        have hcomma : IsJoiner ", " := isJoiner_sql rfl rfl
        have hhead := ((opening_empty.text hopen).table .root t).joiner hset
        refine opening_empty.frame (Fragment.whole_filtered (c := u.compiler t) hu.calls ?_
          hu.filters hquery)
        refine whole_joined hhead (by simpa using hne) ?_ hcomma
        intro item hitem
        rcases List.mem_map.mp hitem with ⟨⟨index, value⟩, hentry, rfl⟩
        exact (opening_empty.text (isOpener_assigned t index)).nested (hu.assignments _ hentry)

end Update
end TypedQuery
