import TypedQuery.Proofs.Statement.DocumentValue

/-!
# NULL as the value of a JSON helper

A value that is folded to NULL is written as the null of documents if the NULL has no type.  With
another type it is converted like a value of this type: it stays NULL where the server knows its
type, and the server refuses to convert it where it does not.
-/

namespace TypedQuery

open Server

/-!
## What is written
-/

def nullFragment (T : SqlType) : TypedFragment :=
  if T = .null then ⟨Fragment.empty.text "'null'::jsonb", .json none⟩
  else if T.isJson then .ofValue ⟨.null, T⟩
  else (TypedFragment.ofValue ⟨.null, T⟩).toJsonb

def nullTree (T : SqlType) : Tree :=
  if T = .null then .cast (.string "null") (SqlType.json none).tokens
  else if T.isJson then .keyword "null"
  else Tree.json T (.keyword "null")

def nullValue? (T : SqlType) : Option Value :=
  if T = .null then some (.json .null)
  else if T.isJson ∨ T = .text then some .null
  else none

theorem jsonValue_null (c : Compiler) {e : Expr} {T : SqlType}
    (hnull : fold e = .constant ⟨.null, T⟩) :
    Update.jsonValue c e = .ok (nullFragment T) := by
  have hlabel : TypedFragment.enumLabel? (.json none) (fold e) = none := rfl
  have hnode : c.node (fold e) = .ok (.ofValue ⟨.null, T⟩) := by
    rw [hnull, Compiler.node]
  unfold Update.jsonValue Compiler.compileAs nullFragment
  dsimp only
  rw [hlabel]
  dsimp only
  rw [hnode]
  cases T <;> rfl

namespace Reader

variable {r : Reader}

theorem atomText_null {T : SqlType} {written : List Char}
    (h : (Fragment.empty.value ⟨.null, T⟩).WrittenAs r.spelled r.scopes written) :
    AtomText r.conforming r.env written (.keyword "null") := by
  rcases h.of_value with ⟨_, _, rfl, hempty, ⟨literal, hliteral, rfl⟩ | ⟨hnone, -⟩⟩
  · rw [hempty.eq_of_empty, List.nil_append, Value.literal_of_inline hliteral]
    exact Value.null.literal_text.2 rfl
  · cases hnone

theorem yieldsAtom_toJsonb {f : TypedFragment} {t : Tree} (hqualified : t.isQualified = true)
    (hf : forall written, f.query.WrittenAs r.spelled r.scopes written ->
      WholeText r.conforming r.env written t) :
    r.YieldsAtom f.toJsonb.query (Tree.json f.type t) := by
  unfold TypedFragment.toJsonb Tree.json
  split
  · intro written hwritten
    rcases Fragment.WrittenAs.of_between hwritten with ⟨text, rfl, htext⟩
    have hcall := atomText_call "to_jsonb" rfl ((hf text htext).group.cast .text).whole
    have hatom := hcall.query (by simpa [Tree.isQualified, Tree.allQualified] using hqualified)
    simpa [SqlType.cast, Tree.castTo] using hatom
  · intro written hwritten
    rcases Fragment.WrittenAs.of_between hwritten with ⟨text, rfl, htext⟩
    have hcall := atomText_call "to_jsonb" rfl (hf text htext)
    have hatom := hcall.query (by simpa [Tree.isQualified, Tree.allQualified] using hqualified)
    simpa using hatom

theorem yieldsAtom_nullFragment (T : SqlType) :
    r.YieldsAtom (nullFragment T).query (nullTree T) := by
  unfold nullFragment nullTree
  split
  · have hnull : AtomText r.conforming r.env "'null'".toList (.string "null") :=
      Reader.atomText_literal rfl
    exact yieldsAtom_text (hnull.cast (.json none)) rfl
  split
  · exact fun written hwritten => (atomText_null hwritten).query rfl
  · exact yieldsAtom_toJsonb (f := .ofValue ⟨.null, T⟩) rfl fun written hwritten =>
      (atomText_null hwritten).whole

end Reader

/-!
## What it comes to
-/

namespace Server.Tree

variable {engine : Engine} {columns : Columns}

theorem routines_toJsonb (engine : Engine) :
    Bootstrap.routines engine "to_jsonb" .jsonb = none := by
  rw [Bootstrap.routines, Bootstrap.ofDefinition?_appendAtPath]
  rfl

theorem denote_nullTree (T : SqlType) :
    (nullTree T).denote engine (Bootstrap.routines engine) columns .jsonb = nullValue? T := by
  unfold nullTree nullValue?
  split
  · rw [denote_cast .jsonb rfl]
    exact engine.input_null
  rename_i huntyped
  split
  · rename_i hjson
    rw [if_pos (Or.inl hjson)]
    rfl
  rename_i hjson
  unfold Tree.json
  split
  · rename_i htext
    rw [if_pos (Or.inr htext)]
    have hcast : (Tree.castTo (.keyword "null") .text).denote engine (Bootstrap.routines engine)
        columns .text = some .null := denote_cast _ rfl
    exact (denote_call rfl rfl (evaluated?_cons hcast evaluated?_nil)).trans rfl
  · rename_i htext
    rw [if_neg (not_or.mpr ⟨hjson, htext⟩)]
    exact denote_unknown rfl rfl (routines_toJsonb engine)

end Server.Tree

/-!
## What turns a document into NULL
-/

theorem Function.documentSet_ne_null (args : List Value) : documentSet args ≠ some .null := by
  unfold documentSet
  split
  · simp [Option.bind_eq_some_iff]
  · simp [Option.bind_eq_some_iff]
  · exact nofun

theorem Function.strict_documentSet_eq_null_iff {args : List Value} :
    strict documentSet args = some .null <-> args.any Value.isNull = true := by
  rw [strict]
  split
  · exact iff_of_true rfl ‹_›
  · exact iff_of_false (documentSet_ne_null args) ‹_›

theorem Server.ElementQuery.value?_document_ne_null {source condition : Meaning}
    {columns : Columns} :
    document.value? source condition columns .jsonb ≠ some .null := by
  simp [value?, element?, collected, Option.bind_eq_some_iff]

theorem Value.isNull_iff {v : Value} : v.isNull = true <-> v = .null :=
  ⟨Value.eq_null_of_isNull, fun h => h ▸ rfl⟩

namespace JsonHelper

variable {engine : Engine} {columns : Columns} {current : Tree} {d : Json}

/-- Setting a path in a document gives NULL if the value is NULL, and only then. -/
theorem denote_jsonbSet_eq_null_iff {routines : Routines} {target : Tree}
    (htarget : target.denote engine routines columns .jsonb = some (.json d))
    (steps : List JsonStep) (value : Tree) {flags : List Tree} {truths : List Bool}
    (hflags : Function.evaluated? columns (Tree.denoteAll engine routines flags)
      (flags.map fun _ => .boolean) = some (truths.map .bool)) :
    (Tree.call "jsonb_set" (target :: pathTree steps :: value :: flags)).denote engine routines
        columns .jsonb = some .null <->
      value.denote engine routines columns .jsonb = some .null := by
  let path : Value := .array (steps.map fun step => .text step.asText)
  have hpath : (pathTree steps).denote engine routines columns (.array .text) = some path :=
    Tree.denote_path steps
  have hargs : Function.evaluated? columns
      (Tree.denoteAll engine routines (target :: pathTree steps :: value :: flags))
      (.jsonb :: .array .text :: .jsonb :: flags.map fun _ => .boolean) =
        (value.denote engine routines columns .jsonb).map fun v =>
          .json d :: path :: v :: truths.map .bool := by
    simp only [Tree.denoteAll, Function.evaluated?, htarget, hpath, hflags, Option.bind_some,
      Option.map_some]
    cases value.denote engine routines columns .jsonb <;> rfl
  have hcall : engine.call? "jsonb_set"
      ((target :: pathTree steps :: value :: flags).map (Tree.type? columns.types)) .jsonb =
        some ⟨.jsonb :: .array .text :: .jsonb :: flags.map fun _ => .boolean,
          Function.strict Function.documentSet⟩ := by
    simp [Engine.call?, Function.comp_def]
  rw [Tree.denote_named rfl _ (by rw [hcall, Option.some_or]), Option.bind_some, Function.applied?,
    hargs]
  cases value.denote engine routines columns .jsonb with
  | none => simp only [Option.map_none, Option.bind_none]
  | some v =>
      have hnull : (.json d :: path :: v :: truths.map .bool).any Value.isNull = v.isNull := by
        simp [path, Value.isNull]
      rw [Option.map_some, Option.bind_some, Function.strict_documentSet_eq_null_iff, hnull,
        Value.isNull_iff, Option.some.injEq]

theorem denote_set_eq_null_iff
    (hcurrent : current.denote engine (Bootstrap.routines engine) columns .jsonb = some (.json d))
    (steps : List JsonStep) (value : Tree) :
    (set.tree steps current value).denote engine (Bootstrap.routines engine) columns .jsonb =
        some .null <->
      value.denote engine (Bootstrap.routines engine) columns .jsonb = some .null := by
  unfold tree
  dsimp only
  split
  · exact Iff.rfl
  · have hstored : current.denote engine (Bootstrap.routines engine) columns .jsonb =
        some (.ofDocument (some d)) := hcurrent
    have hflags : Function.evaluated? columns
        (Tree.denoteAll engine (Bootstrap.routines engine) [.keyword "true"]) [.boolean] =
          some ([true].map .bool) := rfl
    exact denote_jsonbSet_eq_null_iff (Tree.denote_default hstored) steps value hflags

theorem denote_append_ne_null
    (hcurrent : current.denote engine (Bootstrap.routines engine) columns .jsonb = some (.json d))
    (steps : List JsonStep) (T : SqlType) :
    (append.tree steps current (nullTree T)).denote engine (Bootstrap.routines engine) columns
      .jsonb ≠ some .null := by
  have hvalue : (nullTree T).denote engine (Bootstrap.routines engine) columns .jsonb =
      nullValue? T := Tree.denote_nullTree T
  cases hnull : nullValue? T with
  | none =>
      rw [hnull] at hvalue
      let args : List Tree :=
        [.call "coalesce" [current, .emptyObject], pathTree steps, nullTree T]
      have hfound : (engine.call? "jsonb_append_at_path" (args.map (Tree.type? columns.types))
          .jsonb).or (Bootstrap.routines engine "jsonb_append_at_path" .jsonb) =
            some (Bootstrap.appendRoutine.function engine) := by
        rw [Bootstrap.routines_append]
        rfl
      have hargs : Function.evaluated? columns
          (Tree.denoteAll engine (Bootstrap.routines engine) args)
          [.jsonb, .array .text, .jsonb] = none :=
        Function.evaluated?_eq_none hvalue [(_, .jsonb), (_, .array .text)] []
      have hrefused := Tree.denote_call_eq_none rfl hfound hargs
      exact fun h => nomatch hrefused.symm.trans h
  | some v =>
      rw [hnull] at hvalue
      have hitem : Function.item? v = some .null := by
        unfold nullValue? at hnull
        split at hnull
        · cases hnull
          rfl
        split at hnull
        · cases hnull
          rfl
        · cases hnull
      have hstored : current.denote engine (Bootstrap.routines engine) columns .jsonb =
          some (.ofDocument (some d)) := hcurrent
      rw [denote_append hstored hvalue hitem]
      simp

theorem denote_removeValue_ne_null
    (hcurrent : current.denote engine (Bootstrap.routines engine) columns .jsonb = some (.json d))
    (steps : List JsonStep) (value : Tree) :
    (removeValue.tree steps current value).denote engine (Bootstrap.routines engine) columns
      .jsonb ≠ some .null := by
  unfold tree
  dsimp only
  split
  · rw [Tree.denote_query]
    exact ElementQuery.value?_document_ne_null
  · have hflags : Function.evaluated? columns
        (Tree.denoteAll engine (Bootstrap.routines engine) []) [] = some ([].map .bool) := rfl
    rw [Ne, denote_jsonbSet_eq_null_iff hcurrent steps _ hflags, Tree.denote_query]
    exact ElementQuery.value?_document_ne_null

/-- A NULL turns a document into NULL when it is set and stays NULL, and only then. -/
theorem denote_null_eq_null_iff (h : JsonHelper)
    (hcurrent : current.denote engine (Bootstrap.routines engine) columns .jsonb = some (.json d))
    (steps : List JsonStep) (T : SqlType) :
    (h.tree steps current (nullTree T)).denote engine (Bootstrap.routines engine) columns .jsonb =
        some .null <->
      h = set ∧ nullValue? T = some .null := by
  cases h with
  | set =>
      rw [denote_set_eq_null_iff hcurrent, Tree.denote_nullTree]
      exact (and_iff_right rfl).symm
  | append => exact iff_of_false (denote_append_ne_null hcurrent steps T) nofun
  | removeValue => exact iff_of_false (denote_removeValue_ne_null hcurrent steps _) nofun

end JsonHelper

theorem nullValue?_eq_json_iff {T : SqlType} : nullValue? T = some (.json .null) <-> T = .null := by
  unfold nullValue?
  split
  · exact iff_of_true rfl ‹_›
  split
  · exact iff_of_false nofun ‹_›
  · exact iff_of_false nofun ‹_›

theorem nullValue?_eq_null_iff {T : SqlType} :
    nullValue? T = some .null <-> T.isJson = true ∨ T = .text := by
  unfold nullValue?
  split
  · rename_i hnull
    subst hnull
    exact iff_of_false nofun (by decide)
  split
  · exact iff_of_true rfl ‹_›
  · exact iff_of_false nofun ‹_›

namespace Reader

variable {r : Reader} {current : TypedFragment} {tree : Tree}

theorem yields_jsonHelper (h : JsonHelper) (steps : List JsonStep)
    (hcurrent : r.YieldsAtom current.query tree) {v : TypedFragment} {t : Tree}
    (hv : r.YieldsAtom v.query t) :
    r.Yields (h.written steps current v).query (h.tree steps tree t) := by
  cases h with
  | set => exact yields_set steps hcurrent.yields hv.yields
  | append => exact (yieldsAtom_append steps hcurrent.yields hv.yields).yields
  | removeValue => exact (yieldsAtom_removeValue steps hcurrent hv).yields

end Reader

namespace JsonTarget

variable {u : Update} {t : Table} (j : JsonTarget u t) {e : Expr} {T : SqlType} {engine : Engine}
  {columns : Columns} {mode : RenderMode}

theorem evaluate?_nullFragment (hmode : mode ≠ .bound .atSign) :
    engine.evaluate? t mode columns .jsonb (nullFragment T).query = nullValue? T := by
  have hreads : engine.Reads t (nullFragment T).query (nullTree T) := fun env =>
    (Reader.yieldsAtom_nullFragment T).yields
  rw [hreads.evaluate?_eq hmode, Tree.denote_nullTree]

theorem after?_null_iff (hnull : fold e = .constant ⟨.null, T⟩) {tree : Tree} {d : Json}
    (htree : forall env, Reader.YieldsAtom ⟨engine.conforming, env, t.ownScopes⟩
      j.current.query tree)
    (hd : tree.denote engine (Bootstrap.routines engine) columns .jsonb = some (.json d))
    (h : JsonHelper) (hmode : mode ≠ .bound .atSign) :
    (h.apply u j.path e).after? engine t mode columns j.index j.column = some .null <->
      h = .set ∧ (T.isJson = true ∨ T = .text) := by
  rw [j.after?_apply h (jsonValue_null _ hnull) (fun env => Reader.yields_jsonHelper h j.steps
    (htree env) (Reader.yieldsAtom_nullFragment T)) hmode, h.denote_null_eq_null_iff hd]
  exact and_congr_right fun _ => nullValue?_eq_null_iff

/-- A value that is folded to NULL is written as the null of documents exactly when the NULL has no
type, and turns a document into NULL exactly when it is set and has the type of documents or of
texts. -/
theorem null_written_iff (hnull : fold e = .constant ⟨.null, T⟩) (engine : Engine)
    (columns : Columns) (hmode : mode ≠ .bound .atSign) :
    exists f, Update.jsonValue (u.compiler t) e = .ok f ∧
      (forall h : JsonHelper,
        h.apply u j.path e = u.withPending j.index (h.written j.steps j.current f)) ∧
      (engine.evaluate? t mode columns .jsonb f.query = some (.json .null) <-> T = .null) ∧
      (engine.evaluate? t mode columns .jsonb f.query = some .null <->
        T.isJson = true ∨ T = .text) ∧
      forall tree d, (forall env, Reader.YieldsAtom ⟨engine.conforming, env, t.ownScopes⟩
          j.current.query tree) ->
        tree.denote engine (Bootstrap.routines engine) columns .jsonb = some (.json d) ->
        forall h : JsonHelper,
          (h.apply u j.path e).after? engine t mode columns j.index j.column = some .null <->
            h = .set ∧ (T.isJson = true ∨ T = .text) := by
  have hvalue := jsonValue_null (u.compiler t) hnull
  refine ⟨nullFragment T, hvalue, fun h => j.apply_eq h hvalue, ?_, ?_, ?_⟩
  · rw [evaluate?_nullFragment hmode]
    exact nullValue?_eq_json_iff
  · rw [evaluate?_nullFragment hmode]
    exact nullValue?_eq_null_iff
  · exact fun tree d htree hd h => j.after?_null_iff hnull htree hd h hmode

theorem shelf_reads {path : Expr} {steps : List JsonStep}
    (htarget : Update.shelf.jsonTarget path = .ok ("data", steps)) (env : Nat -> Option Tree) :
    Reader.YieldsAtom ⟨true, env, Update.shelfTable.ownScopes⟩
      (shelf path steps htarget).current.query (.column none "data") :=
  Reader.yieldsAtom_column rfl "data"

theorem shelf_null_written :
    Update.shelf.jsonTarget shelfStep = .ok ("data", [.key "a"]) ∧
      fold .null = .constant ⟨.null, .null⟩ ∧ RenderMode.simple ≠ .bound .atSign ∧
      (exists f, Update.jsonValue (Update.shelf.compiler Update.shelfTable) .null = .ok f ∧
        Engine.plain.evaluate? Update.shelfTable .simple (shelfRow (some (.object []))) .jsonb
          f.query = some (.json .null)) ∧
      forall h : JsonHelper,
        (h.apply Update.shelf shelfStep .null).after? .plain Update.shelfTable .simple
          (shelfRow (some (.object []))) 2
          shelfData ≠ some .null := by
  have htarget : Update.shelf.jsonTarget shelfStep = .ok ("data", [.key "a"]) := rfl
  have hnull : fold .null = .constant ⟨.null, .null⟩ := rfl
  have hmode : RenderMode.simple ≠ .bound .atSign := nofun
  rcases null_written_iff (shelf shelfStep _ htarget) hnull .plain
    (shelfRow (some (.object []))) hmode with ⟨f, hvalue, -, hwritten, -, hafter⟩
  refine ⟨htarget, hnull, hmode, ⟨f, hvalue, hwritten.mpr rfl⟩, fun h hlost => ?_⟩
  have htyped := ((hafter _ (.object []) (shelf_reads htarget) rfl h).mp hlost).2
  exact absurd htyped (by decide)

/-- A NULL that is a number is refused, and one that is a document or a text turns the data of a
shelf into NULL when it is set. -/
theorem shelf_null_lost :
    (exists f, Update.jsonValue (Update.shelf.compiler Update.shelfTable)
        (.constant ⟨.null, .integer⟩) = .ok f ∧
      Engine.plain.evaluate? Update.shelfTable .simple (shelfRow none) .jsonb f.query = none) ∧
    forall T, T = .json none ∨ T = .text ->
      (Update.shelf.jsonSet shelfStep (.constant ⟨.null, T⟩)).after? .plain Update.shelfTable
        .simple (shelfRow (some (.object []))) 2 shelfData = some .null := by
  have htarget : Update.shelf.jsonTarget shelfStep = .ok ("data", [.key "a"]) := rfl
  have hmode : RenderMode.simple ≠ .bound .atSign := nofun
  refine ⟨⟨nullFragment .integer, jsonValue_null _ rfl, evaluate?_nullFragment hmode⟩, ?_⟩
  intro T hT
  have hnull : fold (.constant ⟨.null, T⟩) = .constant ⟨.null, T⟩ := rfl
  have hdata : (Tree.column none "data").denote .plain (Bootstrap.routines .plain)
      (shelfRow (some (.object []))) .jsonb = some (.json (.object [])) := rfl
  have hlost := after?_null_iff (shelf shelfStep _ htarget) hnull (shelf_reads htarget) hdata .set
    hmode
  refine hlost.mpr ⟨rfl, ?_⟩
  rcases hT with rfl | rfl
  · exact Or.inl rfl
  · exact Or.inr rfl

end JsonTarget
end TypedQuery
