import TypedQuery.Proofs.Expr.Typing
import TypedQuery.Proofs.Server.Grid
import TypedQuery.Proofs.Server.Typing

/-!
# Array literals

The server takes the items of an array constructor for arrays as soon as one of them is a
constructor, and else for items of the type that the literal is cast to.  An array without items is
written as a text, which is an array at the top of a literal but an item inside it.
-/

namespace TypedQuery

open Server

/-!
## What the server makes of a literal

A literal is evaluated as a value of the type it is cast to.  How the text of a scalar is read is
given by `input`.
-/

def ServerType.integer? (t : ServerType) (n : Int) : Option Value :=
  match t with
  | int4 =>
      if -(Number.twoPow 31) ≤ n ∧ n < Number.twoPow 31 then some (.int (.ofInt n)) else none
  | int8 =>
      if -(Number.twoPow 63) ≤ n ∧ n < Number.twoPow 63 then some (.bigint (.ofInt n)) else none
  | _ => none

namespace Server.Tree

section

variable (input : ServerType -> String -> Option Value) (t : ServerType)

def scalar? : Tree -> Option Value
  | .keyword "null" => some .null
  | .keyword "true" => if t = .boolean then some (.bool true) else none
  | .keyword "false" => if t = .boolean then some (.bool false) else none
  | .number n => t.integer? n
  | .unary "-" (.number n) => t.integer? (-n)
  | .string text => input t text
  | _ => none

/-- Arrays as the rows of one array.  They have the same lengths; without items they make an array
without items. -/
def stacked? (rows : List (List Nat × Value)) : Option (List Nat × Value) :=
  match rows with
  | [] => some ([], .array [])
  | first :: _ =>
      if rows.all (·.1 == first.1) then
        if first.1.isEmpty then some ([], .array [])
        else some (rows.length :: first.1, .array (rows.map (·.2)))
      else none

mutual

/-- An array with its lengths; an array without items has none.  Of the texts of arrays, only that
of the array without items is looked at. -/
def array? : Tree -> Option (List Nat × Value)
  | .string text => if text = "\x7b\x7d" then some ([], .array []) else none
  | .array items =>
      if items.any isArrayLiteral then (arrays? items).bind stacked?
      else (items.mapM (scalar? input t)).map fun values => ([values.length], .array values)
  | _ => none

def arrays? : List Tree -> Option (List (List Nat × Value))
  | [] => some []
  | item :: rest => (array? item).bind fun first => (arrays? rest).map (first :: ·)

end

/-- The value of a literal with a cast to an array type. -/
def arrayValue? : Tree -> Option Value
  | .cast arg type =>
      match ServerType.ofTokens? type with
      | some (.array item) => (array? input item arg).map (·.2)
      | _ => none
  | _ => none

end

end Server.Tree

/-!
## Literals of scalars
-/

namespace Value

theorem trees_eq_map (items : List Value) : trees items = items.map tree := by
  induction items with
  | nil => rfl
  | cons item rest ih => rw [trees, ih, List.map_cons]

theorem integer?_toInt32 (n : Int32) : ServerType.int4.integer? n.toInt = some (.int n) := by
  have hlow : -(Number.twoPow 31) ≤ n.toInt := n.le_toInt
  have hhigh : n.toInt < Number.twoPow 31 := n.toInt_lt
  rw [ServerType.integer?, if_pos ⟨hlow, hhigh⟩, Int32.ofInt_toInt]

theorem integer?_toInt64 (n : Int64) : ServerType.int8.integer? n.toInt = some (.bigint n) := by
  have hlow : -(Number.twoPow 63) ≤ n.toInt := n.le_toInt
  have hhigh : n.toInt < Number.twoPow 63 := n.toInt_lt
  rw [ServerType.integer?, if_pos ⟨hlow, hhigh⟩, Int64.ofInt_toInt]

theorem scalar?_integerTree (input : ServerType -> String -> Option Value) (t : ServerType)
    (n : Int) : (integerTree n).scalar? input t = t.integer? n := by
  cases n <;> rfl

theorem scalar?_tree {input : ServerType -> String -> Option Value} {v : Value} {t : SqlType}
    (hfits : v.fits t = true) (ht : t.isArray = false)
    (hinput : v.tree = .string v.quotedText -> input t.onServer v.quotedText = some v) :
    v.tree.scalar? input t.onServer = some v := by
  cases v with
  | null => rfl
  | bool b =>
      cases t <;> cases hfits
      cases b <;> rfl
  | int n =>
      cases t <;> cases hfits
      exact (scalar?_integerTree input _ _).trans (integer?_toInt32 n)
  | bigint n =>
      cases t <;> cases hfits
      exact (scalar?_integerTree input _ _).trans (integer?_toInt64 n)
  | array items =>
      cases t with
      | array item => cases ht
      | _ => cases hfits
  | _ =>
      simp only [tree, Tree.scalar?]
      exact hinput rfl

theorem isArrayLiteral_tree_of_fits {v : Value} {t : SqlType} (hfits : v.fits t = true)
    (ht : t.isArray = false) : v.tree.isArrayLiteral = false := by
  cases v with
  | int n => cases hn : n.toInt <;> simp [tree, integerTree, hn, Tree.isArrayLiteral]
  | bigint n => cases hn : n.toInt <;> simp [tree, integerTree, hn, Tree.isArrayLiteral]
  | array items =>
      cases t with
      | array item => cases ht
      | _ => cases hfits
  | _ => rfl

end Value

/-!
## Literals of arrays
-/

section

variable {input : ServerType -> String -> Option Value} {t : SqlType}

/-- The scalar fits the type, and if it is written in quotes, it is read as it was written. -/
structure ReadBack (input : ServerType -> String -> Option Value) (t : SqlType) (v : Value) :
    Prop where
  fits : v.fits t = true
  read : v.tree = .string v.quotedText -> input t.onServer v.quotedText = some v

theorem Server.Tree.array?_array (input : ServerType -> String -> Option Value) (t : ServerType)
    (items : List Tree) :
    Tree.array? input t (.array items) =
      if items.any Tree.isArrayLiteral then (Tree.arrays? input t items).bind Tree.stacked?
      else (items.mapM (Tree.scalar? input t)).map fun values =>
        ([values.length], .array values) := by
  rw [Tree.array?]

theorem arrays?_map {α : Type} {t : ServerType} {rows : List α} {tree : α -> Tree}
    {read : α -> List Nat × Value}
    (h : forall row, row ∈ rows -> (tree row).array? input t = some (read row)) :
    Tree.arrays? input t (rows.map tree) = some (rows.map read) := by
  induction rows with
  | nil => rfl
  | cons row rest ih =>
      rcases List.forall_mem_cons.mp h with ⟨hrow, hrest⟩
      rw [List.map_cons, List.map_cons, Tree.arrays?, hrow, ih hrest]
      rfl

theorem mapM_scalar?_tree (ht : t.isArray = false) {items : List Value}
    (hitems : forall item, item ∈ items -> ReadBack input t item) :
    (items.map Value.tree).mapM (Tree.scalar? input t.onServer) = some items := by
  induction items with
  | nil => rfl
  | cons item rest ih =>
      rcases List.forall_mem_cons.mp hitems with ⟨hitem, hrest⟩
      rw [List.map_cons, List.mapM_cons, Value.scalar?_tree hitem.fits ht hitem.read, ih hrest]
      rfl

theorem tree_array {items : List Value} (hne : items ≠ []) :
    (Value.array items).tree = .array (items.map Value.tree) := by
  cases items with
  | nil => exact absurd rfl hne
  | cons item rest => rw [Value.tree, Value.trees_eq_map]

theorem array?_items (ht : t.isArray = false) {items : List Value} (hne : items ≠ [])
    (hitems : forall item, item ∈ items -> ReadBack input t item) :
    (Value.array items).tree.array? input t.onServer = some ([items.length], .array items) := by
  have hplain : (items.map Value.tree).any Tree.isArrayLiteral = false := by
    rw [List.any_map, List.any_eq_false]
    intro item hitem
    rw [Function.comp_apply, Value.isArrayLiteral_tree_of_fits (hitems item hitem).fits ht]
    exact Bool.false_ne_true
  rw [tree_array hne, Tree.array?_array, hplain, if_neg Bool.false_ne_true,
    mapM_scalar?_tree ht hitems, Option.map_some]

theorem tree_value {length : Nat} {inner : List Nat} (hlength : length ≠ 0)
    (g : Grid Value (length :: inner)) :
    g.value.tree = .array (g.rows.map fun row => row.value.tree) := by
  have hne : g.rows.map Grid.value ≠ [] := fun h =>
    g.rows_ne_nil hlength (List.map_eq_nil_iff.mp h)
  rw [g.value_eq, tree_array hne, List.map_map]
  rfl

theorem any_isArrayLiteral {length next : Nat} {inner : List Nat} (hlength : length ≠ 0)
    (hnext : next ≠ 0) (g : Grid Value (length :: next :: inner)) :
    (g.rows.map fun row => row.value.tree).any Tree.isArrayLiteral = true := by
  cases hrows : g.rows with
  | nil => exact absurd hrows (g.rows_ne_nil hlength)
  | cons row rest =>
      rw [List.map_cons, List.any_cons, tree_value hnext row]
      rfl

theorem stacked?_map {α : Type} {rows : List α} (hne : rows ≠ []) {lengths : List Nat}
    (hlengths : lengths ≠ []) (value : α -> Value) :
    Tree.stacked? (rows.map fun row => (lengths, value row)) =
      some (rows.length :: lengths, .array (rows.map value)) := by
  cases rows with
  | nil => exact absurd rfl hne
  | cons row rest => simp [Tree.stacked?, hlengths, Function.comp_def]

/-- An array without a length of zero is read as it is. -/
theorem array?_tree (ht : t.isArray = false) {length : Nat} {inner : List Nat}
    (hpositive : 0 ∉ length :: inner) (g : Grid Value (length :: inner))
    (hitems : forall item, item ∈ g.items -> ReadBack input t item) :
    g.value.tree.array? input t.onServer = some (length :: inner, g.value) := by
  induction inner generalizing length with
  | nil =>
      rcases g.exists_value_eq with ⟨items, rfl, hvalue, heq⟩
      have hne : items ≠ [] := by
        rintro rfl
        exact hpositive List.mem_cons_self
      rw [heq] at hitems
      rw [hvalue, array?_items ht hne hitems]
  | cons next inner ih =>
      rw [List.mem_cons, not_or] at hpositive
      rcases hpositive with ⟨hlength, hinner⟩
      have hnext : next ≠ 0 := fun h => hinner (h ▸ List.mem_cons_self)
      have hrows : Tree.arrays? input t.onServer (g.rows.map fun row => row.value.tree) =
          some (g.rows.map fun row => (next :: inner, row.value)) :=
        arrays?_map fun row hrow =>
          ih hinner row fun item hitem => hitems item (Grid.mem_items_of_mem_rows hrow hitem)
      rw [tree_value (Ne.symm hlength), Tree.array?_array,
        any_isArrayLiteral (Ne.symm hlength) hnext, if_pos rfl, hrows, Option.bind_some,
        stacked?_map (g.rows_ne_nil (Ne.symm hlength)) (List.cons_ne_nil next inner),
        g.length_rows, <- g.value_eq]

/-!
Where a length is zero below the first one, the literal is something else, or nothing: what is read
has items.
-/

theorem stacked?_ne_empty {rows : List (List Nat × Value)} {row : List Nat × Value}
    (hrow : row ∈ rows) (hne : row.1 ≠ []) {read : List Nat × Value}
    (h : Tree.stacked? rows = some read) : read.1 ≠ [] ∧ read.2 ≠ .array [] := by
  cases rows with
  | nil => cases hrow
  | cons first rest =>
      rw [Tree.stacked?] at h
      split at h
      · rename_i hall
        have hlengths : row.1 = first.1 := eq_of_beq (List.all_eq_true.mp hall row hrow)
        rw [if_neg (by simpa [<- hlengths] using hne)] at h
        cases h
        simp
      · cases h

theorem mem_arrays? {trees : List Tree} {t : ServerType} {rows : List (List Nat × Value)}
    (h : Tree.arrays? input t trees = some rows) {item : Tree} (hitem : item ∈ trees) :
    exists row, row ∈ rows ∧ item.array? input t = some row := by
  induction trees generalizing rows with
  | nil => cases hitem
  | cons first rest ih =>
      rw [Tree.arrays?] at h
      rcases Option.bind_eq_some_iff.mp h with ⟨row, hrow, h⟩
      rcases Option.map_eq_some_iff.mp h with ⟨more, hmore, rfl⟩
      rcases List.mem_cons.mp hitem with rfl | hitem
      · exact ⟨row, List.mem_cons_self, hrow⟩
      · rcases ih hmore hitem with ⟨found, hfound, heq⟩
        exact ⟨found, List.mem_cons_of_mem row hfound, heq⟩

theorem mapM_scalar?_ne_nil {trees : List Tree} (hne : trees ≠ []) {t : ServerType}
    {values : List Value} (h : trees.mapM (Tree.scalar? input t) = some values) :
    values ≠ [] := by
  cases trees with
  | nil => exact absurd rfl hne
  | cons first rest =>
      rw [List.mapM_cons] at h
      rcases Option.bind_eq_some_iff.mp h with ⟨value, -, h⟩
      rcases Option.bind_eq_some_iff.mp h with ⟨more, -, h⟩
      cases h
      exact List.cons_ne_nil value more

/-- An array whose first length is not zero is not read as the array without items. -/
theorem array?_ne_empty (ht : t.isArray = false) {length : Nat} {inner : List Nat}
    (hlength : length ≠ 0) (g : Grid Value (length :: inner))
    (hitems : forall item, item ∈ g.items -> ReadBack input t item) {read : List Nat × Value}
    (h : g.value.tree.array? input t.onServer = some read) :
    read.1 ≠ [] ∧ read.2 ≠ .array [] := by
  induction inner generalizing length read with
  | nil =>
      rcases g.exists_value_eq with ⟨items, rfl, hvalue, heq⟩
      have hne : items ≠ [] := by
        rintro rfl
        exact hlength rfl
      rw [heq] at hitems
      rw [hvalue, array?_items ht hne hitems] at h
      cases h
      simp [hne]
  | cons next inner ih =>
      rw [tree_value hlength, Tree.array?_array] at h
      split at h
      · rename_i hany
        rcases Option.bind_eq_some_iff.mp h with ⟨rows, hrows, h⟩
        rcases List.any_eq_true.mp hany with ⟨tree, htree, hliteral⟩
        rcases List.mem_map.mp htree with ⟨row, hrow, rfl⟩
        have hnext : next ≠ 0 := by
          rintro rfl
          rw [row.value_of_zero] at hliteral
          cases hliteral
        rcases mem_arrays? hrows htree with ⟨found, hfound, heq⟩
        have hinner := ih hnext row
          (fun item hitem => hitems item (Grid.mem_items_of_mem_rows hrow hitem)) heq
        exact stacked?_ne_empty hfound hinner.1 h
      · rcases Option.map_eq_some_iff.mp h with ⟨values, hvalues, rfl⟩
        have hne := mapM_scalar?_ne_nil
          (fun hnil => g.rows_ne_nil hlength (List.map_eq_nil_iff.mp hnil)) hvalues
        simp [hne]

end

/-!
## Rendered literals
-/

theorem renderSimple_value {v : Typed} (hnone : v.value.inlineLiteral? = none) :
    (Fragment.empty.value v).renderSimple = v.value.literal ++ castOf v := by
  have hparts : (Fragment.empty.value v).parts = [.value v] := rfl
  rw [Fragment.renderSimple, Fragment.renderWith, hparts, RenderMode.writeParts,
    RenderMode.writePart, RenderMode.writeValue, hnone, RenderMode.writeParts, Rendered.write]
  exact String.empty_append

theorem read?_renderSimple_value (conforming : Bool) (env : Nat -> Option Tree) {v : Typed}
    (hnone : v.value.inlineLiteral? = none) :
    read? conforming env (Fragment.empty.value v).renderSimple = some v.tree := by
  have hbound : v.isBound = true := by
    rw [Typed.isBound, hnone]
    rfl
  have hliteral : AtomText conforming env v.value.literal.toList v.value.tree :=
    v.value.literal_text.2 (Value.isInteger_of_bound hnone)
  have hatom := atomText_castOf hliteral hbound
  rw [renderSimple_value hnone]
  rw [<- String.toList_append] at hatom
  exact hatom.whole.read?_of_isQualified v.inert_tree.isQualified

theorem ofTokens?_array {type : SqlType} (hroot : type.root ≠ .null)
    (hdimensions : type.dimensions ≠ 0) :
    ServerType.ofTokens? type.tokens = some (.array type.root.onServer) := by
  have hunknown : type.root.onServer ≠ .unknown := fun h =>
    hroot (SqlType.onServer_eq_unknown h)
  rw [ServerType.ofTokens?, type.tokens_eq, ServerType.ofName?_tokens type.root_isArray,
    Option.bind_some]
  dsimp only
  rw [ServerType.brackets?_bracketPairs, Option.bind_some, if_neg hdimensions, if_neg hunknown]

theorem tree_of_dimensions {type : SqlType} (hdimensions : type.dimensions ≠ 0) {length : Nat}
    {inner : List Nat} (g : Grid Value (length :: inner)) :
    Typed.tree ⟨g.value, type⟩ = .cast g.value.tree type.tokens := by
  cases type with
  | null => exact absurd rfl hdimensions
  | _ => rfl

/-- The array with these items: without items it has no dimensions. -/
def Grid.denoted {lengths : List Nat} (g : Grid Value lengths) : Value :=
  if 0 ∈ lengths then .array [] else g.value

/-- What is written for an array is read as the array exactly when it has no items at the top, or
no array in it is without items. -/
theorem array_literal_denotes_iff {input : ServerType -> String -> Option Value} {type : SqlType}
    {length : Nat} {inner : List Nat} (g : Grid Value (length :: inner))
    (htype : type.dimensions = (length :: inner).length) (hroot : type.root ≠ .null)
    (hitems : forall item, item ∈ g.items -> ReadBack input type.root item)
    (conforming : Bool) (env : Nat -> Option Tree) :
    (read? conforming env (Fragment.empty.value ⟨g.value, type⟩).renderSimple).bind
        (Tree.arrayValue? input) = some g.denoted <->
      length = 0 ∨ 0 ∉ inner := by
  have hcast : type.dimensions ≠ 0 := by
    rw [htype]
    exact Nat.succ_ne_zero _
  rw [read?_renderSimple_value conforming env (v := ⟨g.value, type⟩) rfl, Option.bind_some,
    tree_of_dimensions hcast, Tree.arrayValue?, ofTokens?_array hroot hcast]
  dsimp only
  have hscalar := type.root_isArray
  by_cases hlength : length = 0
  · subst hlength
    rw [g.value_of_zero, Grid.denoted, if_pos List.mem_cons_self]
    exact iff_of_true rfl (Or.inl rfl)
  · by_cases hinner : 0 ∈ inner
    · have hne : (Option.map Prod.snd (g.value.tree.array? input type.root.onServer)) ≠
          some g.denoted := by
        intro h
        rcases Option.map_eq_some_iff.mp h with ⟨read, hread, heq⟩
        rw [Grid.denoted, if_pos (List.mem_cons_of_mem length hinner)] at heq
        exact (array?_ne_empty hscalar hlength g hitems hread).2 heq
      exact iff_of_false hne fun h => h.elim hlength fun hnot => hnot hinner
    · have hpositive : 0 ∉ length :: inner := by
        rw [List.mem_cons, not_or]
        exact ⟨Ne.symm hlength, hinner⟩
      rw [array?_tree hscalar hpositive g hitems, Grid.denoted, if_neg hpositive]
      exact iff_of_true rfl (Or.inr hinner)

def textInput (t : ServerType) (text : String) : Option Value :=
  if t = .text then some (.text text) else none

def bracedRows : Grid Value [2, 2] :=
  ⟨[⟨[.text "\x7b\x7d", .null], rfl⟩, ⟨[.text "it's", .text "a\\b"], rfl⟩], rfl⟩

theorem bracedRows_denoted :
    (Fragment.empty.value ⟨bracedRows.value, .array (.array .text)⟩).renderSimple =
        "ARRAY[ARRAY['\x7b\x7d',NULL],ARRAY['it''s',E'a\\\\b']]::text[][]" ∧
      (forall item, item ∈ bracedRows.items -> ReadBack textInput .text item) ∧
      (read? true (fun _ => none)
          (Fragment.empty.value ⟨bracedRows.value, .array (.array .text)⟩).renderSimple).bind
          (Tree.arrayValue? textInput) = some bracedRows.value := by
  have hitems : forall item, item ∈ bracedRows.items -> ReadBack textInput .text item := by
    intro item hitem
    change item ∈ [.text "\x7b\x7d", .null, .text "it's", .text "a\\b"] at hitem
    have htext : forall text, ReadBack textInput .text (.text text) := fun _ =>
      ⟨rfl, fun _ => rfl⟩
    simp only [List.mem_cons, List.not_mem_nil, or_false] at hitem
    rcases hitem with rfl | rfl | rfl | rfl
    · exact htext _
    · exact ⟨rfl, fun h => nomatch h⟩
    · exact htext _
    · exact htext _
  refine ⟨by decide +kernel, hitems, ?_⟩
  have hroot : SqlType.root (.array (.array .text)) ≠ .null := by decide
  exact (array_literal_denotes_iff bracedRows rfl hroot hitems true fun _ => none).mpr
    (Or.inr (by decide))

def emptyRows : Grid Value [2, 0] := ⟨[⟨[], rfl⟩, ⟨[], rfl⟩], rfl⟩

theorem emptyRows_read_as_texts :
    (Fragment.empty.value ⟨emptyRows.value, .array (.array .text)⟩).renderSimple =
        "ARRAY['\x7b\x7d','\x7b\x7d']::text[][]" ∧
      emptyRows.denoted = .array [] ∧
      (read? true (fun _ => none)
          (Fragment.empty.value ⟨emptyRows.value, .array (.array .text)⟩).renderSimple).bind
          (Tree.arrayValue? textInput) = some (.array [.text "\x7b\x7d", .text "\x7b\x7d"]) ∧
      Value.array [.text "\x7b\x7d", .text "\x7b\x7d"] ≠ emptyRows.denoted := by
  refine ⟨by decide +kernel, rfl, ?_, fun h => by cases h⟩
  rw [read?_renderSimple_value true _ rfl]
  rfl

end TypedQuery
