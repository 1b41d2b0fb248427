import TypedQuery.Proofs.Expr.Elementary
import TypedQuery.Proofs.Expr.Registered
import TypedQuery.Proofs.Server.ArrayLiteral

/-!
# The length of an array

The length of an array is asked for by an operator and by a property.  Both are compiled to
`cardinality`, which counts the items of all dimensions, but the operator on a constant is folded to
its outermost length.
-/

namespace TypedQuery

open Server

/-!
## What the server counts
-/

/-- The items in dimensions of these lengths; an array without items has no dimensions. -/
def itemCount (lengths : List Nat) : Nat := if lengths.isEmpty then 0 else lengths.prod

def Server.Tree.cardinality? (input : ServerType -> String -> Option Value) : Tree -> Option Nat
  | .call "cardinality" [.cast arg type] =>
      match ServerType.ofTokens? type with
      | some (.array item) => (array? input item arg).map fun read => itemCount read.1
      | _ => none
  | _ => none

section

variable {input : ServerType -> String -> Option Value} {length : Nat} {inner : List Nat}

/-- An array that its literal denotes has as many items as the server counts. -/
theorem cardinality?_tree {type : SqlType} (g : Grid Value (length :: inner))
    (htype : type.dimensions = (length :: inner).length) (hroot : type.root ≠ .null)
    (hitems : forall item, item ∈ g.items -> ReadBack input type.root item)
    (hdenoted : length = 0 ∨ 0 ∉ inner) :
    Tree.cardinality? input (.call "cardinality" [Typed.tree ⟨g.value, type⟩]) =
      some g.items.length := by
  have hdimensions : type.dimensions ≠ 0 := by
    rw [htype]
    exact Nat.succ_ne_zero _
  rw [tree_of_dimensions hdimensions, Tree.cardinality?, ofTokens?_array hroot hdimensions,
    g.length_items]
  dsimp only
  by_cases hlength : length = 0
  · subst hlength
    rw [g.value_of_zero, List.prod_cons, Nat.zero_mul]
    rfl
  · have hpositive : 0 ∉ length :: inner := by
      rw [List.mem_cons, not_or]
      exact ⟨Ne.symm hlength, hdenoted.resolve_left hlength⟩
    rw [array?_tree type.root_isArray hpositive g hitems]
    rfl

theorem prod_eq_one_iff {lengths : List Nat} :
    lengths.prod = 1 <-> forall count, count ∈ lengths -> count = 1 := by
  induction lengths with
  | nil => simp
  | cons count rest ih =>
      rw [List.prod_cons, List.forall_mem_cons, <- ih]
      constructor
      · intro h
        exact ⟨Nat.eq_one_of_mul_eq_one_right h, Nat.eq_one_of_mul_eq_one_left h⟩
      · rintro ⟨hcount, hrest⟩
        rw [hcount, hrest]

/-- The rows are as many as the items if there are none, or if every row is a single item. -/
theorem length_eq_items_iff (g : Grid Value (length :: inner)) :
    length = g.items.length <-> length = 0 ∨ forall count, count ∈ inner -> count = 1 := by
  rw [g.length_items, List.prod_cons, <- prod_eq_one_iff]
  by_cases hlength : length = 0
  · rw [hlength, Nat.zero_mul]
    exact iff_of_true rfl (Or.inl rfl)
  · rw [or_iff_right hlength, eq_comm, Nat.mul_eq_left hlength]

end

theorem Fold.unary?_arrayLength (items : List Value) (type : SqlType) :
    Fold.unary? .arrayLength ⟨.array items, type⟩ =
      (Fold.int32? items.length).map fun n => ⟨.int n, .integer⟩ := rfl

namespace Compiler

variable {c : Compiler} {e : Expr} {f : TypedFragment}

def counted (f : TypedFragment) : TypedFragment :=
  TypedFragment.surround "cardinality(" f ")" .integer

theorem fold_arrayLength (e : Expr) :
    fold (.unary .arrayLength e) = Fold.unaryNode .arrayLength (fold e) := by
  rw [fold]

theorem compile_length (hcalls : c.calls = .builtin) (htyped : e.isTyped = true)
    (h : c.compile e = .ok f) (harray : f.type.isArray = true) :
    c.compile (e.derived "length") = .ok (counted f) := by
  have hkind : f.type.kind = .array := by
    cases htype : f.type <;> rw [htype] at harray <;> cases harray
    rfl
  have hcall : Fold.ofCall? "length" e [] = none := by
    rw [Fold.ofCall?]
    cases htext : Fold.text? (fold e) with
    | none => rfl
    | some text =>
        have hconstant := Fold.eq_of_text? (Fold.isTyped_fold htyped) htext
        rw [compile, hconstant, node] at h
        cases h
        cases harray
  have hmethod : c.calls.method? f.type.kind "length" = none := by rw [hcalls, hkind]; rfl
  have haccessor : c.calls.accessor? f.type.kind "length" =
      some (Property.around "cardinality(" ")" .integer) := by rw [hcalls, hkind]; rfl
  exact compile_derived h hmethod haccessor hcall

theorem fold_arrayLength_value {length : Nat} {inner : List Nat} {g : Grid Value (length :: inner)}
    {type : SqlType} (h : fold e = .constant ⟨g.value, type⟩) (hroom : length < Number.twoPow 31) :
    fold (.unary .arrayLength e) = .constant ⟨.int (.ofInt length), .integer⟩ := by
  have hcount : Fold.int32? (g.rows.map Grid.value).length = some (.ofInt length) := by
    have hhigh : (length : Int) < Number.twoPow 31 := by exact_mod_cast hroom
    have hlow : -(Number.twoPow 31 : Int) ≤ length := by omega
    rw [List.length_map, g.length_rows, Fold.int32?, if_pos ⟨hlow, hhigh⟩]
  have hvalue := Fold.unary?_arrayLength (g.rows.map Grid.value) type
  rw [hcount, <- g.value_eq] at hvalue
  rw [fold_arrayLength, h, Fold.unaryNode, hvalue]
  rfl

theorem read?_counted {v : Typed} (harray : v.type.isArray = true) {mode : RenderMode}
    (hmode : mode ≠ .bound .atSign) (scopes : Scopes) (conforming : Bool) :
    ((counted (.ofValue v)).query.renderIn mode scopes).read? conforming =
      some (.call "cardinality" [v.tree]) := by
  have hnode : node ⟨.empty, .builtin⟩ (.unary .arrayLength (.constant v)) =
      .ok (counted (.ofValue v)) := by
    rw [node, node, Result.ok_bind, TypedFragment.unary]
    exact if_pos harray
  have hinert := v.inert_tree
  have hmeaning : meaning ⟨.empty, .builtin⟩ scopes (.unary .arrayLength (.constant v)) =
      .call "cardinality" [v.tree] := by
    rw [meaning, meaning]
    rfl
  have hread := (read?_of_node rfl rfl hnode hmode scopes conforming).2
  rw [hmeaning] at hread
  apply hread.mpr
  simp [Tree.isQualified, Tree.allQualified, Tree.arrowsTight, Tree.allArrowsTight,
    hinert.isQualified, hinert.arrowsTight]

theorem compile_arrayLength (h : c.compile e = .ok f) (harray : f.type.isArray = true)
    (hfold : forall v, fold (.unary .arrayLength e) ≠ .constant v) :
    c.compile (.unary .arrayLength e) = .ok (counted f) := by
  rcases Fold.unaryNode_cases .arrayLength (fold e) with ⟨_, v, -, -, hv⟩ | hsame
  · exact absurd ((fold_arrayLength e).trans hv) (hfold v)
  · rw [compile, fold_arrayLength, hsame, node, <- compile, h, Result.ok_bind,
      TypedFragment.unary, if_pos harray]
    rfl

/-- The operator and the property are one fragment unless the operator is folded.  The outermost
length, to which it is folded for a constant, is what the server counts for the property exactly
when there are no items, or no more than one in each row. -/
theorem folded_length_is_cardinality_iff (hcalls : c.calls = .builtin) (htyped : e.isTyped = true)
    (h : c.compile e = .ok f) (harray : f.type.isArray = true) :
    c.compile (e.derived "length") = .ok (counted f) ∧
      ((forall v, fold (.unary .arrayLength e) ≠ .constant v) ->
        c.compile (.unary .arrayLength e) = .ok (counted f)) ∧
      forall {length : Nat} {inner : List Nat} (g : Grid Value (length :: inner)) {type : SqlType},
        fold e = .constant ⟨g.value, type⟩ ->
          (length < Number.twoPow 31 ->
            fold (.unary .arrayLength e) = .constant ⟨.int (.ofInt length), .integer⟩) ∧
          (length = g.items.length <-> length = 0 ∨ forall count, count ∈ inner -> count = 1) ∧
          forall {input : ServerType -> String -> Option Value},
            type.dimensions = (length :: inner).length -> type.root ≠ .null ->
            (forall item, item ∈ g.items -> ReadBack input type.root item) ->
            (length = 0 ∨ 0 ∉ inner) ->
            forall (mode : RenderMode) (scopes : Scopes) (conforming : Bool),
              mode ≠ .bound .atSign ->
              (((counted f).query.renderIn mode scopes).read? conforming).bind
                (Tree.cardinality? input) = some g.items.length := by
  refine ⟨compile_length hcalls htyped h harray, compile_arrayLength h harray, ?_⟩
  intro length inner g type hvalue
  refine ⟨fold_arrayLength_value hvalue, length_eq_items_iff g, ?_⟩
  intro input htype hroot hitems hdenoted mode scopes conforming hmode
  rw [compile, hvalue, node] at h
  cases h
  rw [read?_counted harray hmode, Option.bind_some]
  exact cardinality?_tree g htype hroot hitems hdenoted

theorem readBack_int (input : ServerType -> String -> Option Value) (n : Int32) :
    ReadBack input .integer (.int n) where
  fits := rfl
  read h := by cases hn : n.toInt <;> simp [Value.tree, integerTree, hn] at h

def columnRows : Grid Value [2, 1] := ⟨[⟨[.int 1], rfl⟩, ⟨[.int 2], rfl⟩], rfl⟩

def columnArray : Typed := ⟨columnRows.value, .array (.array .integer)⟩

theorem column_length_is_cardinality :
    fold (.unary .arrayLength (.constant columnArray)) = .constant ⟨.int 2, .integer⟩ ∧
      (((counted (.ofValue columnArray)).query.renderIn .simple articleScopes).read? true).bind
        (Tree.cardinality? textInput) = some 2 := by
  have hitems : forall item, item ∈ columnRows.items -> ReadBack textInput .integer item := by
    intro item hitem
    change item ∈ [.int 1, .int 2] at hitem
    simp only [List.mem_cons, List.not_mem_nil, or_false] at hitem
    rcases hitem with rfl | rfl
    · exact readBack_int textInput 1
    · exact readBack_int textInput 2
  rcases folded_length_is_cardinality_iff (c := articleCompiler) (e := .constant columnArray) rfl
    (by decide) rfl rfl with ⟨-, -, hconstant⟩
  rcases hconstant columnRows rfl with ⟨hfolded, hlength, hread⟩
  refine ⟨hfolded (by decide), ?_⟩
  have hcount := hread rfl (by decide) hitems (Or.inr (by decide)) .simple articleScopes true
    (by decide)
  rwa [<- hlength.mpr (Or.inr (by decide))] at hcount

def squareRows : Grid Value [2, 2] :=
  ⟨[⟨[.int 1, .int 2], rfl⟩, ⟨[.int 3, .int 4], rfl⟩], rfl⟩

def squareArray : Typed := ⟨squareRows.value, .array (.array .integer)⟩

/-- The operator is folded to the number of rows, where the server counts the items. -/
theorem square_length_ne_cardinality :
    articleCompiler.compile (.unary .arrayLength (.constant squareArray)) =
        .ok (.ofValue ⟨.int 2, .integer⟩) ∧
      exists f, articleCompiler.compile ((Expr.constant squareArray).derived "length") = .ok f ∧
        (f.query.renderIn .simple articleScopes).sql =
          "cardinality(ARRAY[ARRAY[1,2],ARRAY[3,4]]::integer[][])" ∧
        ((f.query.renderIn .simple articleScopes).read? true).bind
          (Tree.cardinality? textInput) = some 4 := by
  refine ⟨rfl, counted (.ofValue squareArray), rfl, by decide +kernel, ?_⟩
  rw [read?_counted rfl (by decide)]
  rfl

end Compiler

end TypedQuery
