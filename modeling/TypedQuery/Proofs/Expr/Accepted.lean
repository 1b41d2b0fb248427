import TypedQuery.Proofs.Expr.Elementary
import TypedQuery.Proofs.Server.Typing

/-!
# Expressions that the server accepts

Where an elementary expression compiles to what the server assigns a type to, so do the expressions
that it is made of.  What an operation does to its operands before they stand next to the operator
(it compares JSON, labels texts beside an enum, and tests for NULL) is taken away again here.
-/

namespace TypedQuery

open Server

/-!
## Constants
-/

namespace Typed

variable {v : Typed}

theorem type_ne_null (hfits : v.fits = true) (hbound : v.isBound = true) : v.type ≠ .null := by
  rcases v with ⟨value, type⟩
  rintro rfl
  cases value with
  | null => cases hbound
  | _ => cases hfits

theorem castType?_of_isBound (hfits : v.fits = true) (hbound : v.isBound = true) :
    v.castType? = some v.type := by
  have hnull := type_ne_null hfits hbound
  unfold castType?
  split <;> first | exact absurd ‹_› hnull | rfl

theorem isArrayLiteral_tree (hfits : v.fits = true) : v.tree.isArrayLiteral = false := by
  unfold tree
  cases hbound : v.isBound with
  | true =>
      rw [if_pos rfl, castType?_of_isBound hfits hbound]
      rfl
  | false =>
      rcases v with ⟨value, type⟩
      cases value with
      | int n => cases hn : n.toInt <;> simp [Value.tree, integerTree, hn, Tree.isArrayLiteral]
      | bigint n => cases hn : n.toInt <;> simp [Value.tree, integerTree, hn, Tree.isArrayLiteral]
      | array items => cases hbound
      | _ => rfl

end Typed

namespace BinaryOp

theorem symbol_of_ne_add {op : BinaryOp} (h : op ≠ .add) (result : SqlType) :
    op.symbol result = op.sql := by
  rw [symbol, decide_eq_false h, Bool.false_and, if_neg Bool.false_ne_true]

theorem symbol_of_isComparison {op : BinaryOp} (h : op.isComparison = true) (result : SqlType) :
    op.symbol result = op.sql := by
  refine symbol_of_ne_add ?_ result
  rintro rfl
  cases h

end BinaryOp

namespace Compiler

variable {c : Compiler} {scopes : Scopes} {columns : Option String -> String -> Option ServerType}

/-- The expression compiles, and the server accepts what it means. -/
structure Accepts (c : Compiler) (scopes : Scopes)
    (columns : Option String -> String -> Option ServerType) (e : Expr) : Prop where
  compiles : exists f, c.node e = .ok f
  accepted : (c.meaning scopes e).Accepted columns

theorem typeOf_of_node {e : Expr} {f : TypedFragment} (h : c.node e = .ok f) :
    c.typeOf e = f.type := by
  unfold typeOf
  rw [h]

theorem type_of_typeOf? {e : Expr} {t : SqlType} (h : typeOf? (c.node e) = some t) :
    (exists f, c.node e = .ok f) ∧ c.typeOf e = t := by
  rcases typeOf?_eq_some.mp h with ⟨f, hf, htype⟩
  exact ⟨⟨f, hf⟩, (typeOf_of_node hf).trans htype⟩

theorem accepted_text (text : String) {v : Typed} (hfits : v.fits = true)
    (hv : v.value = .text text) : v.tree.Accepted columns := by
  rcases v with ⟨value, type⟩
  cases hv
  have htype : type = .text := Value.type_of_fits hfits rfl
  subst htype
  refine ⟨(Typed.inert_tree _).isQualified, ?_⟩
  unfold Typed.tree
  split
  · exact ⟨_, rfl⟩
  · exact ⟨_, rfl⟩

theorem accepted_null {v : Typed} (hv : v.value = .null) : v.tree.Accepted columns := by
  rcases v with ⟨value, type⟩
  cases hv
  exact ⟨rfl, _, rfl⟩

theorem accepts_nullConstant {e : Expr} (h : e.isNullConstant = true) :
    c.Accepts scopes columns e := by
  cases e with
  | constant v =>
      rcases v with ⟨value, type⟩
      cases value with
      | null =>
          constructor
          · rw [node]
            exact ⟨_, rfl⟩
          · rw [meaning]
            exact accepted_null rfl
      | _ => cases h
  | _ => cases h

/-!
## Operators
-/

theorem accepted_json {type : SqlType} {t : Tree}
    (h : (TypedQuery.Tree.json type t).Accepted columns) (harray : t.isArrayLiteral = false) :
    t.Accepted columns := by
  unfold TypedQuery.Tree.json at h
  split at h
  · exact (h.call _ List.mem_cons_self).cast harray
  · exact h.call _ List.mem_cons_self

/-- An operation is compiled to a test of the subject for NULL; the other operand is NULL. -/
structure TestsNull (c : Compiler) (op : BinaryOp) (left right subject other : Expr)
    (f : TypedFragment) : Prop where
  sides : subject = left ∧ other = right ∨ subject = right ∧ other = left
  isNull : other.isNullConstant = true
  compiles : exists g, c.node subject = .ok g
  isComparison : op.isComparison = true
  type_eq : f.type = .boolean
  meaning_eq : forall scopes, c.meaning scopes (.binary op left right) =
    .isNull (op = .ne) (c.meaning scopes subject)

structure Applies (c : Compiler) (op : BinaryOp) (left right : Expr) (f g : TypedFragment)
    (t : SqlType) : Prop where
  left_eq : c.node left = .ok g
  right_eq : Argument.typeBeside? ⟨right, c.node right⟩ g.type = some t
  result_eq : op.result? g.type t = some f.type
  meaning_eq : forall scopes, c.meaning scopes (.binary op left right) =
    op.operatorTree f.type ⟨left, g.type, c.meaning scopes left⟩
      (Meant.labelled ⟨right, c.typeOf right, c.meaning scopes right⟩ g.type)

theorem node_binary_cases {op : BinaryOp} {left right : Expr} {f : TypedFragment}
    (h : c.node (.binary op left right) = .ok f) :
    (exists subject other, c.TestsNull op left right subject other f) ∨
      exists g t, c.Applies op left right f g t := by
  have hmeaning : forall scopes, c.meaning scopes (.binary op left right) =
      op.tree f.type ⟨left, c.typeOf left, c.meaning scopes left⟩
        ⟨right, c.typeOf right, c.meaning scopes right⟩ := by
    intro scopes
    rw [meaning, typeOf_of_node h]
  have htest : forall {subject : Argument} {text : String},
      nullTest? op ⟨left, c.node left⟩ ⟨right, c.node right⟩ = some (subject, text) ->
        (exists g, subject.compiled = .ok g) ∧ op.isComparison = true ∧ f.type = .boolean := by
    intro subject text htest
    have hop : op.isComparison = true := by
      cases op <;> first | rfl | cases htest
    rw [node, binary, htest] at h
    rcases Result.bind_eq_ok.mp h with ⟨g, hg, hf⟩
    cases hf
    exact ⟨⟨g, hg⟩, hop, rfl⟩
  have hnull := Reader.nullTest?_eq op ⟨left, c.node left⟩ ⟨right, c.node right⟩
  dsimp only at hnull
  unfold BinaryOp.tree at hmeaning
  split at hnull
  · rename_i hright
    rcases htest hnull with ⟨hg, hop, hboolean⟩
    simp only [if_pos hright] at hmeaning
    rw [Bool.and_eq_true] at hright
    exact Or.inl ⟨left, right, Or.inl ⟨rfl, rfl⟩, hright.2, hg, hop, hboolean, hmeaning⟩
  split at hnull
  · rename_i hright hleft
    rcases htest hnull with ⟨hg, hop, hboolean⟩
    simp only [if_neg hright, if_pos hleft] at hmeaning
    rw [Bool.and_eq_true] at hleft
    exact Or.inl ⟨right, left, Or.inr ⟨rfl, rfl⟩, hleft.2, hg, hop, hboolean, hmeaning⟩
  · rename_i hright hleft
    simp only [if_neg hright, if_neg hleft] at hmeaning
    have hresult := typeOf?_binary hnull
    rw [node] at h
    rw [h] at hresult
    rcases Option.bind_eq_some_iff.mp hresult.symm with ⟨l, hl, hresult⟩
    rcases Option.bind_eq_some_iff.mp hresult with ⟨t, ht, hresult⟩
    rcases typeOf?_eq_some.mp hl with ⟨g, hg, rfl⟩
    rw [typeOf_of_node hg] at hmeaning
    exact Or.inr ⟨g, t, hg, ht, hresult, hmeaning⟩

theorem isArrayLiteral_functionTree (name : String) (ts : List Tree) :
    (functionTree name ts).isArrayLiteral = false := by
  unfold functionTree
  split
  · rfl
  · rfl

theorem isArrayLiteral_meaning (c : Compiler) (scopes : Scopes) {e : Expr}
    (hnode : e.isElementaryNode = true) (htyped : e.isTyped = true) :
    (c.meaning scopes e).isArrayLiteral = false := by
  cases e with
  | field path =>
      rw [meaning]
      rcases c.pathTree_cases scopes hnode with ⟨slot, name, htree⟩ | htree
      · rw [htree]
        rfl
      · rw [htree]
        rfl
  | constant v =>
      rw [meaning]
      exact Typed.isArrayLiteral_tree htyped
  | unary op operand =>
      rw [meaning]
      cases op <;> rfl
  | binary op left right =>
      rw [meaning]
      unfold BinaryOp.tree BinaryOp.operatorTree
      repeat' split
      all_goals rfl
  | method name receiver args onServer =>
      rw [meaning]
      have hname : answeredNames.contains name = false := by
        simpa [Expr.isElementaryNode] using hnode
      rcases methodTree_cases hname ⟨receiver, c.typeOf receiver, c.meaning scopes receiver⟩
        (c.meanings scopes args) with htree | ⟨-, -, f, -, htree⟩
      · rw [htree]
        exact isArrayLiteral_functionTree name _
      · rw [htree]
        rfl
  | function name args =>
      rw [meaning]
      exact isArrayLiteral_functionTree name _
  | _ => cases hnode

theorem labelled_cases (m : Meant) (target : SqlType) :
    (exists e text type, target = .enum e ∧ m.expr = .constant ⟨.text text, type⟩ ∧
      (m.labelled target).tree = Typed.tree ⟨.enum text, .enum e⟩) ∨
      (target.isEnum && (Fold.text? m.expr).isSome) = false ∧ m.labelled target = m := by
  cases target with
  | enum e =>
      cases hexpr : m.expr with
      | constant v =>
          rcases v with ⟨value, type⟩
          cases value with
          | text text => exact Or.inl ⟨e, text, type, rfl, rfl, by simp [Meant.labelled, hexpr]⟩
          | _ => exact Or.inr ⟨rfl, by simp [Meant.labelled, hexpr]⟩
      | _ => exact Or.inr ⟨rfl, by simp [Meant.labelled, hexpr]⟩
  | _ => exact Or.inr ⟨rfl, rfl⟩

theorem operatorTree_eq (columns : Option String -> String -> Option ServerType) (op : BinaryOp)
    (result : SqlType) (left right : Meant) :
    exists x y, op.operatorTree result left right = .binary (op.symbol result) x y ∧
      (left.tree.isArrayLiteral = false -> x.Accepted columns -> left.tree.Accepted columns) ∧
        (right.tree.isArrayLiteral = false -> y.Accepted columns ->
          right.tree.Accepted columns) := by
  unfold BinaryOp.operatorTree
  split
  · rename_i hcase
    simp only [Bool.and_eq_true] at hcase
    rw [<- BinaryOp.symbol_of_isComparison hcase.1.1 result]
    exact ⟨_, _, rfl, fun _ => id, fun harray hy => accepted_json hy harray⟩
  split
  · rename_i hcase
    simp only [Bool.and_eq_true] at hcase
    rw [<- BinaryOp.symbol_of_isComparison hcase.1.1 result]
    exact ⟨_, _, rfl, fun harray hx => accepted_json hx harray, fun _ => id⟩
  · exact ⟨_, _, rfl, fun _ => id, fun _ => id⟩

theorem accepted_operatorTree {op : BinaryOp} {result : SqlType} {left right : Meant}
    (hleft : left.tree.isArrayLiteral = false) (hright : right.tree.isArrayLiteral = false)
    (h : (op.operatorTree result left right).Accepted columns) :
    left.tree.Accepted columns ∧ right.tree.Accepted columns := by
  rcases operatorTree_eq columns op result left right with ⟨x, y, htree, hx, hy⟩
  rw [htree] at h
  exact ⟨hx hleft h.binary.1, hy hright h.binary.2⟩

end Compiler

/-!
## Calls
-/

theorem SqlFunction.lookup?_of_lower {name : String} {f : SqlFunction}
    (hlower : name.toLower = name) (h : catalog.find? (·.name == name) = some f) :
    lookup? name = some f := by
  rw [lookup?, hlower, h]

namespace Compiler

variable {c : Compiler} {scopes : Scopes} {columns : Option String -> String -> Option ServerType}

theorem accepted_functionTree {name : String} {f : SqlFunction}
    (hlookup : SqlFunction.lookup? name = some f) {ts : List Tree}
    (h : (functionTree name ts).Accepted columns) :
    forall t, t ∈ ts -> t.Accepted columns := by
  rw [functionTree, hlookup] at h
  exact fun t ht => h.call t (List.mem_append_left _ ht)

theorem lookup?_length : SqlFunction.lookup? "length" =
    some { name := "length", required := 1, returns := .type .integer } :=
  SqlFunction.lookup?_of_lower (by decide +kernel) rfl

theorem arguments_compiled {es : List Expr} {fs : List TypedFragment}
    (h : (c.arguments es).mapM (·.compiled) = .ok fs) :
    (forall e, e ∈ es -> exists f, c.node e = .ok f) ∧ fs.map (·.type) = es.map c.typeOf := by
  induction es generalizing fs with
  | nil =>
      rw [arguments] at h
      cases h
      exact ⟨List.forall_mem_nil _, rfl⟩
  | cons e rest ih =>
      rw [arguments, List.mapM_cons] at h
      rcases Result.bind_eq_ok.mp h with ⟨f, hf, h⟩
      rcases Result.bind_eq_ok.mp h with ⟨gs, hgs, h⟩
      cases h
      rcases ih hgs with ⟨hrest, htypes⟩
      refine ⟨List.forall_mem_cons.mpr ⟨⟨f, hf⟩, hrest⟩, ?_⟩
      rw [List.map_cons, List.map_cons, htypes, typeOf_of_node hf]

theorem sqlFunction_eq_ok {name : String} {receiver : Option TypedFragment} {es : List Expr}
    {g : TypedFragment} (h : sqlFunction name receiver (c.arguments es) = .ok g) :
    (forall e, e ∈ es -> exists f, c.node e = .ok f) ∧
      exists f, SqlFunction.lookup? name = some f ∧
        g.type = f.returns.resolve (receiver.toList.map (·.type) ++ es.map c.typeOf) := by
  unfold sqlFunction at h
  split at h
  · cases h
  · rename_i f hlookup
    rcases Result.bind_eq_ok.mp h with ⟨fs, hfs, hcall⟩
    rcases arguments_compiled hfs with ⟨hcompiled, htypes⟩
    refine ⟨hcompiled, f, hlookup, ?_⟩
    unfold functionCall at hcall
    split at hcall
    · cases hcall
      rw [<- htypes, <- List.map_append]
    · cases hcall

theorem methodCall_eq_ok {name : String} (h : answeredNames.contains name = false)
    {receiver g : TypedFragment} {args : List Argument}
    (hcall : methodCall .builtin name receiver args = .ok g) :
    sqlFunction name (some receiver) args = .ok g ∨
      name = "length" ∧ args = [] ∧ g.type = .integer := by
  have hname : name ∉ answeredNames := by simpa using h
  simp only [answeredNames, List.mem_append, not_or] at hname
  rcases hname with ⟨⟨hmethod, haccessor⟩, hnative⟩
  have hnone : native? name receiver args = none := by
    unfold native?
    split <;> first | rfl | exact absurd (by decide) hnative
  have hnoMethod : CallRegistry.builtin.method? receiver.type.kind name = none := by
    rcases @Reader.lookup_method ⟨true, fun _ => none, ⟨[]⟩⟩ receiver.type.kind name with
      ⟨hnone, -⟩ | ⟨_, _, -, hsome, -⟩
    · exact hnone
    · cases (keyed?_eq_none hmethod _).symm.trans hsome
  unfold methodCall at hcall
  dsimp only at hcall
  rw [hnoMethod] at hcall
  dsimp only at hcall
  split at hcall
  · rename_i accessor hsome
    split at hsome
    · rename_i hempty
      rcases CallRegistry.builtin_accessor_type hsome receiver with ⟨f, hf, htype⟩
      cases hf.symm.trans hcall
      by_cases hlength : name = "length"
      · subst hlength
        exact Or.inr ⟨rfl, List.isEmpty_iff.mp hempty, htype⟩
      · rcases @Reader.lookup_accessor ⟨true, fun _ => none, ⟨[]⟩⟩ receiver.type.kind name with
          ⟨hnone, -⟩ | ⟨_, _, -, hkey, -⟩
        · cases hnone.symm.trans hsome
        · have hmem : name ∉ accessorTrees.map (·.1.2) := fun hmem =>
            haccessor (List.mem_filter.mpr ⟨hmem, by simpa using hlength⟩)
          cases (keyed?_eq_none hmem _).symm.trans hkey
    · cases hsome
  · rw [hnone] at hcall
    dsimp only at hcall
    split at hcall
    · exact Or.inl hcall
    · cases hcall

/-!
## Operands
-/

theorem Accepts.unary {op : UnaryOp} {operand : Expr} (hoperand : operand.IsElementary)
    (htyped : operand.isTyped = true) (h : c.Accepts scopes columns (.unary op operand)) :
    c.Accepts scopes columns operand := by
  rcases h with ⟨⟨f, hf⟩, haccepted⟩
  rw [node] at hf
  rcases Result.bind_eq_ok.mp hf with ⟨g, hg, -⟩
  refine ⟨⟨g, hg⟩, ?_⟩
  rw [meaning] at haccepted
  cases op with
  | not => exact haccepted.unary
  | cast type => exact haccepted.cast (c.isArrayLiteral_meaning scopes hoperand.node htyped)
  | arrayLength => exact haccepted.call _ List.mem_cons_self

theorem Accepts.binary {op : BinaryOp} {left right : Expr} (hleft : left.IsElementary)
    (hright : right.IsElementary) (hleftTyped : left.isTyped = true)
    (hrightTyped : right.isTyped = true) (h : c.Accepts scopes columns (.binary op left right)) :
    c.Accepts scopes columns left ∧ c.Accepts scopes columns right := by
  rcases h with ⟨⟨f, hf⟩, haccepted⟩
  rcases node_binary_cases hf with ⟨subject, other, htest⟩ | ⟨g, t, happlies⟩
  · have hnull : c.Accepts scopes columns other := accepts_nullConstant htest.isNull
    rw [htest.meaning_eq] at haccepted
    have hsubject : c.Accepts scopes columns subject := ⟨htest.compiles, haccepted.isNull⟩
    rcases htest.sides with ⟨rfl, rfl⟩ | ⟨rfl, rfl⟩
    · exact ⟨hsubject, hnull⟩
    · exact ⟨hnull, hsubject⟩
  · have hl := c.isArrayLiteral_meaning scopes hleft.node hleftTyped
    have hr := c.isArrayLiteral_meaning scopes hright.node hrightTyped
    have hg : exists g, c.node left = .ok g := ⟨g, happlies.left_eq⟩
    rw [happlies.meaning_eq] at haccepted
    rcases labelled_cases ⟨right, c.typeOf right, c.meaning scopes right⟩ g.type with
      ⟨e, text, type, -, hexpr, htree⟩ | ⟨hother, hsame⟩
    · -- A text that became a label is accepted as a text too.
      have hlabel : (Typed.tree ⟨.enum text, .enum e⟩).isArrayLiteral = false := rfl
      dsimp only at hexpr
      subst hexpr
      refine ⟨⟨hg, (accepted_operatorTree hl (htree ▸ hlabel) haccepted).1⟩, ⟨?_, ?_⟩⟩
      · rw [node]
        exact ⟨_, rfl⟩
      · rw [meaning]
        exact accepted_text text hrightTyped rfl
    · rw [hsame] at haccepted
      have ht := happlies.right_eq
      rw [Argument.typeBeside?, hother, if_neg Bool.false_ne_true] at ht
      rcases accepted_operatorTree hl hr haccepted with ⟨hl, hr⟩
      exact ⟨⟨hg, hl⟩, ⟨(type_of_typeOf? ht).1, hr⟩⟩

theorem Accepts.method (hcalls : c.calls = .builtin) {name : String} {receiver : Expr}
    {args : List Expr} {onServer : Bool} (hname : answeredNames.contains name = false)
    (h : c.Accepts scopes columns (.method name receiver args onServer)) :
    forall operand, operand ∈ receiver :: args -> c.Accepts scopes columns operand := by
  rcases h with ⟨⟨f, hf⟩, haccepted⟩
  rw [node, hcalls] at hf
  rw [meaning] at haccepted
  rcases Result.bind_eq_ok.mp hf with ⟨g, hg, hcall⟩
  have hcompiled : (forall arg, arg ∈ args -> exists f, c.node arg = .ok f) ∧
      exists function, SqlFunction.lookup? name = some function := by
    rcases methodCall_eq_ok hname hcall with hcall | ⟨rfl, hargs, -⟩
    · rcases sqlFunction_eq_ok hcall with ⟨hcompiled, function, hlookup, -⟩
      exact ⟨hcompiled, function, hlookup⟩
    · cases args with
      | nil => exact ⟨List.forall_mem_nil _, _, lookup?_length⟩
      | cons arg rest =>
          rw [arguments] at hargs
          cases hargs
  rcases hcompiled with ⟨hcompiled, function, hlookup⟩
  rcases methodTree_cases hname ⟨receiver, c.typeOf receiver, c.meaning scopes receiver⟩
    (c.meanings scopes args) with htree | ⟨-, hnone, f, -, htree⟩
  · rw [htree, meanings_trees] at haccepted
    have htrees := accepted_functionTree hlookup haccepted
    refine List.forall_mem_cons.mpr ⟨⟨⟨g, hg⟩, htrees _ List.mem_cons_self⟩, ?_⟩
    intro arg harg
    exact ⟨hcompiled arg harg, htrees _ (List.mem_cons_of_mem _ (List.mem_map_of_mem harg))⟩
  · cases args with
    | nil =>
        rw [htree] at haccepted
        exact List.forall_mem_singleton.mpr ⟨⟨g, hg⟩, haccepted.call _ List.mem_cons_self⟩
    | cons arg rest => cases hnone

theorem Accepts.function {name : String} {args : List Expr}
    (h : c.Accepts scopes columns (.function name args)) :
    forall arg, arg ∈ args -> c.Accepts scopes columns arg := by
  rcases h with ⟨⟨f, hf⟩, haccepted⟩
  rw [node] at hf
  rw [meaning, meanings_trees] at haccepted
  rcases sqlFunction_eq_ok hf with ⟨hcompiled, function, hlookup, -⟩
  intro arg harg
  exact ⟨hcompiled arg harg, accepted_functionTree hlookup haccepted _ (List.mem_map_of_mem harg)⟩

/-- What the server accepts, it accepts for the operands too. -/
theorem Accepts.operands (hcalls : c.calls = .builtin) {e : Expr} (he : e.IsElementary)
    (htyped : e.isTyped = true) (h : c.Accepts scopes columns e) :
    forall operand, operand ∈ e.operands -> c.Accepts scopes columns operand := by
  have hoperand : forall {operand}, operand ∈ e.operands ->
      operand.IsElementary ∧ operand.isTyped = true :=
    fun ho => ⟨he.operand ho, Expr.isTyped_of_mem_parts htyped (Expr.mem_parts_of_mem_operands ho)⟩
  cases e with
  | unary op operand =>
      rcases hoperand List.mem_cons_self with ⟨helementary, htyped⟩
      exact List.forall_mem_singleton.mpr (h.unary helementary htyped)
  | binary op left right =>
      rcases hoperand List.mem_cons_self with ⟨hleft, hleftTyped⟩
      rcases hoperand (List.mem_cons_of_mem _ List.mem_cons_self) with ⟨hright, hrightTyped⟩
      rcases h.binary hleft hright hleftTyped hrightTyped with ⟨hl, hr⟩
      exact List.forall_mem_cons.mpr ⟨hl, List.forall_mem_singleton.mpr hr⟩
  | method name receiver args onServer =>
      exact h.method hcalls (by simpa [Expr.isElementaryNode] using he.node)
  | function name args => exact h.function
  | _ => exact List.forall_mem_nil _

end Compiler

end TypedQuery
