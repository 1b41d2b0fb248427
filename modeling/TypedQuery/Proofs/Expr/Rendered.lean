import TypedQuery.Proofs.Expr.Function
import TypedQuery.Proofs.Expr.Path

/-!
# Rendered expressions read as what they mean

The fragment of an expression means the tree of the folded expression.  The text that is rendered
for it, in any frames and with placeholders or without, reads as this very tree exactly when every
arrow of the tree has a tight right operand and every qualifier may be written without quotes.
-/

namespace TypedQuery

open Server

namespace Reader

variable {r : Reader} {c : Compiler}

/-!
## Calls
-/

theorem AllAnswer.isEmpty_eq {args : List Argument} {ms : List Meant} (h : r.AllAnswer args ms) :
    args.isEmpty = ms.isEmpty := by
  cases h <;> rfl

theorem lookup_property (isEmpty : Bool) (kind : TypeKind) (name : String) :
    ((if isEmpty then CallRegistry.builtin.accessor? kind name else none) = none ∧
        (if isEmpty then keyed? accessorTrees kind name else none) = none) ∨
      exists accessor property,
        (if isEmpty then CallRegistry.builtin.accessor? kind name else none) = some accessor ∧
          (if isEmpty then keyed? accessorTrees kind name else none) = some property ∧
            r.AccessorMeans accessor property := by
  cases isEmpty with
  | false => exact Or.inl ⟨rfl, rfl⟩
  | true => exact lookup_accessor kind name

theorem means_methodCall {name : String} {receiver f : TypedFragment} {m : Meant}
    {args : List Argument} {ms : List Meant} (hreceiver : r.Means receiver.query m.tree)
    (htype : receiver.type = m.type) (hargs : r.AllAnswer args ms)
    (h : Compiler.methodCall .builtin name receiver args = .ok f) :
    r.Means f.query (methodTree name m ms) := by
  unfold Compiler.methodCall at h
  unfold methodTree
  dsimp only at h
  rw [htype, hargs.isEmpty_eq] at h
  rcases @lookup_method r m.type.kind name with
    ⟨hnone, htree⟩ | ⟨handler, method, hsome, htree, hmeans⟩
  · rw [hnone] at h
    rw [htree]
    dsimp only at h ⊢
    rcases @lookup_property r ms.isEmpty m.type.kind name with
      ⟨hnone, htree⟩ | ⟨accessor, property, hsome, htree, hmeans⟩
    · rw [hnone] at h
      rw [htree]
      dsimp only at h ⊢
      cases hnative : Compiler.native? name receiver args with
      | none =>
          rw [hnative] at h
          rw [nativeTree?_eq_none hnative]
          dsimp only at h ⊢
          split at h
          · exact means_sqlFunction (.cons hreceiver .nil) hargs h
          · cases h
      | some result =>
          rw [hnative] at h
          dsimp only at h
          rw [h] at hnative
          rcases means_native hreceiver htype hargs hnative with ⟨tree, hnativeTree, hmeans⟩
          rw [hnativeTree]
          exact hmeans
    · rw [hsome] at h
      rw [htree]
      exact (hmeans hreceiver h).2
  · rw [hsome] at h
    rw [htree]
    exact hmeans hreceiver hargs h

/-!
## Expressions
-/

theorem answers_of_means {e : Expr} (hplain : e.isPlain = true)
    (h : forall f, c.node e = .ok f -> r.Means f.query (c.meaning r.scopes e)) :
    r.Answers ⟨e, c.node e⟩ ⟨e, c.typeOf e, c.meaning r.scopes e⟩ := by
  refine ⟨rfl, hplain, ?_⟩
  intro f hf
  have htype : c.typeOf e = f.type := by
    unfold Compiler.typeOf
    rw [show c.node e = .ok f from hf]
  exact ⟨htype.symm, h f hf⟩

mutual

theorem means_node (hcalls : c.calls = .builtin) (e : Expr) (hplain : e.isPlain = true)
    {f : TypedFragment} (h : c.node e = .ok f) : r.Means f.query (c.meaning r.scopes e) := by
  cases e with
  | field path =>
      rw [Compiler.node] at h
      rw [Compiler.meaning]
      rcases Result.bind_eq_ok.mp h with ⟨q, hq, hf⟩
      cases hf
      exact means_path hcalls hq
  | constant v =>
      rw [Compiler.node] at h
      rw [Compiler.meaning]
      cases h
      exact means_value v
  | unary op operand =>
      rw [Expr.isPlain] at hplain
      rw [Compiler.node] at h
      rw [Compiler.meaning]
      rcases Result.bind_eq_ok.mp h with ⟨g, hg, hf⟩
      exact means_unary (means_node hcalls operand hplain hg) hf
  | binary op left right =>
      rw [Expr.isPlain, Bool.and_eq_true] at hplain
      have htype : c.typeOf (.binary op left right) = f.type := by
        unfold Compiler.typeOf
        rw [h]
      rw [Compiler.node] at h
      rw [Compiler.meaning, htype]
      have hleft := answers_of_means hplain.1 fun g => means_node hcalls left hplain.1
      have hright := answers_of_means hplain.2 fun g => means_node hcalls right hplain.2
      exact means_binary hleft hright h
  | method name receiver args onServer =>
      rw [Expr.isPlain, Bool.and_eq_true] at hplain
      rw [Compiler.node] at h
      rw [Compiler.meaning]
      rcases Result.bind_eq_ok.mp h with ⟨g, hg, hcall⟩
      have hreceiver := answers_of_means hplain.1 fun g => means_node hcalls receiver hplain.1
      rcases hreceiver.means g hg with ⟨htype, hmeans⟩
      rw [hcalls] at hcall
      exact means_methodCall hmeans htype (answers_arguments hcalls args hplain.2) hcall
  | function name args =>
      rw [Expr.isPlain] at hplain
      rw [Compiler.node] at h
      rw [Compiler.meaning]
      exact means_sqlFunction .nil (answers_arguments hcalls args hplain) h
  | subquery s => simp [Expr.isPlain] at hplain
  | compiled fragment => simp [Expr.isPlain] at hplain
  | invalid error =>
      rw [Compiler.node] at h
      cases h

theorem answers_arguments (hcalls : c.calls = .builtin) (es : List Expr)
    (hplain : Expr.allPlain es = true) :
    r.AllAnswer (c.arguments es) (c.meanings r.scopes es) := by
  cases es with
  | nil =>
      rw [Compiler.arguments, Compiler.meanings]
      exact .nil
  | cons e rest =>
      rw [Expr.allPlain, Bool.and_eq_true] at hplain
      rw [Compiler.arguments, Compiler.meanings]
      have hfirst := answers_of_means hplain.1 fun g => means_node hcalls e hplain.1
      exact .cons hfirst (answers_arguments hcalls rest hplain.2)

end

end Reader

/-!
## Folding
-/

namespace Fold

theorem isPlain_unaryNode (op : UnaryOp) {operand : Expr} (h : operand.isPlain = true) :
    (unaryNode op operand).isPlain = true := by
  unfold unaryNode
  split
  · split
    · rfl
    · exact h
  · exact h

theorem isPlain_binaryNode (op : BinaryOp) {left right : Expr} (hleft : left.isPlain = true)
    (hright : right.isPlain = true) : (binaryNode op left right).isPlain = true := by
  have hboth : (Expr.binary op left right).isPlain = true := by
    rw [Expr.isPlain, hleft, hright]
    rfl
  unfold binaryNode
  split
  · split
    · rfl
    · exact hboth
  · exact hboth

theorem isPlain_methodNode (name : String) {receiver : Expr} {args : List Expr}
    (onServer : Bool) (hreceiver : receiver.isPlain = true)
    (hargs : Expr.allPlain args = true) :
    (methodNode name receiver args onServer).isPlain = true := by
  have hcall : (Expr.method name receiver args onServer).isPlain = true := by
    rw [Expr.isPlain, hreceiver, hargs]
    rfl
  unfold methodNode
  split
  · exact hcall
  · split
    · rfl
    · exact hcall

mutual

theorem isPlain_fold (e : Expr) (h : e.isPlain = true) : (fold e).isPlain = true := by
  cases e with
  | unary op operand =>
      rw [Expr.isPlain] at h
      rw [fold]
      exact isPlain_unaryNode op (isPlain_fold operand h)
  | binary op left right =>
      rw [Expr.isPlain, Bool.and_eq_true] at h
      rw [fold]
      exact isPlain_binaryNode op (isPlain_fold left h.1) (isPlain_fold right h.2)
  | method name receiver args onServer =>
      rw [Expr.isPlain, Bool.and_eq_true] at h
      rw [fold]
      exact isPlain_methodNode name onServer (isPlain_fold receiver h.1)
        (allPlain_foldAll args h.2)
  | function name args =>
      rw [Expr.isPlain] at h
      rw [fold, Expr.isPlain]
      exact allPlain_foldAll args h
  | _ => simpa only [fold] using h

theorem allPlain_foldAll (es : List Expr) (h : Expr.allPlain es = true) :
    Expr.allPlain (foldAll es) = true := by
  cases es with
  | nil =>
      rw [foldAll]
      rfl
  | cons e rest =>
      rw [Expr.allPlain, Bool.and_eq_true] at h
      rw [foldAll, Expr.allPlain, isPlain_fold e h.1, allPlain_foldAll rest h.2]
      rfl

end

end Fold

/-!
## Rendered text
-/

def Fragment.renderIn (f : Fragment) (mode : RenderMode) (scopes : Scopes) : Rendered :=
  mode.writeParts scopes {} f.parts

namespace Rendered

def env (rendered : Rendered) (index : Nat) : Option Tree :=
  (rendered.params.get? index).map fun v => v.value.tree

def read? (conforming : Bool) (rendered : Rendered) : Option Tree :=
  Server.read? conforming rendered.env rendered.sql

end Rendered

theorem inlineLiteral?_of_mem_pieces {scopes : Scopes} {parts : List Part} {v : Typed}
    (h : .value v ∈ Part.pieces scopes parts) : v.value.inlineLiteral? = none := by
  rcases List.mem_map.mp h with ⟨⟨frames, leaf⟩, -, hpiece⟩
  cases leaf with
  | value w =>
      simp only [Placed.piece] at hpiece
      split at hpiece
      · cases hpiece
      · rename_i hnone
        cases hpiece
        exact hnone
  | _ => cases hpiece

theorem atomText_dollar {conforming : Bool} {env : Nat -> Option Tree} {index : Nat} {v : Value}
    (h : env index = some v.tree) :
    AtomText conforming env (Placeholder.dollar.written index).toList v.tree := by
  refine ⟨?_, _, lexes_dollar index, ?_⟩
  · rw [Placeholder.written, String.toList_append]
    exact Or.inl rfl
  · rw [v.inert_tree.isQualified]
    exact .of_reads (readsAtom_parameter h)

theorem renderIn_simple (f : Fragment) (scopes : Scopes) :
    f.renderIn .simple scopes =
      { sql := Piece.simpleText (Part.pieces scopes f.parts), params := {} } := by
  rw [Fragment.renderIn, RenderMode.writeParts_eq_pieces, Piece.foldl_writePiece_simple]
  simp [Rendered.write]

theorem renderIn_bound (f : Fragment) (p : Placeholder) (scopes : Scopes) :
    f.renderIn (.bound p) scopes =
      { sql := Mark.text p (Piece.marks 0 (Part.pieces scopes f.parts))
        params := ⟨Piece.values (Part.pieces scopes f.parts)⟩ } := by
  rw [Fragment.renderIn, RenderMode.writeParts_eq_pieces, Piece.foldl_writePiece_bound]
  simp [Parameters.size]

theorem writtenAs_renderIn (f : Fragment) {mode : RenderMode} (hmode : mode ≠ .bound .atSign)
    (scopes : Scopes) (conforming : Bool) :
    f.WrittenAs (Reader.spelled ⟨conforming, (f.renderIn mode scopes).env, scopes⟩) scopes
      (f.renderIn mode scopes).sql.toList := by
  cases mode with
  | simple =>
      rw [renderIn_simple]
      apply written_simple
      intro v hv
      have hinteger := Value.isInteger_of_bound (inlineLiteral?_of_mem_pieces hv)
      exact v.value.literal_text.2 hinteger
  | bound placeholder =>
      cases placeholder with
      | atSign => exact absurd rfl hmode
      | dollar =>
          rw [renderIn_bound]
          refine @written_bound _ .dollar [] [] _ ?_
          intro index v hv hget
          have henv : Rendered.env
              { sql := Mark.text .dollar (Piece.marks 0 (Part.pieces scopes f.parts))
                params := ⟨Piece.values (Part.pieces scopes f.parts)⟩ } index =
                some v.value.tree := by
            rw [List.nil_append, List.append_nil] at hget
            simp only [Rendered.env, hget, Option.map_some]
          exact atomText_dollar henv

namespace Compiler

variable {c : Compiler} {e : Expr} {f : TypedFragment}

/-- An expression that is compiled as it is written reads, in the text rendered for it, as the tree
that it means, or as none when a qualifier may not be written as it is. -/
theorem read?_of_node (hcalls : c.calls = .builtin) (hplain : e.isPlain = true)
    (h : c.node e = .ok f) {mode : RenderMode} (hmode : mode ≠ .bound .atSign)
    (scopes : Scopes) (conforming : Bool) :
    ((f.query.renderIn mode scopes).read? conforming).isSome =
        (c.meaning scopes e).isQualified ∧
      ((f.query.renderIn mode scopes).read? conforming = some (c.meaning scopes e) <->
        (c.meaning scopes e).isQualified = true ∧ (c.meaning scopes e).arrowsTight = true) := by
  have hwritten := writtenAs_renderIn f.query hmode scopes conforming
  have hmeans : Reader.Means ⟨conforming, (f.query.renderIn mode scopes).env, scopes⟩ f.query
      (c.meaning scopes e) :=
    Reader.means_node hcalls e hplain h
  rcases hmeans with ⟨s, hshows, hs⟩
  have hwhole := (hshows _ hwritten).whole
  have hqualified := hs.agrees.qualified_eq
  unfold Rendered.read?
  rw [<- hqualified]
  cases hq : s.tree.isQualified with
  | false =>
      rw [hwhole.read?_eq_none hq]
      simp
  | true =>
      rw [hwhole.read?_of_isQualified hq, Option.some_inj, hs.agrees.eq_iff]
      simp

/-- Text rendered for an expression reads exactly when the qualifiers of its columns may be
written as they are, and reads as the tree that the folded expression means exactly when, besides,
every arrow of that tree has a tight right operand. -/
theorem rendered_reads_as_meaning_iff (hcalls : c.calls = .builtin) (hplain : e.isPlain = true)
    (h : c.compile e = .ok f) {mode : RenderMode} (hmode : mode ≠ .bound .atSign)
    (scopes : Scopes) (conforming : Bool) :
    ((f.query.renderIn mode scopes).read? conforming).isSome =
        (c.meaning scopes (fold e)).isQualified ∧
      ((f.query.renderIn mode scopes).read? conforming = some (c.meaning scopes (fold e)) <->
        (c.meaning scopes (fold e)).isQualified = true ∧
          (c.meaning scopes (fold e)).arrowsTight = true) :=
  read?_of_node hcalls (Fold.isPlain_fold e hplain) h hmode scopes conforming

def articleTable : Table where
  model := "Article"
  name := "article"
  schema := none
  columns := [
    { field := "title", name := "title", type := .text },
    { field := "author", name := "author", type := .text },
    { field := "data", name := "data", type := .json none }]

def articleCompiler : Compiler := { scope := .ofTable articleTable }

def articleScopes : Scopes := ⟨[(.single .root articleTable, false)]⟩

def labelSum : Expr := .binary .add (.field [.column "data", .key "label" true]) (.col "title")

def labelFragment : TypedFragment :=
  ⟨⟨[.text "(", .nested [.nested [.column .root "data"], .text "->>",
      .value ⟨.text "label", .text⟩], .text ") || (", .nested [.column .root "title"],
      .text ")"]⟩, .text⟩

theorem compile_labelSum : articleCompiler.compile labelSum = .ok labelFragment := rfl

theorem labelSum_reads_as_meaning :
    articleCompiler.calls = .builtin ∧ labelSum.isPlain = true ∧
      articleCompiler.compile labelSum = .ok labelFragment ∧
      RenderMode.bound .dollar ≠ .bound .atSign ∧
      (labelFragment.query.renderIn (.bound .dollar) articleScopes).read? true =
        some (articleCompiler.meaning articleScopes (fold labelSum)) :=
  ⟨rfl, rfl, compile_labelSum, by decide,
    (rendered_reads_as_meaning_iff rfl rfl compile_labelSum (by decide) articleScopes true).2.mpr
      ⟨rfl, rfl⟩⟩

def memberOfSum : Expr :=
  .method "index" (.col "data") [.binary .add (.col "title") (.col "author")] false

theorem memberOfSum_reads_otherwise :
    exists f, articleCompiler.compile memberOfSum = .ok f ∧
      (f.query.renderIn .simple articleScopes).sql =
        "(\"data\")->(\"title\") || (\"author\")" ∧
      articleCompiler.meaning articleScopes (fold memberOfSum) =
        .binary "->" (.column none "data")
          (.binary "||" (.column none "title") (.column none "author")) ∧
      (f.query.renderIn .simple articleScopes).read? true =
        some (.binary "||" (.binary "->" (.column none "data") (.column none "title"))
          (.column none "author")) ∧
      (f.query.renderIn .simple articleScopes).read? true ≠
        some (articleCompiler.meaning articleScopes (fold memberOfSum)) := by
  refine ⟨_, rfl, rfl, rfl, rfl, ?_⟩
  intro h
  injection h with htree
  injection htree with hop _ _
  exact absurd hop (by decide)

end Compiler

end TypedQuery
