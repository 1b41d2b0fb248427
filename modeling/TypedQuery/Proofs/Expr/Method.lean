import TypedQuery.Proofs.Expr.Operator

/-!
# Methods and pseudo-properties mean what they should

Handlers stand in registries under the kind of the receiver and their name, and so do the trees that
they mean.  Both tables have the same keys, and a lookup finds a handler together with its tree.
-/

namespace TypedQuery

open Server

namespace Meant

theorem next_of_constant {m : Meant} {v : Typed}
    (h : Fold.binaryNode .add m.expr (.constant ⟨.int 1, .integer⟩) = .constant v) :
    m.next = v.tree := by
  rw [next, h]

theorem next_of_ne_constant {m : Meant}
    (h : forall v, Fold.binaryNode .add m.expr (.constant ⟨.int 1, .integer⟩) = .constant v ->
      False) :
    m.next = .binary "+" m.tree (.number 1) := by
  unfold next
  split
  · rename_i v hconstant
    exact absurd hconstant (h v)
  · rfl

end Meant

namespace Reader

variable {r : Reader} {t u : Tree}

abbrev AllAnswer (r : Reader) (args : List Argument) (ms : List Meant) : Prop :=
  List.Forall₂ r.Answers args ms

theorem AllAnswer.of_single {name : String} {args : List Argument} {ms : List Meant}
    (h : r.AllAnswer args ms) {a : Argument} (ha : Argument.single name args = .ok a) :
    exists m, ms = [m] ∧ r.Answers a m := by
  cases h with
  | nil => cases ha
  | cons hfirst hrest =>
      cases hrest with
      | nil =>
          cases ha
          exact ⟨_, rfl, hfirst⟩
      | cons _ _ => cases ha

theorem add_integer_eq {left right f : TypedFragment} (hright : right.type = .integer)
    (h : TypedFragment.arithmetic .add left right = .ok f) :
    f = TypedFragment.combine left "+" right f.type := by
  unfold TypedFragment.arithmetic at h
  rw [hright] at h
  simp only [TypedFragment.isTextual, SqlType.isArray, Bool.and_false, Bool.false_eq_true,
    if_false, Bool.or_self, reduceCtorEq, decide_false] at h
  split at h
  · cases h
    rfl
  · cases h

theorem Answers.next {a : Argument} {m : Meant} (h : r.Answers a m) {f : TypedFragment}
    (hf : a.next = .ok f) : r.Means f.query m.next := by
  unfold Argument.next at hf
  rw [h.expr_eq] at hf
  dsimp only at hf
  split at hf
  · rename_i v hfold
    cases hf
    rw [Meant.next_of_constant hfold]
    exact means_value v
  · rename_i hfold
    rcases Result.bind_eq_ok.mp hf with ⟨g, hg, hsum⟩
    rcases h.means g hg with ⟨-, hmeans⟩
    have hone : r.Means (TypedFragment.ofValue ⟨.int 1, .integer⟩).query (.number 1) :=
      means_value ⟨.int 1, .integer⟩
    have hplus : "+" ∈ tightSymbols := by decide
    rw [Meant.next_of_ne_constant hfold, add_integer_eq rfl hsum]
    exact hmeans.combine hone (Or.inl hplus) _

/-!
## Methods of texts
-/

theorem textArgument_eq_ok {name : String} {args : List Argument} {ms : List Meant}
    (hargs : r.AllAnswer args ms) {f : TypedFragment}
    (h : TextMethod.textArgument name args = .ok f) :
    r.Means f.query (Meant.single ms) := by
  rcases Result.bind_eq_ok.mp h with ⟨a, ha, h⟩
  rcases Result.bind_eq_ok.mp h with ⟨g, hg, h⟩
  rcases hargs.of_single ha with ⟨m, rfl, hm⟩
  split at h
  · cases h
    exact (hm.means _ hg).2
  · cases h
    exact (hm.means _ hg).2
  · cases h

def MethodMeans (r : Reader) (handler : MethodHandler) (method : Meant -> List Meant -> Tree) :
    Prop :=
  forall {receiver : TypedFragment} {m : Meant} {args : List Argument} {ms : List Meant}
    {f : TypedFragment}, r.Means receiver.query m.tree -> r.AllAnswer args ms ->
      handler receiver args = .ok f -> r.Means f.query (method m ms)

theorem atomText_literal {conforming : Bool} {env : Nat -> Option Tree} {literal s : String}
    (h : Text.quoteLiteral s = literal) :
    AtomText conforming env literal.toList (.string s) := by
  rw [<- h]
  exact atomText_quoteLiteral s

theorem Means.pattern {receiver argument : TypedFragment} (hreceiver : r.Means receiver.query t)
    (hargument : r.Means argument.query u) {op : String} (hop : op ∈ looseSymbols)
    {before after : String} (inner : String) (hafter : after.toList = inner.toList ++ [')'])
    (build : Tree -> Spine)
    (hbuild : forall text tree, WholeText r.conforming r.env text tree ->
      SpineText r.conforming r.env 0 (before.toList ++ (text ++ inner.toList)) (build tree))
    (hagrees : forall tree, tree.Agrees u -> (build tree).tree.Agrees (build u).tree) :
    r.Means (TextMethod.pattern receiver op before argument after).query
      (.binary op t (build u).tree) := by
  refine hreceiver.wrap₂ hargument (fun tree tree' => ⟨tree, [.binary op (build tree').tree]⟩)
    ?_ ?_
  · intro text tree text' tree' htext htext'
    have hpattern := (hbuild text' tree' htext').whole.group
    simpa [spaced, hafter] using htext.group.loose hop hpattern
  · intro tree tree' htree htree'
    have hagrees' := htree.binary (hagrees tree' htree') (isArrow_of_loose hop)
    refine Spine.presents_tail hagrees' ?_
    simpa [Tree.isTight] using not_tight_of_loose hop

section

variable {conforming : Bool} {env : Nat -> Option Tree}

theorem mem_concat : "||" ∈ looseSymbols := by decide

theorem mem_like : "LIKE" ∈ looseSymbols := by decide

theorem mem_match : "~*" ∈ looseSymbols := by decide

theorem atomText_percent : AtomText conforming env "'%'".toList (.string "%") :=
  atomText_literal rfl

theorem atomText_caret : AtomText conforming env "'^'".toList (.string "^") :=
  atomText_literal rfl

end

theorem methodMeans_startsWith : r.MethodMeans TextMethod.startsWith Meant.startsWith := by
  intro receiver m args ms f hreceiver hargs h
  rcases Result.bind_eq_ok.mp h with ⟨g, hg, hf⟩
  cases hf
  refine hreceiver.pattern (textArgument_eq_ok hargs hg) mem_like ") || '%'" rfl
    (fun tree => ⟨.call "escape_like" [tree], [.binary "||" (.string "%")]⟩) ?_ ?_
  · intro text tree htext
    have hcall := atomText_call "escape_like" rfl htext
    have hspine := hcall.loose mem_concat atomText_percent
    simpa [spaced] using hspine
  · intro tree htree
    exact (agrees_call htree "escape_like").binary (Tree.Agrees.refl rfl) rfl

theorem methodMeans_endsWith : r.MethodMeans TextMethod.endsWith Meant.endsWith := by
  intro receiver m args ms f hreceiver hargs h
  rcases Result.bind_eq_ok.mp h with ⟨g, hg, hf⟩
  cases hf
  refine hreceiver.pattern (textArgument_eq_ok hargs hg) mem_like ")" rfl
    (fun tree => ⟨.string "%", [.binary "||" (.call "escape_like" [tree])]⟩) ?_ ?_
  · intro text tree htext
    have hcall := atomText_call "escape_like" rfl htext
    have hspine := atomText_percent.loose mem_concat hcall
    simpa [spaced] using hspine
  · intro tree htree
    exact (Tree.Agrees.refl rfl).binary (agrees_call htree "escape_like") rfl

theorem methodMeans_containsText : r.MethodMeans TextMethod.contains Meant.containsText := by
  intro receiver m args ms f hreceiver hargs h
  rcases Result.bind_eq_ok.mp h with ⟨g, hg, hf⟩
  cases hf
  refine hreceiver.pattern (textArgument_eq_ok hargs hg) mem_like ") || '%'" rfl
    (fun tree => ⟨.string "%",
      [.binary "||" (.call "escape_like" [tree]), .binary "||" (.string "%")]⟩) ?_ ?_
  · intro text tree htext
    have hcall := atomText_call "escape_like" rfl htext
    have hfirst := (atomText_percent.operand.spine (Nat.le_refl _)).concat hcall
    have hspine := (hfirst.concat atomText_percent).mono (Nat.zero_le _)
    simpa [spaced, Spine.snoc] using hspine
  · intro tree htree
    have hfirst : (Tree.binary "||" (.string "%") (.call "escape_like" [tree])).Agrees
        (.binary "||" (.string "%") (.call "escape_like" [Meant.single ms])) :=
      (Tree.Agrees.refl rfl).binary (agrees_call htree "escape_like") rfl
    exact hfirst.binary (Tree.Agrees.refl rfl) rfl

theorem methodMeans_startsWithIgnoreCase :
    r.MethodMeans TextMethod.startsWithIgnoreCase Meant.startsWithIgnoreCase := by
  intro receiver m args ms f hreceiver hargs h
  rcases Result.bind_eq_ok.mp h with ⟨g, hg, hf⟩
  cases hf
  refine hreceiver.pattern (textArgument_eq_ok hargs hg) mem_match ")" rfl
    (fun tree => ⟨.string "^", [.binary "||" (.call "escape_regexp" [tree])]⟩) ?_ ?_
  · intro text tree htext
    have hcall := atomText_call "escape_regexp" rfl htext
    have hspine := atomText_caret.loose mem_concat hcall
    simpa [spaced] using hspine
  · intro tree htree
    exact (Tree.Agrees.refl rfl).binary (agrees_call htree "escape_regexp") rfl

theorem position_eq_ok {compiled : Result TypedFragment} {f : TypedFragment}
    (h : TextMethod.position compiled = .ok f) : compiled = .ok f := by
  rcases Result.bind_eq_ok.mp h with ⟨g, hg, h⟩
  split at h
  · cases h
    exact hg
  · cases h
    exact hg
  · cases h
    exact hg
  · cases h

theorem Means.substr {f : Fragment} (hf : r.Means f t) {fs : List Fragment} {ts : List Tree}
    (hfs : List.Forall₂ r.Means fs ts) :
    r.Means (((Fragment.empty.text "substr(").joined (f :: fs) ", ").text ")")
      (.call "substr" (t :: ts)) := by
  have hbefore : "substr(".toList = "substr".toList ++ ['('] := rfl
  have hafter : ")".toList = commaTail [] ++ [')'] := rfl
  have hcall := hf.joined hfs hbefore hafter .nil .nil rfl
  rwa [List.append_nil] at hcall

theorem methodMeans_substring : r.MethodMeans TextMethod.substring Meant.substring := by
  intro receiver m args ms f hreceiver hargs h
  cases hargs with
  | nil => cases h
  | cons hstart hrest =>
      cases hrest with
      | nil =>
          rcases Result.bind_eq_ok.mp h with ⟨⟨_, _⟩, hshape, h⟩
          cases hshape
          rcases Result.bind_eq_ok.mp h with ⟨g, hg, hf⟩
          cases hf
          have hposition := hstart.next (position_eq_ok hg)
          exact hreceiver.substr (.cons hposition .nil)
      | cons hlength hrest =>
          cases hrest with
          | nil =>
              rcases Result.bind_eq_ok.mp h with ⟨⟨_, _⟩, hshape, h⟩
              cases hshape
              rcases Result.bind_eq_ok.mp h with ⟨g, hg, h⟩
              rcases Result.bind_eq_ok.mp h with ⟨k, hk, hf⟩
              cases hf
              have hposition := hstart.next (position_eq_ok hg)
              have hcount := (hlength.means k (position_eq_ok hk)).2
              exact hreceiver.substr (.cons hposition (.cons hcount .nil))
          | cons _ _ => cases h

/-!
## Pseudo-properties
-/

def AccessorMeans (r : Reader) (accessor : Accessor) (property : Tree -> Tree) : Prop :=
  forall {f g : TypedFragment} {t : Tree}, r.Means f.query t -> accessor f = .ok g ->
    g.type.isJson = false ∧ r.Means g.query (property t)

theorem accessorMeans_call {name before : String} (hbefore : before.toList = name.toList ++ ['('])
    (hcall : isCall name 1 = true) {type : SqlType} (htype : type.isJson = false) :
    r.AccessorMeans (Property.around before ")" type) (callTree name) := by
  intro f g t hf h
  cases h
  exact ⟨htype, hf.call hbefore hcall type⟩

theorem accessorMeans_date : r.AccessorMeans Property.date fun t => Tree.castTo t .date := by
  intro f g t hf h
  cases h
  exact ⟨rfl, hf.cast _ .date⟩

theorem atomText_datePart {conforming : Bool} {env : Nat -> Option Tree} (field : String)
    (hfield : Text.quoteLiteral field = "'" ++ field ++ "'") {text : List Char}
    (h : WholeText conforming env text t) :
    AtomText conforming env
      (("date_part('" ++ field ++ "', ").toList ++ (text ++ [')']))
      (.call "date_part" [.string field, t]) := by
  have hquoted : AtomText conforming env ("'" ++ field ++ "'").toList (.string field) :=
    atomText_literal hfield
  have hitems := hquoted.whole.consItem h.lastItem.space
  have hcall := hitems.call "date_part" rfl
  simpa using hcall

theorem agrees_datePart (h : u.Agrees t) (field : String) :
    (Tree.call "date_part" [.string field, u]).Agrees (.call "date_part" [.string field, t]) :=
  Tree.Agrees.call (.cons (Tree.Agrees.refl rfl) (.cons h .nil)) _

theorem accessorMeans_datePart {field : String}
    (hfield : Text.quoteLiteral field = "'" ++ field ++ "'") :
    r.AccessorMeans (Property.datePart field) (datePartTree field) := by
  intro f g t hf h
  cases h
  refine ⟨rfl, ?_⟩
  refine hf.wrap (fun tree =>
    ⟨Tree.castTo (.call "date_part" [.string field, tree]) .integer, []⟩) ?_ ?_
  · intro text tree htext
    have hcast := ((atomText_datePart field hfield htext).cast .integer).spine
    simpa [Tree.castTo, SqlType.cast] using hcast
  · intro tree htree
    exact Spine.presents_operand ((agrees_datePart htree field).cast _) rfl

theorem accessorMeans_second : r.AccessorMeans Property.second secondTree := by
  intro f g t hf h
  cases h
  refine ⟨rfl, ?_⟩
  refine hf.wrap (fun tree =>
    ⟨Tree.castTo (.call "floor" [.call "date_part" [.string "second", tree]]) .integer, []⟩) ?_ ?_
  · intro text tree htext
    have hpart := atomText_datePart "second" rfl htext
    have hfloor := atomText_call "floor" rfl hpart.whole
    have hcast := (hfloor.cast .integer).spine
    simpa [Tree.castTo, SqlType.cast] using hcast
  · intro tree htree
    have hpart := agrees_datePart htree "second"
    exact Spine.presents_operand ((agrees_call hpart "floor").cast _) rfl

/-!
## Methods of every receiver
-/

theorem means_containsItem {receiver f : TypedFragment} {m : Meant} {a : Argument} {n : Meant}
    (hreceiver : r.Means receiver.query m.tree) (ha : r.Answers a n)
    (h : Compiler.containsItem receiver a = .ok f) :
    r.Means f.query (.quantified "=" false n.tree m.tree) := by
  rcases Result.bind_eq_ok.mp h with ⟨g, hg, h⟩
  rcases ha.means g hg with ⟨-, hitem⟩
  split at h
  · cases h
  split at h
  · cases h
    refine hitem.wrap₂ hreceiver (fun tree tree' => ⟨tree, [.quantified "=" false tree']⟩) ?_ ?_
    · intro text tree text' tree' htext htext'
      simpa [quantifier, quantifierOp] using htext.group.quantified false htext'
    · intro tree tree' htree htree'
      exact Spine.presents_tail (htree.quantified htree' "=" false) rfl
  · cases h

theorem means_indexed {receiver f : TypedFragment} {m : Meant} {a : Argument} {n : Meant}
    (hreceiver : r.Means receiver.query m.tree) (htype : receiver.type = m.type)
    (ha : r.Answers a n) (h : Compiler.indexed receiver a = .ok f) :
    r.Means f.query (m.index [n]) := by
  unfold Compiler.indexed at h
  unfold Meant.index
  rw [<- htype]
  split at h
  · rename_i item hitem
    rw [hitem]
    rcases Result.bind_eq_ok.mp h with ⟨g, hg, h⟩
    have hposition := ha.next hg
    have hindex : r.Means
        (((((Fragment.empty.text "(").nested receiver.query).text ")[").nested g.query).text "]")
        (.subscript m.tree n.next) := by
      refine hreceiver.wrap₂ hposition (fun tree tree' => ⟨.subscript tree tree', []⟩) ?_ ?_
      · intro text tree text' tree' htext htext'
        simpa using (htext.subscript htext').spine
      · intro tree tree' htree htree'
        exact Spine.presents_operand (htree.subscript htree') rfl
    split at h
    · cases h
      exact hindex
    · cases h
      exact hindex
    · cases h
  · rename_i shape hjson
    rw [hjson]
    rcases Result.bind_eq_ok.mp h with ⟨g, hg, h⟩
    cases h
    exact hreceiver.arrow (ha.means g hg).2
  · cases h

theorem Means.member {f : Fragment} (hf : r.Means f t) (negated : Bool) (v : Typed) :
    r.Means
      (((((Fragment.empty.text "(").nested f).text
        (if negated then ") <> ALL(" else ") = ANY(")).value v).text ")")
      (.quantified (quantifierOp negated) negated t v.tree) := by
  rcases hf with ⟨s, hshows, hs⟩
  refine ⟨⟨s.tree, [.quantified (quantifierOp negated) negated v.tree]⟩, ?_,
    Spine.presents_tail (hs.agrees.quantified v.agrees_tree _ _) rfl⟩
  intro written hwritten
  rcases hwritten.of_text with ⟨_, rfl, hvalue⟩
  rcases operandText_of_value hvalue with ⟨_, value, rfl, hmiddle, hoperand⟩
  rcases hmiddle.of_text with ⟨_, rfl, hfirst⟩
  rcases hfirst.of_nested with ⟨_, text, rfl, hopening, htext⟩
  rcases hopening.of_text with ⟨_, rfl, hempty⟩
  have hmember := (hshows text htext).whole.group.quantified negated hoperand.whole
  rw [hempty.eq_of_empty]
  cases negated with
  | false => simpa [quantifier, quantifierOp] using hmember
  | true => simpa [quantifier, quantifierOp] using hmember

theorem means_membership {receiver f : TypedFragment} {m : Meant} {a : Argument} {n : Meant}
    (hreceiver : r.Means receiver.query m.tree) (htype : receiver.type = m.type)
    (ha : r.Answers a n) {negated : Bool}
    (h : Compiler.membership receiver a negated = .ok f) :
    r.Means f.query (m.member [n] negated) := by
  rcases n with ⟨e, type, tree⟩
  have he : a.expr = e := ha.expr_eq
  unfold Compiler.membership at h
  rw [he] at h
  split at h
  · rename_i items itemsType
    have hmember := hreceiver.member negated (Compiler.retyped m.type ⟨.array items, itemsType⟩)
    dsimp only at h
    rw [htype] at h
    split at h
    · split at h
      · cases h
        exact hmember
      · cases h
    · cases h
      exact hmember
  · exact absurd ha.plain (by simp [Expr.isPlain])
  · cases h

theorem means_overlap {receiver f : TypedFragment} {m : Meant} {a : Argument} {n : Meant}
    (hreceiver : r.Means receiver.query m.tree) (ha : r.Answers a n)
    (h : Compiler.overlap receiver a = .ok f) : r.Means f.query (.binary "&&" m.tree n.tree) := by
  rcases Result.bind_eq_ok.mp h with ⟨g, hg, h⟩
  split at h
  · cases h
    exact hreceiver.combine (ha.means g hg).2 (Or.inr (by decide)) _
  · cases h

theorem nativeTree?_eq_none {name : String} {receiver : TypedFragment} {m : Meant}
    {args : List Argument} {ms : List Meant}
    (h : Compiler.native? name receiver args = none) : nativeTree? name m ms = none := by
  unfold Compiler.native? at h
  split at h
  · cases h
  · cases h
  · cases h
  · cases h
  · cases h
  · unfold nativeTree?
    split <;> first | rfl | contradiction

theorem means_native {name : String} {receiver f : TypedFragment} {m : Meant}
    {args : List Argument} {ms : List Meant} (hreceiver : r.Means receiver.query m.tree)
    (htype : receiver.type = m.type) (hargs : r.AllAnswer args ms)
    (h : Compiler.native? name receiver args = some (.ok f)) :
    exists tree, nativeTree? name m ms = some tree ∧ r.Means f.query tree := by
  unfold Compiler.native? at h
  split at h
  · rcases Result.bind_eq_ok.mp (Option.some.inj h) with ⟨a, ha, hf⟩
    rcases hargs.of_single ha with ⟨n, rfl, hn⟩
    exact ⟨_, rfl, means_containsItem hreceiver hn hf⟩
  · rcases Result.bind_eq_ok.mp (Option.some.inj h) with ⟨a, ha, hf⟩
    rcases hargs.of_single ha with ⟨n, rfl, hn⟩
    exact ⟨_, rfl, means_indexed hreceiver htype hn hf⟩
  · rcases Result.bind_eq_ok.mp (Option.some.inj h) with ⟨a, ha, hf⟩
    rcases hargs.of_single ha with ⟨n, rfl, hn⟩
    exact ⟨_, rfl, means_membership hreceiver htype hn hf⟩
  · rcases Result.bind_eq_ok.mp (Option.some.inj h) with ⟨a, ha, hf⟩
    rcases hargs.of_single ha with ⟨n, rfl, hn⟩
    exact ⟨_, rfl, means_membership hreceiver htype hn hf⟩
  · rcases Result.bind_eq_ok.mp (Option.some.inj h) with ⟨a, ha, hf⟩
    rcases hargs.of_single ha with ⟨n, rfl, hn⟩
    exact ⟨_, rfl, means_overlap hreceiver hn hf⟩
  · cases h

/-!
## Lookups
-/

/-- Two tables with the same keys and related entries answer every lookup alike. -/
theorem lookup_related {α β : Type} {rel : α -> β -> Prop}
    {entries : List ((TypeKind × String) × α)} {trees : List ((TypeKind × String) × β)}
    (h : List.Forall₂ (fun a b => a.1 = b.1 ∧ rel a.2 b.2) entries trees) (kind : TypeKind)
    (name : String) :
    (keyed? entries kind name = none ∧ keyed? trees kind name = none) ∨
      exists a b, keyed? entries kind name = some a ∧ keyed? trees kind name = some b ∧
        rel a b := by
  induction h with
  | nil => exact Or.inl ⟨rfl, rfl⟩
  | @cons a b rest more hfirst _ ih =>
      rcases hfirst with ⟨hkey, hrel⟩
      by_cases ha : a.1 = (kind, name)
      · right
        have hb : b.1 = (kind, name) := hkey ▸ ha
        exact ⟨a.2, b.2, by simp [keyed?, ha], by simp [keyed?, hb], hrel⟩
      · have hb : b.1 ≠ (kind, name) := hkey ▸ ha
        have hleft : keyed? (a :: rest) kind name = keyed? rest kind name := by
          simp [keyed?, ha]
        have hright : keyed? (b :: more) kind name = keyed? more kind name := by
          simp [keyed?, hb]
        rw [hleft, hright]
        exact ih

theorem methods_related :
    List.Forall₂ (fun a b => a.1 = b.1 ∧ r.MethodMeans a.2 b.2) CallRegistry.builtin.methods
      methodTrees :=
  .cons ⟨rfl, methodMeans_startsWith⟩ <|
  .cons ⟨rfl, methodMeans_endsWith⟩ <|
  .cons ⟨rfl, methodMeans_containsText⟩ <|
  .cons ⟨rfl, methodMeans_startsWithIgnoreCase⟩ <|
  .cons ⟨rfl, methodMeans_substring⟩ .nil

theorem accessors_related :
    List.Forall₂ (fun a b => a.1 = b.1 ∧ r.AccessorMeans a.2 b.2)
      CallRegistry.builtin.accessors accessorTrees :=
  .cons ⟨rfl, accessorMeans_datePart rfl⟩ <|
  .cons ⟨rfl, accessorMeans_datePart rfl⟩ <|
  .cons ⟨rfl, accessorMeans_datePart rfl⟩ <|
  .cons ⟨rfl, accessorMeans_datePart rfl⟩ <|
  .cons ⟨rfl, accessorMeans_datePart rfl⟩ <|
  .cons ⟨rfl, accessorMeans_second⟩ <|
  .cons ⟨rfl, accessorMeans_date⟩ <|
  .cons ⟨rfl, accessorMeans_call rfl rfl rfl⟩ <|
  .cons ⟨rfl, accessorMeans_call rfl rfl rfl⟩ <|
  .cons ⟨rfl, accessorMeans_call rfl rfl rfl⟩ <|
  .cons ⟨rfl, accessorMeans_call rfl rfl rfl⟩ <|
  .cons ⟨rfl, accessorMeans_call rfl rfl rfl⟩ .nil

theorem lookup_method (kind : TypeKind) (name : String) :
    (CallRegistry.builtin.method? kind name = none ∧ keyed? methodTrees kind name = none) ∨
      exists handler method, CallRegistry.builtin.method? kind name = some handler ∧
        keyed? methodTrees kind name = some method ∧ r.MethodMeans handler method :=
  lookup_related methods_related kind name

theorem lookup_accessor (kind : TypeKind) (name : String) :
    (CallRegistry.builtin.accessor? kind name = none ∧ keyed? accessorTrees kind name = none) ∨
      exists accessor property, CallRegistry.builtin.accessor? kind name = some accessor ∧
        keyed? accessorTrees kind name = some property ∧ r.AccessorMeans accessor property :=
  lookup_related accessors_related kind name

end Reader
end TypedQuery
