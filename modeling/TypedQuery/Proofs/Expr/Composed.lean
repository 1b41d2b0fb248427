import TypedQuery.Proofs.Expr.Path
import TypedQuery.Proofs.Expr.Source
import TypedQuery.Proofs.Fragment.Anchor
import TypedQuery.Proofs.Schema.Lookup

/-!
# Compiled expressions are composed of their sources

A compiled expression has the columns, tables and frames that its sources contribute, each as often
as the expression has the source, and no others.  The invariant is carried from operands to results
through operators, calls and steps of a path; a registry carries it when its handlers do.
-/

namespace TypedQuery

namespace Compiler

/-- The slot and the physical name of the column that a path starts at, if the path resolves. -/
def columnOf (c : Compiler) (path : List PathStep) : Result (Slot × String) := do
  let _ <- c.resolve path
  let (slot, column, _, _) <- c.start? path
  return (slot, column.name)

def contributed (c : Compiler) : Expr -> Result (List Part)
  | .field path => do
      let (slot, name) <- c.columnOf path
      return [.column slot name]
  | .subquery s => do return (<- s.expression).query.anchors
  | .compiled fragment => .ok fragment.query.anchors
  | .invalid error => .error error
  | _ => .ok []

/-- All sources contribute, and the anchors are what they contribute, in some order. -/
def Holds (c : Compiler) (sources : List Expr) (anchors : List Part) : Prop :=
  exists parts, sources.mapM c.contributed = .ok parts ∧ anchors.Perm parts.flatten

def Declares (c : Compiler) (part : Part) : Prop :=
  exists slot t column, c.scope.table slot = .ok t ∧ column ∈ t.columns ∧
    part = .column slot column.name

theorem declares_of_columnOf {c : Compiler} {path : List PathStep} {slot : Slot} {name : String}
    (h : c.columnOf path = .ok (slot, name)) : c.Declares (.column slot name) := by
  rcases Result.bind_eq_ok.mp h with ⟨-, -, h⟩
  rcases Result.bind_eq_ok.mp h with ⟨⟨slot', column, start, steps⟩, hstart, hpair⟩
  cases hpair
  rcases Result.bind_eq_ok.mp hstart with ⟨⟨slot', rest⟩, -, h⟩
  rcases Result.bind_eq_ok.mp h with ⟨t, htable, h⟩
  split at h
  · rcases Result.bind_eq_ok.mp h with ⟨⟨index, column'⟩, hcolumn, hall⟩
    cases hall
    exact ⟨slot, t, column, htable,
      List.mem_of_getElem? (Table.getElem?_of_requireColumn hcolumn), rfl⟩
  · cases h

def Carries (c : Compiler) (a : Argument) : Prop :=
  forall f, a.compiled = .ok f -> c.Holds a.expr.sources f.query.anchors

namespace Holds

variable {c : Compiler} {sources more : List Expr} {anchors others : List Part}

theorem nil : c.Holds [] [] := ⟨[], rfl, .nil⟩

theorem of_contributed {source : Expr} {parts : List Part} (h : c.contributed source = .ok parts) :
    c.Holds [source] parts := by
  refine ⟨[parts], Result.mapM_eq_ok.mpr (.cons h .nil), ?_⟩
  rw [List.flatten_singleton]

theorem perm (h : c.Holds sources anchors) (hperm : others.Perm anchors) :
    c.Holds sources others := by
  rcases h with ⟨parts, hparts, hanchors⟩
  exact ⟨parts, hparts, hperm.trans hanchors⟩

theorem append (h : c.Holds sources anchors) (hmore : c.Holds more others) :
    c.Holds (sources ++ more) (anchors ++ others) := by
  rcases h with ⟨parts, hparts, hanchors⟩
  rcases hmore with ⟨rest, hrest, hothers⟩
  refine ⟨parts ++ rest, Result.mapM_append hparts hrest, ?_⟩
  rw [List.flatten_append]
  exact hanchors.append hothers

theorem append_swap (h : c.Holds sources anchors) (hmore : c.Holds more others) :
    c.Holds (sources ++ more) (others ++ anchors) :=
  (h.append hmore).perm List.perm_append_comm

theorem exists_contributed (h : c.Holds sources anchors) {source : Expr} (hmem : source ∈ sources) :
    exists parts, c.contributed source = .ok parts := by
  rcases h with ⟨parts, hparts, -⟩
  rcases Result.exists_image_of_mapM hparts hmem with ⟨part, -, hpart⟩
  exact ⟨part, hpart⟩

theorem exists_source (h : c.Holds sources anchors) {anchor : Part} (hmem : anchor ∈ anchors) :
    exists source parts, source ∈ sources ∧ c.contributed source = .ok parts ∧ anchor ∈ parts := by
  rcases h with ⟨parts, hparts, hanchors⟩
  rcases List.mem_flatten.mp (hanchors.subset hmem) with ⟨part, hpart, hanchor⟩
  rcases Result.exists_origin_of_mapM hparts hpart with ⟨source, hsource, hcontributed⟩
  exact ⟨source, part, hsource, hcontributed, hanchor⟩

end Holds
end Compiler

/-!
## Operators
-/

namespace TypedFragment

@[simp] theorem anchors_ofValue (v : Typed) : (ofValue v).query.anchors = [] := by
  simp [ofValue]

@[simp] theorem anchors_surround (before : String) (inner : TypedFragment) (after : String)
    (type : SqlType) : (surround before inner after type).query.anchors = inner.query.anchors := by
  simp [surround]

@[simp] theorem anchors_combine (left : TypedFragment) (op : String) (right : TypedFragment)
    (type : SqlType) :
    (combine left op right type).query.anchors = left.query.anchors ++ right.query.anchors := by
  simp [combine]

@[simp] theorem anchors_toJsonb (f : TypedFragment) :
    f.toJsonb.query.anchors = f.query.anchors := by
  unfold toJsonb
  split <;> simp

theorem anchors_unary {op : UnaryOp} {operand f : TypedFragment} (h : unary op operand = .ok f) :
    f.query.anchors = operand.query.anchors := by
  cases op with
  | not =>
      rcases Result.bind_eq_ok.mp h with ⟨_, _, hf⟩
      cases hf
      exact anchors_surround _ _ _ _
  | cast type =>
      cases h
      exact anchors_surround _ _ _ _
  | arrayLength =>
      simp only [unary] at h
      split at h
      · cases h
        exact anchors_surround _ _ _ _
      · cases h

theorem anchors_arithmetic {op : BinaryOp} {left right f : TypedFragment}
    (h : arithmetic op left right = .ok f) :
    f.query.anchors = left.query.anchors ++ right.query.anchors := by
  rw [arithmetic_eq h]
  exact anchors_combine _ _ _ _

theorem anchors_logic {op : BinaryOp} {left right f : TypedFragment}
    (h : logic op left right = .ok f) :
    f.query.anchors = left.query.anchors ++ right.query.anchors := by
  rcases Result.bind_eq_ok.mp h with ⟨_, _, h⟩
  rcases Result.bind_eq_ok.mp h with ⟨_, _, h⟩
  cases h
  exact anchors_combine _ _ _ _

theorem anchors_comparison {op : BinaryOp} {left right f : TypedFragment}
    (h : comparison op left right = .ok f) :
    f.query.anchors = left.query.anchors ++ right.query.anchors := by
  unfold comparison at h
  dsimp only at h
  split at h
  · cases h
    simp
  split at h
  · cases h
    simp
  split at h
  · cases h
    simp
  · cases h

theorem anchors_operator {op : BinaryOp} {left right f : TypedFragment}
    (h : operator op left right = .ok f) :
    f.query.anchors = left.query.anchors ++ right.query.anchors := by
  unfold operator at h
  split at h
  · exact anchors_logic h
  · exact anchors_logic h
  · exact anchors_arithmetic h
  · exact anchors_arithmetic h
  · exact anchors_arithmetic h
  · exact anchors_arithmetic h
  · exact anchors_comparison h

theorem anchors_jsonStep {base f : TypedFragment} {key : Typed} {asText : Bool}
    (h : base.jsonStep key asText = .ok f) : f.query.anchors = base.query.anchors := by
  unfold jsonStep at h
  split at h
  · cases h
    simp
  · cases h

theorem sources_of_enumLabel? {target : SqlType} {e : Expr} {f : TypedFragment}
    (h : enumLabel? target e = some f) : e.sources = [] ∧ f.query.anchors = [] := by
  unfold enumLabel? at h
  split at h
  · cases h
    exact ⟨rfl, anchors_ofValue _⟩
  · cases h

end TypedFragment

namespace Compiler

variable {c : Compiler} {sources : List Expr}

/-- A test for NULL leaves out nothing but the NULL constant. -/
theorem nullTest?_cases {op : BinaryOp} {left right subject : Argument} {test : String}
    (h : nullTest? op left right = some (subject, test)) :
    (subject = left ∧ right.expr.sources = []) ∨ (subject = right ∧ left.expr.sources = []) := by
  rw [Reader.nullTest?_eq] at h
  split at h
  · rename_i hright
    cases h
    rw [Bool.and_eq_true] at hright
    exact Or.inl ⟨rfl, Expr.sources_of_isNullConstant hright.2⟩
  · split at h
    · rename_i hleft
      cases h
      rw [Bool.and_eq_true] at hleft
      exact Or.inr ⟨rfl, Expr.sources_of_isNullConstant hleft.2⟩
    · cases h

theorem holds_binary {op : BinaryOp} {left right : Argument} {f : TypedFragment}
    (hleft : c.Carries left) (hright : c.Carries right) (h : binary op left right = .ok f) :
    c.Holds (left.expr.sources ++ right.expr.sources) f.query.anchors := by
  unfold binary at h
  split at h
  · rename_i subject test hnull
    rcases Result.bind_eq_ok.mp h with ⟨g, hg, hf⟩
    cases hf
    rw [TypedFragment.anchors_surround]
    rcases nullTest?_cases hnull with ⟨rfl, hnone⟩ | ⟨rfl, hnone⟩
    · rw [hnone, List.append_nil]
      exact hleft g hg
    · rw [hnone, List.nil_append]
      exact hright g hg
  · rcases Result.bind_eq_ok.mp h with ⟨l, hl, h⟩
    split at h
    · rename_i label hlabel
      rcases TypedFragment.sources_of_enumLabel? hlabel with ⟨hsources, hanchors⟩
      rw [TypedFragment.anchors_operator h, hsources, hanchors, List.append_nil, List.append_nil]
      exact hleft l hl
    · rcases Result.bind_eq_ok.mp h with ⟨k, hk, h⟩
      rw [TypedFragment.anchors_operator h]
      exact (hleft l hl).append (hright k hk)

end Compiler

/-!
## Handlers
-/

/-- What a handler compiles a call to is composed of the receiver and the arguments, each used
exactly once. -/
def MethodHandler.Composes (handler : MethodHandler) : Prop :=
  forall {c : Compiler} {sources : List Expr} {receiver : TypedFragment} {args : List Argument}
    {f : TypedFragment}, c.Holds sources receiver.query.anchors ->
      (forall a, a ∈ args -> c.Carries a) -> handler receiver args = .ok f ->
        c.Holds (sources ++ args.flatMap fun a => a.expr.sources) f.query.anchors

def Accessor.Keeps (accessor : Accessor) : Prop :=
  forall {f g : TypedFragment}, accessor f = .ok g -> g.query.anchors.Perm f.query.anchors

structure CallRegistry.Composes (calls : CallRegistry) : Prop where
  methods : forall entry, entry ∈ calls.methods -> MethodHandler.Composes entry.2
  accessors : forall entry, entry ∈ calls.accessors -> Accessor.Keeps entry.2

namespace CallRegistry

variable {calls : CallRegistry} {kind : TypeKind} {name : String}

theorem Composes.method (h : calls.Composes) {handler : MethodHandler}
    (hmethod : calls.method? kind name = some handler) : handler.Composes := by
  rcases Option.map_eq_some_iff.mp hmethod with ⟨entry, hentry, rfl⟩
  exact h.methods entry (List.mem_of_find?_eq_some hentry)

theorem Composes.accessor (h : calls.Composes) {accessor : Accessor}
    (haccessor : calls.accessor? kind name = some accessor) : accessor.Keeps := by
  rcases Option.map_eq_some_iff.mp haccessor with ⟨entry, hentry, rfl⟩
  exact h.accessors entry (List.mem_of_find?_eq_some hentry)

end CallRegistry

theorem Argument.single_eq_ok {name : String} {args : List Argument} {a : Argument}
    (h : Argument.single name args = .ok a) : args = [a] := by
  unfold Argument.single at h
  split at h
  · cases h
    rfl
  · cases h

namespace Compiler

variable {c : Compiler} {sources : List Expr} {receiver f : TypedFragment} {args : List Argument}

theorem Carries.next {a : Argument} (ha : c.Carries a) (h : a.next = .ok f) :
    c.Holds a.expr.sources f.query.anchors := by
  unfold Argument.next at h
  dsimp only at h
  split at h
  · rename_i v hfold
    cases h
    have hsources := Fold.sources_binaryNode .add a.expr (.constant ⟨.int 1, .integer⟩)
    rw [hfold] at hsources
    have hnone : a.expr.sources = [] := by
      simpa [Expr.sources] using hsources.symm
    rw [hnone, TypedFragment.anchors_ofValue]
    exact .nil
  · rcases Result.bind_eq_ok.mp h with ⟨g, hg, hsum⟩
    rw [TypedFragment.anchors_arithmetic hsum, TypedFragment.anchors_ofValue, List.append_nil]
    exact ha g hg

theorem Holds.textArgument {name : String} (hreceiver : c.Holds sources receiver.query.anchors)
    (hargs : forall a, a ∈ args -> c.Carries a) (h : TextMethod.textArgument name args = .ok f) :
    c.Holds (sources ++ args.flatMap fun a => a.expr.sources)
      (receiver.query.anchors ++ f.query.anchors) := by
  rcases Result.bind_eq_ok.mp h with ⟨a, ha, h⟩
  rcases Result.bind_eq_ok.mp h with ⟨g, hg, h⟩
  have hfg : f = g := by
    split at h <;> cases h <;> rfl
  cases Argument.single_eq_ok ha
  rw [List.flatMap_singleton, hfg]
  exact hreceiver.append (hargs a List.mem_cons_self g hg)

end Compiler

namespace TextMethod

theorem anchors_pattern (receiver : TypedFragment) (op before : String) (argument : TypedFragment)
    (after : String) :
    (pattern receiver op before argument after).query.anchors =
      receiver.query.anchors ++ argument.query.anchors := by
  simp [pattern]

theorem pattern_composes {handler : MethodHandler} {name op before after : String}
    (hhandler : forall receiver args, handler receiver args =
      (textArgument name args).bind fun argument =>
        .ok (pattern receiver op before argument after)) : handler.Composes := by
  intro c sources receiver args f hreceiver hargs h
  rw [hhandler] at h
  rcases Result.bind_eq_ok.mp h with ⟨g, hg, hf⟩
  cases hf
  rw [anchors_pattern]
  exact hreceiver.textArgument hargs hg

theorem substring_composes : MethodHandler.Composes substring := by
  intro c sources receiver args f hreceiver hargs h
  cases args with
  | nil => cases h
  | cons start rest =>
      have hstart := hargs start List.mem_cons_self
      cases rest with
      | nil =>
          rcases Result.bind_eq_ok.mp h with ⟨⟨_, _⟩, hshape, h⟩
          cases hshape
          rcases Result.bind_eq_ok.mp h with ⟨g, hg, hf⟩
          cases hf
          have hposition := hstart.next (Reader.position_eq_ok hg)
          simpa using hreceiver.append hposition
      | cons length rest =>
          have hlength := hargs length (List.mem_cons_of_mem _ List.mem_cons_self)
          cases rest with
          | nil =>
              rcases Result.bind_eq_ok.mp h with ⟨⟨_, _⟩, hshape, h⟩
              cases hshape
              rcases Result.bind_eq_ok.mp h with ⟨g, hg, h⟩
              rcases Result.bind_eq_ok.mp h with ⟨k, hk, hf⟩
              cases hf
              have hposition := hstart.next (Reader.position_eq_ok hg)
              have hcount := hlength k (Reader.position_eq_ok hk)
              have hall := hreceiver.append (hposition.append hcount)
              simpa using hall
          | cons _ _ => cases h

end TextMethod

theorem Property.around_keeps (before after : String) (type : SqlType) :
    Accessor.Keeps (Property.around before after type) := by
  intro f g h
  cases h
  rw [TypedFragment.anchors_surround]

theorem CallRegistry.builtin_composes : CallRegistry.builtin.Composes := by
  constructor
  · intro entry h
    simp only [builtin, List.mem_cons, List.not_mem_nil, or_false] at h
    rcases h with rfl | rfl | rfl | rfl | rfl
    · exact TextMethod.pattern_composes fun _ _ => rfl
    · exact TextMethod.pattern_composes fun _ _ => rfl
    · exact TextMethod.pattern_composes fun _ _ => rfl
    · exact TextMethod.pattern_composes fun _ _ => rfl
    · exact TextMethod.substring_composes
  · intro entry h
    simp only [builtin, List.mem_cons, List.not_mem_nil, or_false] at h
    rcases h with rfl | rfl | rfl | rfl | rfl | rfl | rfl | rfl | rfl | rfl | rfl | rfl
    all_goals exact Property.around_keeps _ _ _

/-!
## Calls
-/

namespace Compiler

variable {c : Compiler} {sources : List Expr} {receiver f : TypedFragment} {args : List Argument}

theorem Holds.containsItem {item : Argument} (hreceiver : c.Holds sources receiver.query.anchors)
    (hitem : c.Carries item) (h : containsItem receiver item = .ok f) :
    c.Holds (sources ++ item.expr.sources) f.query.anchors := by
  rcases Result.bind_eq_ok.mp h with ⟨g, hg, h⟩
  split at h
  · cases h
  split at h
  · cases h
    simpa using hreceiver.append_swap (hitem g hg)
  · cases h

theorem Holds.indexed {index : Argument} (hreceiver : c.Holds sources receiver.query.anchors)
    (hindex : c.Carries index) (h : indexed receiver index = .ok f) :
    c.Holds (sources ++ index.expr.sources) f.query.anchors := by
  unfold Compiler.indexed at h
  split at h
  · rcases Result.bind_eq_ok.mp h with ⟨g, hg, h⟩
    have hposition := hreceiver.append (hindex.next hg)
    split at h
    · cases h
      simpa using hposition
    · cases h
      simpa using hposition
    · cases h
  · rcases Result.bind_eq_ok.mp h with ⟨key, hkey, hf⟩
    cases hf
    simpa using hreceiver.append (hindex key hkey)
  · cases h

theorem Holds.membership {values : Argument} {negated : Bool}
    (hreceiver : c.Holds sources receiver.query.anchors)
    (h : membership receiver values negated = .ok f) :
    c.Holds (sources ++ values.expr.sources) f.query.anchors := by
  unfold Compiler.membership at h
  split at h
  · rename_i hconstant
    dsimp only at h
    rw [hconstant, Expr.sources, List.append_nil]
    split at h
    · split at h
      · cases h
        simpa using hreceiver
      · cases h
    · cases h
      simpa using hreceiver
  · rename_i s hsubquery
    rcases Result.bind_eq_ok.mp h with ⟨set, hset, hf⟩
    cases hf
    have hcontributed : c.contributed (.subquery s) = .ok set.query.anchors := by
      rw [contributed, hset]
      rfl
    rw [hsubquery, Expr.sources]
    simpa using hreceiver.append (.of_contributed hcontributed)
  · cases h

theorem Holds.overlap {values : Argument} (hreceiver : c.Holds sources receiver.query.anchors)
    (hvalues : c.Carries values) (h : overlap receiver values = .ok f) :
    c.Holds (sources ++ values.expr.sources) f.query.anchors := by
  rcases Result.bind_eq_ok.mp h with ⟨g, hg, h⟩
  split at h
  · cases h
    simpa using hreceiver.append (hvalues g hg)
  · cases h

theorem Holds.native {name : String} (hreceiver : c.Holds sources receiver.query.anchors)
    (hargs : forall a, a ∈ args -> c.Carries a)
    (h : native? name receiver args = some (.ok f)) :
    c.Holds (sources ++ args.flatMap fun a => a.expr.sources) f.query.anchors := by
  have hsingle : forall {name : String} {a : Argument}, Argument.single name args = .ok a ->
      c.Carries a ∧ (args.flatMap fun a => a.expr.sources) = a.expr.sources := by
    intro name a ha
    cases Argument.single_eq_ok ha
    exact ⟨hargs a List.mem_cons_self, List.flatMap_singleton _ _⟩
  unfold native? at h
  split at h
  · rcases Result.bind_eq_ok.mp (Option.some.inj h) with ⟨a, ha, h⟩
    rw [(hsingle ha).2]
    exact hreceiver.containsItem (hsingle ha).1 h
  · rcases Result.bind_eq_ok.mp (Option.some.inj h) with ⟨a, ha, h⟩
    rw [(hsingle ha).2]
    exact hreceiver.indexed (hsingle ha).1 h
  · rcases Result.bind_eq_ok.mp (Option.some.inj h) with ⟨a, ha, h⟩
    rw [(hsingle ha).2]
    exact hreceiver.membership h
  · rcases Result.bind_eq_ok.mp (Option.some.inj h) with ⟨a, ha, h⟩
    rw [(hsingle ha).2]
    exact hreceiver.membership h
  · rcases Result.bind_eq_ok.mp (Option.some.inj h) with ⟨a, ha, h⟩
    rw [(hsingle ha).2]
    exact hreceiver.overlap (hsingle ha).1 h
  · cases h

theorem anchors_functionCall {function : SqlFunction} {args : List TypedFragment}
    (h : functionCall function args = .ok f) :
    f.query.anchors = args.flatMap fun arg => arg.query.anchors := by
  unfold functionCall at h
  dsimp only at h
  split at h
  · cases h
    simp [List.flatMap_map]
  · cases h

theorem holds_compiled (hargs : forall a, a ∈ args -> c.Carries a) {fs : List TypedFragment}
    (h : args.mapM (·.compiled) = .ok fs) :
    c.Holds (args.flatMap fun a => a.expr.sources) (fs.flatMap fun f => f.query.anchors) := by
  induction args generalizing fs with
  | nil =>
      cases h
      exact .nil
  | cons a rest ih =>
      rw [List.mapM_cons] at h
      rcases Result.bind_eq_ok.mp h with ⟨f, hf, h⟩
      rcases Result.bind_eq_ok.mp h with ⟨more, hmore, hfs⟩
      cases hfs
      have hrest := ih (fun b hb => hargs b (List.mem_cons_of_mem _ hb)) hmore
      rw [List.flatMap_cons, List.flatMap_cons]
      exact (hargs a List.mem_cons_self f hf).append hrest

theorem holds_sqlFunction {name : String} {receiver : Option TypedFragment}
    (hreceiver : c.Holds sources (receiver.toList.flatMap fun r => r.query.anchors))
    (hargs : forall a, a ∈ args -> c.Carries a) (h : sqlFunction name receiver args = .ok f) :
    c.Holds (sources ++ args.flatMap fun a => a.expr.sources) f.query.anchors := by
  unfold sqlFunction at h
  split at h
  · cases h
  · rcases Result.bind_eq_ok.mp h with ⟨fs, hfs, hcall⟩
    rw [anchors_functionCall hcall, List.flatMap_append]
    exact hreceiver.append (holds_compiled hargs hfs)

theorem holds_methodCall {calls : CallRegistry} (hcalls : calls.Composes) {name : String}
    (hreceiver : c.Holds sources receiver.query.anchors)
    (hargs : forall a, a ∈ args -> c.Carries a)
    (h : methodCall calls name receiver args = .ok f) :
    c.Holds (sources ++ args.flatMap fun a => a.expr.sources) f.query.anchors := by
  unfold methodCall at h
  dsimp only at h
  split at h
  · rename_i handler hmethod
    exact hcalls.method hmethod hreceiver hargs h
  · split at h
    · rename_i accessor haccessor
      split at haccessor
      · rename_i hempty
        rw [List.isEmpty_iff.mp hempty, List.flatMap_nil, List.append_nil]
        exact hreceiver.perm (hcalls.accessor haccessor h)
      · cases haccessor
    · split at h
      · rename_i result hnative
        rw [h] at hnative
        exact hreceiver.native hargs hnative
      · split at h
        · have hfirst : c.Holds sources
              ((some receiver).toList.flatMap fun r => r.query.anchors) := by
            simpa using hreceiver
          exact holds_sqlFunction hfirst hargs h
        · cases h

/-!
## Paths
-/

theorem anchors_step {calls : CallRegistry} (hcalls : calls.Composes) {p q : ResolvedPath}
    {step : PathStep} (h : p.step calls step = .ok q) :
    q.expr.query.anchors.Perm p.expr.query.anchors := by
  cases step with
  | table slot => cases h
  | column name => cases h
  | key k asText =>
      rcases Result.bind_eq_ok.mp h with ⟨expr, hexpr, hq⟩
      cases hq
      exact .of_eq (TypedFragment.anchors_jsonStep hexpr)
  | index n asText =>
      rcases Result.bind_eq_ok.mp h with ⟨expr, hexpr, hq⟩
      cases hq
      exact .of_eq (TypedFragment.anchors_jsonStep hexpr)
  | derived name =>
      rw [ResolvedPath.step] at h
      split at h
      · cases h
      · rename_i accessor haccessor
        rcases Result.bind_eq_ok.mp h with ⟨expr, hexpr, hq⟩
        cases hq
        exact hcalls.accessor haccessor hexpr

theorem anchors_steps {calls : CallRegistry} (hcalls : calls.Composes) {steps : List PathStep}
    {p q : ResolvedPath} (h : steps.foldlM (ResolvedPath.step calls) p = .ok q) :
    q.expr.query.anchors.Perm p.expr.query.anchors := by
  induction steps generalizing p with
  | nil =>
      cases h
      exact .refl _
  | cons step rest ih =>
      rw [List.foldlM_cons] at h
      rcases Result.bind_eq_ok.mp h with ⟨next, hnext, hrest⟩
      exact (ih hrest).trans (anchors_step hcalls hnext)

theorem holds_path (hcalls : c.calls.Composes) {path : List PathStep} {q : ResolvedPath}
    (h : c.resolve path = .ok q) : c.Holds [.field path] q.expr.query.anchors := by
  rcases resolvePath_cases h with ⟨slot, column, start, steps, hstart, hexpr, hsteps⟩
  have hcontributed : c.contributed (.field path) = .ok [.column slot column.name] := by
    rw [contributed, columnOf, h, hstart]
    rfl
  have hanchors : start.expr.query.anchors = [.column slot column.name] := by
    rw [hexpr]
    simp
  exact (Holds.of_contributed hcontributed).perm (hanchors ▸ anchors_steps hcalls hsteps)

/-!
## Expressions
-/

theorem sources_arguments (c : Compiler) (es : List Expr) :
    ((c.arguments es).flatMap fun a => a.expr.sources) = Expr.allSources es := by
  induction es with
  | nil => simp [arguments, Expr.allSources]
  | cons e rest ih => rw [arguments, List.flatMap_cons, ih, Expr.allSources]

mutual

theorem holds_node (hcalls : c.calls.Composes) (e : Expr) {f : TypedFragment}
    (h : c.node e = .ok f) : c.Holds e.sources f.query.anchors := by
  cases e with
  | field path =>
      rw [node] at h
      rcases Result.bind_eq_ok.mp h with ⟨q, hq, hf⟩
      cases hf
      exact holds_path hcalls hq
  | constant v =>
      rw [node] at h
      cases h
      rw [TypedFragment.anchors_ofValue]
      exact .nil
  | unary op operand =>
      rw [node] at h
      rcases Result.bind_eq_ok.mp h with ⟨g, hg, hf⟩
      rw [TypedFragment.anchors_unary hf]
      exact holds_node hcalls operand hg
  | binary op left right =>
      rw [node] at h
      have hleft : c.Carries ⟨left, c.node left⟩ := fun _ => holds_node hcalls left
      have hright : c.Carries ⟨right, c.node right⟩ := fun _ => holds_node hcalls right
      exact holds_binary hleft hright h
  | method name receiver args onServer =>
      rw [node] at h
      rcases Result.bind_eq_ok.mp h with ⟨g, hg, hcall⟩
      have hreceiver := holds_node hcalls receiver hg
      rw [Expr.sources, <- c.sources_arguments args]
      exact holds_methodCall hcalls hreceiver (carries_arguments hcalls args) hcall
  | function name args =>
      rw [node] at h
      rw [Expr.sources, <- c.sources_arguments args]
      exact holds_sqlFunction .nil (carries_arguments hcalls args) h
  | subquery s =>
      rw [node] at h
      refine .of_contributed ?_
      rw [contributed, h]
      rfl
  | compiled fragment =>
      rw [node] at h
      cases h
      exact .of_contributed rfl
  | invalid error =>
      rw [node] at h
      cases h

theorem carries_arguments (hcalls : c.calls.Composes) (es : List Expr) :
    forall a, a ∈ c.arguments es -> c.Carries a := by
  intro a ha
  cases es with
  | nil =>
      rw [arguments] at ha
      cases ha
  | cons e rest =>
      rw [arguments] at ha
      cases ha with
      | head => exact fun _ => holds_node hcalls e
      | tail _ ha => exact carries_arguments hcalls rest a ha

end

theorem holds_compile (hcalls : c.calls.Composes) {e : Expr} (h : c.compile e = .ok f) :
    c.Holds e.sources f.query.anchors := by
  rw [<- Fold.sources_fold e]
  exact holds_node hcalls (fold e) h

/-!
## Plain expressions

Where all sources are paths, what an expression holds is one column for each path.
-/

theorem Holds.references {sources : List Expr} {anchors : List Part}
    (h : c.Holds sources anchors)
    (hplain : forall source, source ∈ sources -> source.IsPathOrError) :
    (forall error, .invalid error ∉ sources) ∧
      exists refs, (sources.filterMap Expr.path?).mapM c.columnOf = .ok refs ∧
        anchors.Perm (refs.map fun ref => .column ref.1 ref.2) := by
  constructor
  · intro error hmem
    rcases h.exists_contributed hmem with ⟨parts, hparts⟩
    cases hparts
  · rcases h with ⟨parts, hparts, hanchors⟩
    suffices hrefs : exists refs, (sources.filterMap Expr.path?).mapM c.columnOf = .ok refs ∧
        parts.flatten = refs.map fun ref => .column ref.1 ref.2 by
      rcases hrefs with ⟨refs, hrefs, hparts⟩
      exact ⟨refs, hrefs, hparts ▸ hanchors⟩
    clear hanchors
    induction sources generalizing parts with
    | nil =>
        cases hparts
        exact ⟨[], rfl, rfl⟩
    | cons source rest ih =>
        rw [List.mapM_cons] at hparts
        rcases Result.bind_eq_ok.mp hparts with ⟨first, hfirst, h⟩
        rcases Result.bind_eq_ok.mp h with ⟨more, hmore, hparts⟩
        cases hparts
        rcases ih (fun s hs => hplain s (List.mem_cons_of_mem _ hs)) more hmore with
          ⟨refs, hrefs, hflat⟩
        rcases hplain source List.mem_cons_self with ⟨path, rfl⟩ | ⟨error, rfl⟩
        · rcases Result.bind_eq_ok.mp hfirst with ⟨⟨slot, name⟩, hcolumn, hpart⟩
          cases hpart
          have hpath : [path].mapM c.columnOf = .ok [(slot, name)] :=
            Result.mapM_eq_ok.mpr (.cons hcolumn .nil)
          refine ⟨(slot, name) :: refs, Result.mapM_append hpath hrefs, ?_⟩
          · rw [List.flatten_cons, hflat]
            rfl
        · cases hfirst

/-- A plain expression that compiles keeps no error, and its fragment mentions exactly the columns
that its paths resolve to, each as often as a path does. -/
theorem columns_of_compile (hcalls : c.calls.Composes) {e : Expr} (hplain : e.isPlain = true)
    (h : c.compile e = .ok f) :
    (forall error, .invalid error ∉ e.sources) ∧
      exists refs, e.paths.mapM c.columnOf = .ok refs ∧ f.query.columns.Perm refs := by
  rcases (holds_compile hcalls h).references
    (fun _ => Expr.isPathOrError_of_isPlain hplain) with ⟨hvalid, refs, hrefs, hanchors⟩
  exact ⟨hvalid, refs, hrefs, Fragment.columns_perm hanchors⟩

end Compiler

end TypedQuery
