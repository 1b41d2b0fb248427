import TypedQuery.Proofs.Expr.AsWritten

/-!
# Registered calls

A call is answered by what the registry holds for the kind of its receiver and its name, except
that a few calls on constant texts are evaluated before, whatever the registry holds.  Where the
entries are the built-in ones, both ways give a fragment of the same type.
-/

namespace TypedQuery

namespace CallRegistry

/-- What the registry answers: its method, or its accessor for a call without arguments. -/
def answer? (calls : CallRegistry) (name : String) (receiver : TypedFragment)
    (args : List Argument) : Option (Result TypedFragment) :=
  match calls.method? receiver.type.kind name with
  | some handler => some (handler receiver args)
  | none =>
      (if args.isEmpty then calls.accessor? receiver.type.kind name else none).map
        fun accessor => accessor receiver

def SameEntries (a b : CallRegistry) (kind : TypeKind) (name : String) : Prop :=
  a.method? kind name = b.method? kind name ∧ a.accessor? kind name = b.accessor? kind name

theorem SameEntries.answer?_eq {a b : CallRegistry} {name : String} {receiver : TypedFragment}
    (h : a.SameEntries b receiver.type.kind name) (args : List Argument) :
    a.answer? name receiver args = b.answer? name receiver args := by
  rw [answer?, answer?, h.1, h.2]

/-- What the registry answers comes before everything else. -/
theorem methodCall_of_answer? {calls : CallRegistry} {name : String} {receiver : TypedFragment}
    {args : List Argument} {result : Result TypedFragment}
    (h : calls.answer? name receiver args = some result) :
    Compiler.methodCall calls name receiver args = result := by
  unfold answer? at h
  unfold Compiler.methodCall
  dsimp only
  cases hmethod : calls.method? receiver.type.kind name with
  | some handler =>
      rw [hmethod] at h
      exact Option.some.inj h
  | none =>
      rw [hmethod] at h
      rcases Option.map_eq_some_iff.mp h with ⟨accessor, haccessor, hresult⟩
      rw [haccessor]
      exact hresult

/-!
## The built-in entries

The name of a built-in entry decides the type of its result.
-/

def methodType (name : String) : SqlType := if name = "substring" then .text else .boolean

def accessorType (name : String) : SqlType :=
  if name = "date" then .date
  else if name = "to_upper" ∨ name = "to_lower" then .text
  else .integer

theorem mem_of_find? {α : Type} {entries : List ((TypeKind × String) × α)} {kind : TypeKind}
    {name : String} {value : α}
    (h : (entries.find? (·.1 = (kind, name))).map (·.2) = some value) :
    ((kind, name), value) ∈ entries := by
  rcases Option.map_eq_some_iff.mp h with ⟨entry, hentry, rfl⟩
  have hfound := List.find?_some hentry
  have hkey : entry.1 = (kind, name) := of_decide_eq_true hfound
  exact hkey ▸ List.mem_of_find?_eq_some hentry

theorem pattern_type {handler : MethodHandler} {name op before after : String}
    (hhandler : forall receiver args, handler receiver args =
      (TextMethod.textArgument name args).bind fun argument =>
        .ok (TextMethod.pattern receiver op before argument after))
    {receiver f : TypedFragment} {args : List Argument} (h : handler receiver args = .ok f) :
    f.type = .boolean := by
  rw [hhandler] at h
  rcases Result.bind_eq_ok.mp h with ⟨_, -, hf⟩
  cases hf
  rfl

theorem substring_type {receiver f : TypedFragment} {args : List Argument}
    (h : TextMethod.substring receiver args = .ok f) : f.type = .text := by
  unfold TextMethod.substring at h
  dsimp only at h
  split at h
  · rcases Result.bind_eq_ok.mp h with ⟨⟨_, _⟩, hshape, h⟩
    cases hshape
    rcases Result.bind_eq_ok.mp h with ⟨_, -, hf⟩
    cases hf
    rfl
  · rcases Result.bind_eq_ok.mp h with ⟨⟨_, _⟩, hshape, h⟩
    cases hshape
    rcases Result.bind_eq_ok.mp h with ⟨_, -, h⟩
    rcases Result.bind_eq_ok.mp h with ⟨_, -, hf⟩
    cases hf
    rfl
  · cases h

theorem builtin_method_type {kind : TypeKind} {name : String} {handler : MethodHandler}
    (hmethod : builtin.method? kind name = some handler) {receiver f : TypedFragment}
    {args : List Argument} (h : handler receiver args = .ok f) : f.type = methodType name := by
  have hentry := mem_of_find? hmethod
  simp only [builtin, List.mem_cons, Prod.mk.injEq, List.not_mem_nil, or_false] at hentry
  rcases hentry with ⟨⟨-, rfl⟩, rfl⟩ | ⟨⟨-, rfl⟩, rfl⟩ | ⟨⟨-, rfl⟩, rfl⟩ | ⟨⟨-, rfl⟩, rfl⟩ |
    ⟨⟨-, rfl⟩, rfl⟩
  · exact pattern_type (fun _ _ => rfl) h
  · exact pattern_type (fun _ _ => rfl) h
  · exact pattern_type (fun _ _ => rfl) h
  · exact pattern_type (fun _ _ => rfl) h
  · exact substring_type h

theorem builtin_accessor_type {kind : TypeKind} {name : String} {accessor : Accessor}
    (haccessor : builtin.accessor? kind name = some accessor) (receiver : TypedFragment) :
    exists f, accessor receiver = .ok f ∧ f.type = accessorType name := by
  have hentry := mem_of_find? haccessor
  simp only [builtin, List.mem_cons, Prod.mk.injEq, List.not_mem_nil, or_false] at hentry
  rcases hentry with ⟨⟨-, rfl⟩, rfl⟩ | ⟨⟨-, rfl⟩, rfl⟩ | ⟨⟨-, rfl⟩, rfl⟩ | ⟨⟨-, rfl⟩, rfl⟩ |
    ⟨⟨-, rfl⟩, rfl⟩ | ⟨⟨-, rfl⟩, rfl⟩ | ⟨⟨-, rfl⟩, rfl⟩ | ⟨⟨-, rfl⟩, rfl⟩ | ⟨⟨-, rfl⟩, rfl⟩ |
    ⟨⟨-, rfl⟩, rfl⟩ | ⟨⟨-, rfl⟩, rfl⟩ | ⟨⟨-, rfl⟩, rfl⟩
  all_goals exact ⟨_, rfl, rfl⟩

theorem builtin_answer_type {name : String} {receiver f : TypedFragment} {args : List Argument}
    (h : builtin.answer? name receiver args = some (.ok f)) :
    ((builtin.method? receiver.type.kind name).isSome = true ∧ f.type = methodType name) ∨
      (args = [] ∧ builtin.method? receiver.type.kind name = none ∧
        f.type = accessorType name) := by
  unfold answer? at h
  split at h
  · rename_i handler hmethod
    refine Or.inl ⟨by rw [hmethod]; rfl, ?_⟩
    exact builtin_method_type hmethod (Option.some.inj h)
  · rename_i hmethod
    rcases Option.map_eq_some_iff.mp h with ⟨accessor, haccessor, hresult⟩
    split at haccessor
    · rename_i hempty
      rcases builtin_accessor_type haccessor receiver with ⟨g, hg, htype⟩
      cases hg.symm.trans hresult
      exact Or.inr ⟨List.isEmpty_iff.mp hempty, hmethod, htype⟩
    · cases haccessor

theorem builtin_method?_property {name : String}
    (h : name = "to_upper" ∨ name = "to_lower" ∨ name = "length") (kind : TypeKind) :
    builtin.method? kind name = none := by
  rcases h with rfl | rfl | rfl <;> cases kind <;> rfl

/-- A call that is evaluated has a value of the type that the built-in entry of its name gives. -/
theorem builtin_answer_type_of_onText? {name subject : String} {exprs : List Expr} {v : Typed}
    (hvalue : Fold.onText? name subject exprs = some v) {receiver f : TypedFragment}
    {args : List Argument} (hlength : args.length = exprs.length)
    (h : builtin.answer? name receiver args = some (.ok f)) : f.type = v.type := by
  rcases builtin_answer_type h with ⟨hmethod, htype⟩ | ⟨rfl, -, htype⟩
  · rcases Fold.onText?_cases hvalue with
      ⟨hname, -⟩ | ⟨hname, -⟩ | ⟨hname, _, _, b, -, -, rfl⟩
    · rw [builtin_method?_property (hname.imp_right Or.inl)] at hmethod
      cases hmethod
    · rw [builtin_method?_property (Or.inr (Or.inr hname))] at hmethod
      cases hmethod
    · rcases hname with rfl | rfl | rfl
      all_goals exact htype
  · rcases Fold.onText?_cases hvalue with
      ⟨hname, -, text, rfl⟩ | ⟨rfl, -, n, rfl⟩ | ⟨-, _, _, _, rfl, -, -⟩
    · rcases hname with rfl | rfl
      all_goals exact htype
    · exact htype
    · cases hlength

end CallRegistry

theorem resolvePath_append {scope : Scope} {calls : CallRegistry} {path : List PathStep}
    {q : ResolvedPath} (h : resolvePath scope calls path = .ok q) (more : List PathStep) :
    resolvePath scope calls (path ++ more) = more.foldlM (ResolvedPath.step calls) q := by
  rcases Result.bind_eq_ok.mp h with ⟨⟨slot, rest⟩, hslot, h⟩
  rcases Result.bind_eq_ok.mp h with ⟨t, htable, h⟩
  rcases Result.bind_eq_ok.mp h with ⟨⟨start, steps⟩, hstart, hsteps⟩
  have hcolumn : columnOfPath slot t (rest ++ more) = .ok (start, steps ++ more) := by
    unfold columnOfPath at hstart
    split at hstart
    · rcases Result.bind_eq_ok.mp hstart with ⟨⟨index, column⟩, hrequire, hpure⟩
      cases hpure
      rw [List.cons_append, columnOfPath, hrequire]
      rfl
    · cases hstart
    · cases hstart
  have hbegin : startOfPath scope (path ++ more) = .ok (slot, rest ++ more) := by
    cases path with
    | nil =>
        rcases Result.bind_eq_ok.mp hslot with ⟨_, -, hpure⟩
        cases hpure
        cases hstart
    | cons first path =>
        cases first with
        | table slot =>
            cases hslot
            rfl
        | _ =>
            rcases Result.bind_eq_ok.mp hslot with ⟨_, hroot, hpure⟩
            cases hpure
            rw [List.cons_append, startOfPath, hroot]
            · rfl
            · exact fun _ _ h => nomatch h
  rw [resolvePath, hbegin, Result.ok_bind]
  dsimp only at hsteps ⊢
  rw [htable, Result.ok_bind, hcolumn, Result.ok_bind, List.foldlM_append, hsteps, Result.ok_bind]

namespace Fold

/-- The value of a call that is evaluated before it is compiled. -/
def ofCall? (name : String) (receiver : Expr) (args : List Expr) : Option Typed :=
  (text? (fold receiver)).bind fun subject => onText? name subject (foldAll args)

end Fold

namespace Compiler

theorem length_arguments (c : Compiler) (es : List Expr) :
    (c.arguments es).length = es.length := by
  induction es with
  | nil => simp [arguments]
  | cons e rest ih => rw [arguments, List.length_cons, ih, List.length_cons]

theorem compile_field (c : Compiler) (path : List PathStep) :
    c.compile (.field path) = do return (<- resolvePath c.scope c.calls path).expr := by
  rw [compile, fold, node]
  all_goals simp

theorem compile_method {c : Compiler} {receiver : Expr} {r : TypedFragment}
    (hreceiver : c.compile receiver = .ok r) (name : String) (args : List Expr) :
    c.compile (.method name receiver args false) =
      match Fold.ofCall? name receiver args with
      | some v => .ok (.ofValue v)
      | none => methodCall c.calls name r (c.arguments (Fold.foldAll args)) := by
  have hfold : fold (.method name receiver args false) =
      match Fold.ofCall? name receiver args with
      | some v => .constant v
      | none => .method name (fold receiver) (Fold.foldAll args) false := by
    rw [fold, Fold.methodNode, if_neg Bool.false_ne_true]
    rfl
  rw [compile, hfold]
  cases Fold.ofCall? name receiver args with
  | some v =>
      dsimp only
      rw [node]
  | none =>
      dsimp only
      rw [node, <- compile, hreceiver, Result.ok_bind]

theorem compile_derived_field {c : Compiler} {path : List PathStep} {r : TypedFragment}
    (hpath : c.compile (.field path) = .ok r) (name : String) :
    c.compile ((Expr.field path).derived name) =
      match c.calls.accessor? r.type.kind name with
      | some accessor => accessor r
      | none => .error (.compile (.noProperty name r.type)) := by
  rw [compile_field] at hpath
  rcases Result.bind_eq_ok.mp hpath with ⟨q, hq, hr⟩
  cases hr
  rw [Expr.derived, compile_field, resolvePath_append hq, List.foldlM_cons, ResolvedPath.step]
  cases c.calls.accessor? q.expr.type.kind name with
  | some accessor =>
      dsimp only
      cases accessor q.expr <;> rfl
  | none => rfl

theorem compile_derived {c : Compiler} {e : Expr} {r : TypedFragment} (he : c.compile e = .ok r)
    {name : String} {accessor : Accessor} (hmethod : c.calls.method? r.type.kind name = none)
    (haccessor : c.calls.accessor? r.type.kind name = some accessor)
    (hcall : Fold.ofCall? name e [] = none) : c.compile (e.derived name) = accessor r := by
  have hanswer : c.calls.answer? name r [] = some (accessor r) := by
    rw [CallRegistry.answer?, hmethod]
    exact congrArg (Option.map _) haccessor
  cases e with
  | field path => rw [compile_derived_field he, haccessor]
  | _ =>
      rw [Expr.derived, compile_method he, hcall, Fold.foldAll, arguments]
      · exact CallRegistry.methodCall_of_answer? hanswer
      all_goals simp

/-- A call comes to what the registry answers exactly when it is not evaluated before, or its value
is the answer.  What is evaluated is its value whatever the registry holds, and has the type of the
answer if the entries are the built-in ones.  A property of a column path asks for the accessor of
the registry alone; on anything else it is a call. -/
theorem compile_call_eq_registered_iff {c : Compiler} {receiver : Expr} {r : TypedFragment}
    (hreceiver : c.compile receiver = .ok r) (name : String) :
    (forall args result,
      c.calls.answer? name r (c.arguments (Fold.foldAll args)) = some result ->
        (c.compile (.method name receiver args false) = result <->
          forall v, Fold.ofCall? name receiver args = some v -> result = .ok (.ofValue v)) ∧
        (forall v, Fold.ofCall? name receiver args = some v ->
          c.compile (.method name receiver args false) = .ok (.ofValue v) ∧
          (c.calls.SameEntries .builtin r.type.kind name ->
            forall f, result = .ok f -> f.type = v.type))) ∧
    (forall path, receiver = .field path ->
      c.compile (receiver.derived name) =
        match c.calls.accessor? r.type.kind name with
        | some accessor => accessor r
        | none => .error (.compile (.noProperty name r.type))) ∧
    ((forall path, receiver ≠ .field path) ->
      receiver.derived name = .method name receiver [] false) := by
  refine ⟨?_, ?_, ?_⟩
  · intro args result hanswer
    have hcompile := compile_method hreceiver name args
    cases hcall : Fold.ofCall? name receiver args with
    | none =>
        rw [hcall] at hcompile
        refine ⟨⟨fun _ v hv => (nomatch hv), fun _ => ?_⟩, fun v hv => (nomatch hv)⟩
        exact hcompile.trans (CallRegistry.methodCall_of_answer? hanswer)
    | some v =>
        rw [hcall] at hcompile
        constructor
        · constructor
          · rintro h v ⟨⟩
            exact h.symm.trans hcompile
          · exact fun h => hcompile.trans (h v rfl).symm
        · rintro v ⟨⟩
          refine ⟨hcompile, ?_⟩
          rintro hsame f rfl
          rcases Option.bind_eq_some_iff.mp hcall with ⟨subject, -, hvalue⟩
          rw [hsame.answer?_eq] at hanswer
          exact CallRegistry.builtin_answer_type_of_onText? hvalue (c.length_arguments _) hanswer
  · rintro path rfl
    exact compile_derived_field hreceiver name
  · intro hpath
    cases receiver with
    | field path => exact absurd rfl (hpath path)
    | _ => rfl

/-- Notes with a title, and a registry in which texts have a method of their own. -/
def noteCompiler : Compiler where
  scope := .ofTable ⟨"Note", "note", none, [{ field := "title", name := "title", type := .text }]⟩
  calls := CallRegistry.builtin.registerMethod .string "to_upper" fun receiver _ =>
    .ok (TypedFragment.surround "initcap(" receiver ")" .text)

def titleText : Expr := .unary (.cast .text) (.col "title")

theorem cast_title_upper_eq_registered :
    noteCompiler.compile (.method "to_upper" titleText [] false) =
      .ok ⟨⟨[.text "initcap(", .nested [.text "(", .nested [.column .root "title"],
        .text ")::text"], .text ")"]⟩, .text⟩ := by
  have hreceiver : noteCompiler.compile titleText = .ok ⟨⟨[.text "(",
      .nested [.column .root "title"], .text ")::text"]⟩, .text⟩ := rfl
  rcases compile_call_eq_registered_iff hreceiver "to_upper" with ⟨hcall, -, -⟩
  exact (hcall [] _ rfl).1.mpr fun v hv => nomatch hv

/-- The method that takes the place of the built-in one is not asked for a constant text. -/
theorem replaced_upper_not_asked :
    exists r f : TypedFragment,
      noteCompiler.compile (.constant ⟨.text "abc", .text⟩) = .ok r ∧
      noteCompiler.calls.answer? "to_upper" r [] = some (.ok f) ∧
      f.query.renderSimple = "initcap('abc')" ∧
      exists g : TypedFragment,
        noteCompiler.compile (.method "to_upper" (.constant ⟨.text "abc", .text⟩) [] false) =
          .ok g ∧
        g.query.renderSimple = "'ABC'" ∧ g ≠ f := by
  refine ⟨_, _, rfl, rfl, by decide +kernel, _, rfl, by decide +kernel, ?_⟩
  intro h
  have hparts := congrArg (fun f : TypedFragment => f.query.parts.length) h
  exact absurd hparts (by decide)

end Compiler
end TypedQuery
