import Mathlib.Data.List.Forall2
import TypedQuery.Proofs.Expr.Registered
import TypedQuery.Proofs.Expr.Typing

/-!
# Types follow from types

What an operator, a call or a function compiles to has a type that follows from the types of what it
is applied to.  Of the operands themselves only three things count beside: whether one is the NULL
constant, whether it is a set, and whether it is a text constant next to an enum.
-/

namespace TypedQuery

theorem typeOf?_bind_congr {x y : Result TypedFragment}
    {k k' : TypedFragment -> Result TypedFragment} (h : typeOf? x = typeOf? y)
    (hk : forall f g, f.type = g.type -> typeOf? (k f) = typeOf? (k' g)) :
    typeOf? (x >>= k) = typeOf? (y >>= k') := by
  cases x with
  | error e =>
      cases y with
      | error e' => rfl
      | ok g => cases h
  | ok f =>
      cases y with
      | error e' => cases h
      | ok g => exact hk f g (Option.some.inj h)

/-- Two arguments that no operator tells apart by the types of the results. -/
structure Argument.Alike (a b : Argument) : Prop where
  null : a.expr.isNullConstant = b.expr.isNullConstant
  set : a.expr.isSet = true ∨ b.expr.isSet = true -> a.expr = b.expr
  type : typeOf? a.compiled = typeOf? b.compiled

theorem Argument.Alike.refl (a : Argument) : a.Alike a := ⟨rfl, fun _ => rfl, rfl⟩

theorem Argument.alike_self (args : List Argument) : List.Forall₂ Argument.Alike args args :=
  List.forall₂_same.mpr fun a _ => .refl a

/-!
## Binary operators
-/

/-- The type of a right operand, which is a label if it is a text constant next to an enum. -/
def Argument.typeBeside? (right : Argument) (left : SqlType) : Option SqlType :=
  if left.isEnum && (Fold.text? right.expr).isSome then some left else typeOf? right.compiled

theorem Argument.typeBeside?_label {right : Argument} {left : SqlType} (henum : left.isEnum = true)
    {text : String} (htext : Fold.text? right.expr = some text) :
    right.typeBeside? left = some left := by
  rw [typeBeside?, henum, htext]
  rfl

theorem Argument.typeBeside?_other {right : Argument} {left : SqlType}
    (h : left.isEnum = false ∨ Fold.text? right.expr = none) :
    right.typeBeside? left = typeOf? right.compiled := by
  rw [typeBeside?]
  rcases h with henum | htext
  · rw [henum]
    rfl
  · rw [htext]
    cases left.isEnum <;> rfl

theorem TypedFragment.enumLabel?_cases (target : SqlType) (e : Expr) :
    (target.isEnum && (Fold.text? e).isSome) = true ∧
        (exists v : Typed, enumLabel? target e = some (.ofValue v) ∧ v.type = target) ∨
      (target.isEnum && (Fold.text? e).isSome) = false ∧ enumLabel? target e = none := by
  cases target with
  | enum labels =>
      cases e with
      | constant v =>
          rcases v with ⟨value, type⟩
          cases value with
          | text label => exact Or.inl ⟨rfl, _, rfl, rfl⟩
          | _ => exact Or.inr ⟨rfl, rfl⟩
      | _ => exact Or.inr ⟨rfl, rfl⟩
  | _ => exact Or.inr ⟨rfl, rfl⟩

namespace Compiler

variable {op : BinaryOp} {l l' r r' : Argument}

theorem nullTest?_eq_none (hl : l.expr.isNullConstant = false)
    (hr : r.expr.isNullConstant = false) : nullTest? op l r = none := by
  cases op <;> simp [nullTest?, hl, hr]

theorem nullTest?_alike (op : BinaryOp) (hl : l.Alike l') (hr : r.Alike r') :
    (nullTest? op l r = none ∧ nullTest? op l' r' = none) ∨
      exists subject subject' test, nullTest? op l r = some (subject, test) ∧
        nullTest? op l' r' = some (subject', test) ∧ subject.Alike subject' := by
  unfold nullTest?
  rw [hl.null, hr.null]
  cases op with
  | eq =>
      cases r'.expr.isNullConstant with
      | true => exact Or.inr ⟨l, l', _, rfl, rfl, hl⟩
      | false =>
          cases l'.expr.isNullConstant with
          | true => exact Or.inr ⟨r, r', _, rfl, rfl, hr⟩
          | false => exact Or.inl ⟨rfl, rfl⟩
  | ne =>
      cases r'.expr.isNullConstant with
      | true => exact Or.inr ⟨l, l', _, rfl, rfl, hl⟩
      | false =>
          cases l'.expr.isNullConstant with
          | true => exact Or.inr ⟨r, r', _, rfl, rfl, hr⟩
          | false => exact Or.inl ⟨rfl, rfl⟩
  | _ => exact Or.inl ⟨rfl, rfl⟩

theorem typeOf?_binary (h : nullTest? op l r = none) :
    typeOf? (binary op l r) =
      (typeOf? l.compiled).bind fun left => (r.typeBeside? left).bind (op.result? left) := by
  unfold binary
  rw [h]
  refine typeOf?_bind fun f => ?_
  rcases TypedFragment.enumLabel?_cases f.type r.expr with ⟨hlabel, v, hv, htype⟩ | ⟨hlabel, hv⟩
  · rw [Argument.typeBeside?, if_pos hlabel, hv]
    exact (TypedFragment.typeOf?_operator op f _).trans (by rw [<- htype]; rfl)
  · rw [Argument.typeBeside?, hlabel, hv]
    exact typeOf?_bind fun g => TypedFragment.typeOf?_operator op f g

theorem typeOf?_binary_congr (hl : l.Alike l') (hr : r.Alike r')
    (hbeside : forall left, typeOf? l'.compiled = some left ->
      (r.typeBeside? left).bind (op.result? left) = (r'.typeBeside? left).bind (op.result? left)) :
    typeOf? (binary op l r) = typeOf? (binary op l' r') := by
  rcases nullTest?_alike op hl hr with ⟨hnull, hnull'⟩ | ⟨s, s', test, hs, hs', halike⟩
  · rw [typeOf?_binary hnull, typeOf?_binary hnull', hl.type]
    cases hleft : typeOf? l'.compiled with
    | none => rfl
    | some left => exact hbeside left hleft
  · unfold binary
    rw [hs, hs']
    exact typeOf?_bind_congr halike.type fun _ _ _ => rfl

/-!
## Methods of every receiver
-/

variable {receiver receiver' : TypedFragment} {a a' : Argument} {args args' : List Argument}

theorem typeOf?_containsItem (hreceiver : receiver.type = receiver'.type) (ha : a.Alike a') :
    typeOf? (containsItem receiver a) = typeOf? (containsItem receiver' a') := by
  refine typeOf?_bind_congr ha.type fun f g hfg => ?_
  rw [hreceiver, hfg]
  cases receiver'.type.item? with
  | none => rfl
  | some element =>
      dsimp only
      split
      · rfl
      · rfl

theorem typeOf?_indexed (hreceiver : receiver.type = receiver'.type) (ha : a.Alike a')
    (hposition : receiver.type.isArray = true -> a = a') :
    typeOf? (indexed receiver a) = typeOf? (indexed receiver' a') := by
  unfold indexed
  rw [<- hreceiver]
  cases htype : receiver.type with
  | array item =>
      rw [hposition (congrArg SqlType.isArray htype)]
      refine typeOf?_bind_congr rfl fun f g hfg => ?_
      rw [hfg]
      cases g.type <;> rfl
  | json shape => exact typeOf?_bind_congr ha.type fun _ _ _ => rfl
  | _ => rfl

theorem membership_of_not_isSet (h : a.expr.isSet = false) (negated : Bool) :
    membership receiver a negated = .error (.compile .memberValues) := by
  unfold membership
  split
  · rename_i hexpr
    rw [hexpr] at h
    cases h
  · rename_i hexpr
    rw [hexpr] at h
    cases h
  · rfl

theorem typeOf?_membership (hreceiver : receiver.type = receiver'.type) (ha : a.Alike a')
    (negated : Bool) :
    typeOf? (membership receiver a negated) = typeOf? (membership receiver' a' negated) := by
  cases hset : a.expr.isSet || a'.expr.isSet with
  | true =>
      unfold membership
      rw [hreceiver, ha.set (Bool.or_eq_true _ _ ▸ hset)]
      split
      · dsimp only
        repeat' split
        all_goals rfl
      · exact typeOf?_bind_congr rfl fun _ _ _ => rfl
      · rfl
  | false =>
      rw [Bool.or_eq_false_iff] at hset
      rw [membership_of_not_isSet hset.1, membership_of_not_isSet hset.2]

theorem typeOf?_overlap (hreceiver : receiver.type = receiver'.type) (ha : a.Alike a') :
    typeOf? (overlap receiver a) = typeOf? (overlap receiver' a') := by
  refine typeOf?_bind_congr ha.type fun f g hfg => ?_
  rw [hreceiver, hfg]
  split
  · rfl
  · rfl

theorem typeOf?_handler {kind : TypeKind} {name : String} {handler : MethodHandler}
    (hmethod : CallRegistry.builtin.method? kind name = some handler)
    (receiver receiver' : TypedFragment) (args : List Argument) :
    typeOf? (handler receiver args) = typeOf? (handler receiver' args) := by
  have hpattern : forall {handler : MethodHandler} {name op before after : String},
      (forall receiver args, handler receiver args =
        (TextMethod.textArgument name args).bind fun argument =>
          .ok (TextMethod.pattern receiver op before argument after)) ->
      typeOf? (handler receiver args) = typeOf? (handler receiver' args) := by
    intro handler name op before after hhandler
    rw [hhandler, hhandler]
    exact typeOf?_bind_congr rfl fun _ _ _ => rfl
  have hentry := CallRegistry.mem_of_find? hmethod
  simp only [CallRegistry.builtin, List.mem_cons, Prod.mk.injEq, List.not_mem_nil, or_false]
    at hentry
  rcases hentry with ⟨-, rfl⟩ | ⟨-, rfl⟩ | ⟨-, rfl⟩ | ⟨-, rfl⟩ | ⟨-, rfl⟩
  · exact hpattern fun _ _ => rfl
  · exact hpattern fun _ _ => rfl
  · exact hpattern fun _ _ => rfl
  · exact hpattern fun _ _ => rfl
  · unfold TextMethod.substring
    dsimp only
    split
    · exact typeOf?_bind_congr rfl fun _ _ _ => rfl
    · refine typeOf?_bind_congr rfl fun _ _ _ => ?_
      exact typeOf?_bind_congr rfl fun _ _ _ => rfl
    · rfl

/-!
## Functions and calls
-/

theorem mapM_alike (h : List.Forall₂ Argument.Alike args args') :
    (exists e e', args.mapM (·.compiled) = .error e ∧ args'.mapM (·.compiled) = .error e') ∨
      exists fs gs, args.mapM (·.compiled) = .ok fs ∧ args'.mapM (·.compiled) = .ok gs ∧
        fs.map (·.type) = gs.map (·.type) := by
  induction h with
  | nil => exact Or.inr ⟨[], [], rfl, rfl, rfl⟩
  | @cons a a' rest rest' ha _ ih =>
      have htype := ha.type
      rw [List.mapM_cons, List.mapM_cons]
      cases hfirst : a.compiled with
      | error e =>
          cases hfirst' : a'.compiled with
          | error e' => exact Or.inl ⟨e, e', rfl, rfl⟩
          | ok g =>
              rw [hfirst, hfirst'] at htype
              cases htype
      | ok f =>
          cases hfirst' : a'.compiled with
          | error e' =>
              rw [hfirst, hfirst'] at htype
              cases htype
          | ok g =>
              rw [hfirst, hfirst'] at htype
              rw [Result.ok_bind, Result.ok_bind]
              rcases ih with ⟨e, e', hrest, hrest'⟩ | ⟨fs, gs, hrest, hrest', htypes⟩
              · rw [hrest, hrest']
                exact Or.inl ⟨e, e', rfl, rfl⟩
              · rw [hrest, hrest']
                refine Or.inr ⟨f :: fs, g :: gs, rfl, rfl, ?_⟩
                rw [List.map_cons, List.map_cons, htypes, Option.some.inj htype]

theorem typeOf?_functionCall (function : SqlFunction) {fs gs : List TypedFragment}
    (h : fs.map (·.type) = gs.map (·.type)) :
    typeOf? (functionCall function fs) = typeOf? (functionCall function gs) := by
  have hlength : fs.length = gs.length := by
    have hlengths := congrArg List.length h
    rwa [List.length_map, List.length_map] at hlengths
  unfold functionCall
  rw [hlength, h]
  split
  · rfl
  · rfl

theorem typeOf?_sqlFunction (name : String) {first first' : Option TypedFragment}
    (hfirst : first.toList.map (·.type) = first'.toList.map (·.type))
    (hargs : List.Forall₂ Argument.Alike args args') :
    typeOf? (sqlFunction name first args) = typeOf? (sqlFunction name first' args') := by
  unfold sqlFunction
  cases SqlFunction.lookup? name with
  | none => rfl
  | some function =>
      dsimp only
      rcases mapM_alike hargs with ⟨e, e', he, he'⟩ | ⟨fs, gs, hfs, hgs, htypes⟩
      · rw [he, he']
        rfl
      · rw [hfs, hgs, Result.ok_bind, Result.ok_bind]
        apply typeOf?_functionCall
        rw [List.map_append, List.map_append, hfirst, htypes]

theorem typeOf?_single {name : String} {k k' : Argument -> Result TypedFragment}
    (hargs : List.Forall₂ Argument.Alike args args')
    (hk : forall a a', args = [a] -> args' = [a'] -> a.Alike a' ->
      typeOf? (k a) = typeOf? (k' a')) :
    typeOf? (Argument.single name args >>= k) = typeOf? (Argument.single name args' >>= k') := by
  cases hargs with
  | nil => rfl
  | cons ha hrest =>
      cases hrest with
      | nil => exact hk _ _ rfl rfl ha
      | cons _ _ => rfl

theorem typeOf?_native {name : String} (hreceiver : receiver.type = receiver'.type)
    (hargs : List.Forall₂ Argument.Alike args args')
    (hindex : name = "index" -> receiver.type.isArray = true -> args = args') :
    (native? name receiver args).map typeOf? = (native? name receiver' args').map typeOf? := by
  unfold native?
  split
  · exact congrArg some (typeOf?_single hargs fun _ _ _ _ ha => typeOf?_containsItem hreceiver ha)
  · refine congrArg some (typeOf?_single hargs fun a a' hsingle hsingle' ha => ?_)
    refine typeOf?_indexed hreceiver ha fun harray => ?_
    have hsame := hindex rfl harray
    rw [hsingle, hsingle'] at hsame
    exact List.head_eq_of_cons_eq hsame
  · exact congrArg some
      (typeOf?_single hargs fun _ _ _ _ ha => typeOf?_membership hreceiver ha false)
  · exact congrArg some
      (typeOf?_single hargs fun _ _ _ _ ha => typeOf?_membership hreceiver ha true)
  · exact congrArg some (typeOf?_single hargs fun _ _ _ _ ha => typeOf?_overlap hreceiver ha)
  · rfl

/-- A call on receivers of one type, with arguments that only differ where they are not compiled by
what answers the call. -/
theorem typeOf?_methodCall {name : String} (hreceiver : receiver.type = receiver'.type)
    (hargs : List.Forall₂ Argument.Alike args args')
    (hsame : foldsArguments .builtin name receiver.type = true -> args = args') :
    typeOf? (methodCall .builtin name receiver args) =
      typeOf? (methodCall .builtin name receiver' args') := by
  have hempty : args.isEmpty = args'.isEmpty := by
    cases hargs with
    | nil => rfl
    | cons _ _ => rfl
  unfold methodCall
  dsimp only
  rw [<- hreceiver, <- hempty]
  cases hmethod : CallRegistry.builtin.method? receiver.type.kind name with
  | some handler =>
      have hfolds : foldsArguments .builtin name receiver.type = true := by
        rw [foldsArguments, hmethod]
        rfl
      rw [hsame hfolds]
      exact typeOf?_handler hmethod receiver receiver' args'
  | none =>
      dsimp only
      cases haccessor : if args.isEmpty then CallRegistry.builtin.accessor? receiver.type.kind name
          else none with
      | some accessor =>
          split at haccessor
          · rcases CallRegistry.builtin_accessor_type haccessor receiver with ⟨f, hf, hftype⟩
            rcases CallRegistry.builtin_accessor_type haccessor receiver' with ⟨g, hg, hgtype⟩
            dsimp only
            rw [hf, hg]
            exact congrArg some (hftype.trans hgtype.symm)
          · cases haccessor
      | none =>
          have hindex : name = "index" -> receiver.type.isArray = true -> args = args' := by
            intro hname harray
            apply hsame
            rw [foldsArguments, hmethod, hname, harray]
            rfl
          have hnative := typeOf?_native hreceiver hargs hindex
          dsimp only
          cases hresult : native? name receiver args with
          | some result =>
              rw [hresult] at hnative
              rcases Option.map_eq_some_iff.mp hnative.symm with ⟨result', hresult', htypes⟩
              rw [hresult']
              exact htypes.symm
          | none =>
              rw [hresult] at hnative
              rw [Option.map_eq_none_iff.mp hnative.symm]
              dsimp only
              split
              · apply typeOf?_sqlFunction name _ hargs
                rw [Option.toList_some, Option.toList_some, List.map_cons, List.map_cons, hreceiver]
              · rfl

end Compiler
end TypedQuery
