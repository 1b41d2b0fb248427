import TypedQuery.Proofs.Expr.Congruence

/-!
# Folding and types

Folding an expression changes neither whether it compiles nor the type it compiles to, with two
exceptions: arithmetic on two constant reals becomes a double, and a text that is computed and then
added to an enum becomes a label, which cannot be added to one.
-/

namespace TypedQuery

namespace Expr

mutual

def parts : Expr -> List Expr
  | .unary op operand => .unary op operand :: operand.parts
  | .binary op left right => .binary op left right :: (left.parts ++ right.parts)
  | .method name receiver args onServer =>
      .method name receiver args onServer :: (receiver.parts ++ allParts args)
  | .function name args => .function name args :: allParts args
  | e => [e]

def allParts : List Expr -> List Expr
  | [] => []
  | e :: rest => e.parts ++ allParts rest

end

theorem mem_parts_self (e : Expr) : e ∈ e.parts := by
  cases e <;> exact List.mem_cons_self

mutual

theorem mem_parts_trans {e part inner : Expr} (hpart : part ∈ e.parts)
    (hinner : inner ∈ part.parts) : inner ∈ e.parts := by
  cases e with
  | unary op operand =>
      rcases List.mem_cons.mp hpart with rfl | hpart
      · exact hinner
      · exact List.mem_cons_of_mem _ (mem_parts_trans hpart hinner)
  | binary op left right =>
      rcases List.mem_cons.mp hpart with rfl | hpart
      · exact hinner
      · refine List.mem_cons_of_mem _ (List.mem_append.mpr ?_)
        rcases List.mem_append.mp hpart with hpart | hpart
        · exact Or.inl (mem_parts_trans hpart hinner)
        · exact Or.inr (mem_parts_trans hpart hinner)
  | method name receiver args onServer =>
      rcases List.mem_cons.mp hpart with rfl | hpart
      · exact hinner
      · refine List.mem_cons_of_mem _ (List.mem_append.mpr ?_)
        rcases List.mem_append.mp hpart with hpart | hpart
        · exact Or.inl (mem_parts_trans hpart hinner)
        · exact Or.inr (mem_allParts_trans hpart hinner)
  | function name args =>
      rcases List.mem_cons.mp hpart with rfl | hpart
      · exact hinner
      · exact List.mem_cons_of_mem _ (mem_allParts_trans hpart hinner)
  | _ => exact List.mem_singleton.mp hpart ▸ hinner

theorem mem_allParts_trans {es : List Expr} {part inner : Expr} (hpart : part ∈ allParts es)
    (hinner : inner ∈ part.parts) : inner ∈ allParts es := by
  cases es with
  | nil => cases hpart
  | cons e rest =>
      refine List.mem_append.mpr ?_
      rcases List.mem_append.mp hpart with hpart | hpart
      · exact Or.inl (mem_parts_trans hpart hinner)
      · exact Or.inr (mem_allParts_trans hpart hinner)

end

mutual

theorem isTyped_of_mem_parts {e part : Expr} (h : e.isTyped = true) (hpart : part ∈ e.parts) :
    part.isTyped = true := by
  cases e with
  | unary op operand =>
      rcases List.mem_cons.mp hpart with rfl | hpart
      · exact h
      · exact isTyped_of_mem_parts (e := operand) h hpart
  | binary op left right =>
      rcases List.mem_cons.mp hpart with rfl | hpart
      · exact h
      · rw [isTyped, Bool.and_eq_true] at h
        rcases List.mem_append.mp hpart with hpart | hpart
        · exact isTyped_of_mem_parts h.1 hpart
        · exact isTyped_of_mem_parts h.2 hpart
  | method name receiver args onServer =>
      rcases List.mem_cons.mp hpart with rfl | hpart
      · exact h
      · rw [isTyped, Bool.and_eq_true] at h
        rcases List.mem_append.mp hpart with hpart | hpart
        · exact isTyped_of_mem_parts h.1 hpart
        · exact isTyped_of_mem_allParts h.2 hpart
  | function name args =>
      rcases List.mem_cons.mp hpart with rfl | hpart
      · exact h
      · exact isTyped_of_mem_allParts h hpart
  | _ => exact List.mem_singleton.mp hpart ▸ h

theorem isTyped_of_mem_allParts {es : List Expr} {part : Expr} (h : allTyped es = true)
    (hpart : part ∈ allParts es) : part.isTyped = true := by
  cases es with
  | nil => cases hpart
  | cons e rest =>
      rw [allTyped, Bool.and_eq_true] at h
      rcases List.mem_append.mp hpart with hpart | hpart
      · exact isTyped_of_mem_parts h.1 hpart
      · exact isTyped_of_mem_allParts h.2 hpart

end

/-!
## The exceptions
-/

/-- Arithmetic on two constant reals that is folded. -/
def WidensReals (e : Expr) : Prop :=
  exists op left right x y w, e = .binary op left right ∧
    fold left = .constant ⟨.float x, .real⟩ ∧ fold right = .constant ⟨.float y, .real⟩ ∧
    op.isArithmetic = true ∧ fold e = .constant w

end Expr

namespace Compiler

/-- An enum to which a text is added that is not written as a constant, but is folded to one. -/
def AddsLabel (c : Compiler) (e : Expr) : Prop :=
  exists left right labels text, e = .binary .add left right ∧
    typeOf? (c.compile left) = some (.enum labels) ∧
    fold right = .constant ⟨.text text, .text⟩ ∧ fold right ≠ right

/-- An expression that compiles to the same type, if at all, as written and folded. -/
def Transparent (c : Compiler) (e : Expr) : Prop := typeOf? (c.asWritten e) = typeOf? (c.compile e)

variable {c : Compiler}

theorem transparent_of_node {e : Expr} (hfold : fold e = e) : c.Transparent e := by
  rw [Transparent, compile_eq_asWritten, hfold]

theorem compile_of_fold_constant {e : Expr} {v : Typed} (h : fold e = .constant v) :
    typeOf? (c.compile e) = some v.type := by
  rw [compile, h, node]
  rfl

theorem Transparent.alike {e : Expr} (h : c.Transparent e) (htyped : e.isTyped = true) :
    Argument.Alike ⟨e, c.asWritten e⟩ ⟨fold e, c.node (fold e)⟩ where
  null := (Fold.isNullConstant_fold htyped).symm
  set hset := (Fold.fold_eq_of_isSet htyped hset).symm
  type := h

/-!
## One step
-/

theorem Transparent.unary {operand : Expr} (h : c.Transparent operand)
    (htyped : operand.isTyped = true) (op : UnaryOp) : c.Transparent (.unary op operand) := by
  rw [Transparent, asWritten, typeOf?_bind (TypedFragment.typeOf?_unary op), h]
  have hfold : fold (.unary op operand) = Fold.unaryNode op (fold operand) := by rw [fold]
  rcases Fold.unaryNode_cases op (fold operand) with ⟨v, w, hv, hw, hnode⟩ | hsame
  · rw [compile_of_fold_constant hv, compile_of_fold_constant (hfold.trans hnode)]
    exact (Fold.unary?_typed hw (Fold.fits_of_fold htyped hv)).2
  · rw [compile, compile, hfold, hsame, node]
    exact (typeOf?_bind (TypedFragment.typeOf?_unary op)).symm

/-- Operands that are folded to constants make up the type that the operator gives to those. -/
theorem typeOf?_asWritten_of_computed {op : BinaryOp} {left right : Expr} {l r w : Typed}
    (hleft : c.Transparent left) (hright : c.Transparent right) (htypedLeft : left.isTyped = true)
    (htypedRight : right.isTyped = true) (hl : fold left = .constant l)
    (hr : fold right = .constant r) (hw : Fold.binary? op l r = some w) :
    typeOf? (c.asWritten (.binary op left right)) = op.result? l.type r.type := by
  have hnotNull := Fold.binary?_not_null hw
  have hnullLeft : left.isNullConstant = false := by
    rw [<- Fold.isNullConstant_fold htypedLeft, hl]
    exact hnotNull.1
  have hnullRight : right.isNullConstant = false := by
    rw [<- Fold.isNullConstant_fold htypedRight, hr]
    exact hnotNull.2
  have hlabel : l.type.isEnum = false ∨ Fold.text? right = none := by
    cases henum : l.type.isEnum with
    | false => exact Or.inl rfl
    | true =>
        cases htext : Fold.text? right with
        | none => exact Or.inr rfl
        | some text =>
            rw [Fold.eq_of_text? htypedRight htext] at hr
            cases hr
            rw [Fold.binary?_enum_text (Fold.fits_of_fold htypedLeft hl) henum] at hw
            cases hw
  rw [asWritten, typeOf?_binary (nullTest?_eq_none hnullLeft hnullRight), hleft,
    compile_of_fold_constant hl, Option.bind_some, Argument.typeBeside?_other hlabel, hright,
    compile_of_fold_constant hr, Option.bind_some]

theorem Transparent.binary {op : BinaryOp} {left right : Expr} (hleft : c.Transparent left)
    (hright : c.Transparent right) (htypedLeft : left.isTyped = true)
    (htypedRight : right.isTyped = true)
    (hwidens : ¬(Expr.binary op left right).WidensReals)
    (hadds : ¬c.AddsLabel (.binary op left right)) : c.Transparent (.binary op left right) := by
  have hfold : fold (.binary op left right) = Fold.binaryNode op (fold left) (fold right) := by
    rw [fold]
  rcases Fold.binaryNode_cases op (fold left) (fold right) with
    ⟨l, r, w, hl, hr, hw, hnode⟩ | hsame
  · rw [Transparent, compile_of_fold_constant (hfold.trans hnode),
      typeOf?_asWritten_of_computed hleft hright htypedLeft htypedRight hl hr hw]
    rcases Fold.binary?_typed hw (Fold.fits_of_fold htypedLeft hl)
      (Fold.fits_of_fold htypedRight hr) with ⟨-, hresult⟩ | ⟨-, ⟨x, y, rfl, rfl⟩, hop, -⟩
    · exact hresult
    · exact absurd ⟨op, left, right, x, y, w, rfl, hl, hr, hop, hfold.trans hnode⟩ hwidens
  · rw [Transparent, compile, hfold, hsame, asWritten, node]
    refine typeOf?_binary_congr (hleft.alike htypedLeft) (hright.alike htypedRight) ?_
    intro leftType hleftType
    have hsameType : typeOf? (c.asWritten right) = typeOf? (c.node (fold right)) := hright
    cases henum : leftType.isEnum with
    | false =>
        rw [Argument.typeBeside?_other (Or.inl henum), Argument.typeBeside?_other (Or.inl henum),
          hsameType]
    | true =>
        cases htext : Fold.text? right with
        | some text =>
            have hfolded : Fold.text? (fold right) = some text := by
              rw [Fold.eq_of_text? htypedRight htext]
              rfl
            rw [Argument.typeBeside?_label henum htext, Argument.typeBeside?_label henum hfolded]
        | none =>
            rw [Argument.typeBeside?_other (Or.inr htext), hsameType]
            cases hfolded : Fold.text? (fold right) with
            | none => rw [Argument.typeBeside?_other (Or.inr hfolded)]
            | some text =>
                have hconstant := Fold.eq_of_text? (Fold.isTyped_fold htypedRight) hfolded
                rcases SqlType.exists_of_isEnum henum with ⟨labels, rfl⟩
                have hop : op ≠ .add := by
                  rintro rfl
                  refine hadds ⟨left, right, labels, text, rfl, hleftType, hconstant, ?_⟩
                  intro hsameText
                  rw [hsameText, htext] at hfolded
                  cases hfolded
                have htype : typeOf? (c.node (fold right)) = some .text :=
                  compile_of_fold_constant hconstant
                rw [Argument.typeBeside?_label henum hfolded, htype]
                exact BinaryOp.result?_text_of_isEnum hop henum

/-- A call that is evaluated would be answered by the built-in entry of its name. -/
theorem builtin_answer_of_onText? {name subject : String} {es : List Expr} {w : Typed}
    (h : Fold.onText? name subject es = some w) (htyped : Expr.allTyped es = true)
    {r : TypedFragment} (hr : r.type = .text) :
    exists f, CallRegistry.builtin.answer? name r (c.arguments es) = some (.ok f) := by
  rw [CallRegistry.answer?, hr]
  rcases Fold.onText?_cases h with ⟨hname, rfl, -⟩ | ⟨rfl, rfl, -⟩ | ⟨hname, arg, s, _, rfl, hs, -⟩
  · rw [arguments]
    rcases hname with rfl | rfl
    all_goals exact ⟨_, rfl⟩
  · rw [arguments]
    exact ⟨_, rfl⟩
  · rw [Expr.allTyped, Bool.and_eq_true] at htyped
    rw [Fold.eq_of_text? htyped.1 hs, arguments, node, arguments]
    rcases hname with rfl | rfl | rfl
    all_goals exact ⟨_, rfl⟩

theorem arguments_of_onText? {name subject : String} {args : List Expr} {w : Typed}
    (h : Fold.onText? name subject (Fold.foldAll args) = some w) :
    (if foldsArguments .builtin name .text then c.arguments (Fold.foldAll args)
      else c.argumentsAsWritten args) = c.arguments (Fold.foldAll args) := by
  cases args with
  | nil => rw [Fold.foldAll, arguments, argumentsAsWritten, ite_self]
  | cons e rest =>
      rw [Fold.foldAll] at h
      rcases Fold.onText?_cases h with ⟨-, hnil, -⟩ | ⟨-, hnil, -⟩ | ⟨hname, -⟩
      · cases hnil
      · cases hnil
      · rcases hname with rfl | rfl | rfl
        all_goals exact if_pos rfl

theorem Transparent.method {name : String} {receiver : Expr} {args : List Expr}
    (hcalls : c.calls = .builtin) (hreceiver : c.Transparent receiver)
    (hargs : List.Forall₂ Argument.Alike (c.argumentsAsWritten args)
      (c.arguments (Fold.foldAll args)))
    (htyped : receiver.isTyped = true) (htypedArgs : Expr.allTyped args = true)
    (onServer : Bool) : c.Transparent (.method name receiver args onServer) := by
  have hfold : fold (.method name receiver args onServer) =
      Fold.methodNode name (fold receiver) (Fold.foldAll args) onServer := by
    rw [fold]
  rw [Transparent, asWritten, hcalls]
  rcases Fold.methodNode_cases name (fold receiver) (Fold.foldAll args) onServer with
    ⟨subject, w, hsubject, hcall, hnode⟩ | hsame
  · have hconstant := Fold.eq_of_text? (Fold.isTyped_fold htyped) hsubject
    have hreceiverType : typeOf? (c.asWritten receiver) = some .text :=
      hreceiver.trans (compile_of_fold_constant hconstant)
    rcases typeOf?_eq_some.mp hreceiverType with ⟨r, hr, hrtype⟩
    rcases builtin_answer_of_onText? hcall (Fold.allTyped_foldAll htypedArgs) hrtype with
      ⟨f, hanswer⟩
    have hftype := CallRegistry.builtin_answer_type_of_onText? hcall (c.length_arguments _) hanswer
    rw [compile_of_fold_constant (hfold.trans hnode), hr, Result.ok_bind, hrtype,
      arguments_of_onText? hcall, CallRegistry.methodCall_of_answer? hanswer]
    exact congrArg some hftype
  · rw [compile, hfold, hsame, node, hcalls]
    refine typeOf?_bind_congr hreceiver fun f g hfg => ?_
    refine typeOf?_methodCall hfg ?_ fun hfolds => if_pos hfolds
    split
    · exact Argument.alike_self _
    · exact hargs

theorem Transparent.function {name : String} {args : List Expr}
    (hargs : List.Forall₂ Argument.Alike (c.argumentsAsWritten args)
      (c.arguments (Fold.foldAll args))) : c.Transparent (.function name args) := by
  rw [Transparent, asWritten, compile, fold, node]
  exact typeOf?_sqlFunction name rfl hargs

/-!
## All parts
-/

mutual

theorem transparent_of_parts (hcalls : c.calls = .builtin) {e : Expr} (htyped : e.isTyped = true)
    (hparts : forall part, part ∈ e.parts -> ¬part.WidensReals ∧ ¬c.AddsLabel part) :
    c.Transparent e := by
  cases e with
  | unary op operand =>
      have hoperand : operand.isTyped = true := htyped
      refine Transparent.unary ?_ hoperand op
      exact transparent_of_parts hcalls hoperand fun part hpart =>
        hparts part (List.mem_cons_of_mem _ hpart)
  | binary op left right =>
      have hself := hparts _ (Expr.mem_parts_self _)
      rw [Expr.isTyped, Bool.and_eq_true] at htyped
      refine Transparent.binary ?_ ?_ htyped.1 htyped.2 hself.1 hself.2
      · exact transparent_of_parts hcalls htyped.1 fun part hpart =>
          hparts part (List.mem_cons_of_mem _ (List.mem_append.mpr (Or.inl hpart)))
      · exact transparent_of_parts hcalls htyped.2 fun part hpart =>
          hparts part (List.mem_cons_of_mem _ (List.mem_append.mpr (Or.inr hpart)))
  | method name receiver args onServer =>
      rw [Expr.isTyped, Bool.and_eq_true] at htyped
      refine Transparent.method hcalls ?_ ?_ htyped.1 htyped.2 onServer
      · exact transparent_of_parts hcalls htyped.1 fun part hpart =>
          hparts part (List.mem_cons_of_mem _ (List.mem_append.mpr (Or.inl hpart)))
      · exact arguments_alike hcalls htyped.2 fun part hpart =>
          hparts part (List.mem_cons_of_mem _ (List.mem_append.mpr (Or.inr hpart)))
  | function name args =>
      refine Transparent.function ?_
      exact arguments_alike hcalls htyped fun part hpart =>
        hparts part (List.mem_cons_of_mem _ hpart)
  | _ => exact transparent_of_node rfl

theorem arguments_alike (hcalls : c.calls = .builtin) {es : List Expr}
    (htyped : Expr.allTyped es = true)
    (hparts : forall part, part ∈ Expr.allParts es -> ¬part.WidensReals ∧ ¬c.AddsLabel part) :
    List.Forall₂ Argument.Alike (c.argumentsAsWritten es) (c.arguments (Fold.foldAll es)) := by
  cases es with
  | nil =>
      rw [argumentsAsWritten, Fold.foldAll, arguments]
      exact .nil
  | cons e rest =>
      rw [Expr.allTyped, Bool.and_eq_true] at htyped
      rw [argumentsAsWritten, Fold.foldAll, arguments]
      refine .cons ?_ ?_
      · refine Transparent.alike ?_ htyped.1
        exact transparent_of_parts hcalls htyped.1 fun part hpart =>
          hparts part (List.mem_append.mpr (Or.inl hpart))
      · exact arguments_alike hcalls htyped.2 fun part hpart =>
          hparts part (List.mem_append.mpr (Or.inr hpart))

end

/-- As written, arithmetic on reals gives a real; folded, a double. -/
theorem Transparent.not_widensReals {op : BinaryOp} {left right : Expr}
    (h : c.Transparent (.binary op left right)) (hleft : c.Transparent left)
    (hright : c.Transparent right) (htypedLeft : left.isTyped = true)
    (htypedRight : right.isTyped = true) : ¬(Expr.binary op left right).WidensReals := by
  rintro ⟨op', left', right', x, y, w, hsame, hl, hr, hop, hw⟩
  cases hsame
  have hcomputed : Fold.binary? op ⟨.float x, .real⟩ ⟨.float y, .real⟩ = some w := by
    rw [fold] at hw
    rcases Fold.binaryNode_cases op (fold left) (fold right) with
      ⟨l, r, v, hl', hr', hv, hnode⟩ | hsame
    · cases hl.symm.trans hl'
      cases hr.symm.trans hr'
      cases hnode.symm.trans hw
      exact hv
    · cases hsame.symm.trans hw
  rw [Transparent, typeOf?_asWritten_of_computed hleft hright htypedLeft htypedRight hl hr
    hcomputed, compile_of_fold_constant hw, Fold.type_of_reals hop hcomputed,
    (op.result?_of_isNumeric rfl rfl).2 hop] at h
  cases h

/-- As written, a text is added to an enum; folded, a label is, which fails. -/
theorem Transparent.not_addsLabel {op : BinaryOp} {left right : Expr}
    (h : c.Transparent (.binary op left right)) (hleft : c.Transparent left)
    (hright : c.Transparent right) (htypedLeft : left.isTyped = true)
    (htypedRight : right.isTyped = true) : ¬c.AddsLabel (.binary op left right) := by
  rintro ⟨left', right', labels, text, hsame, hlabels, hconstant, hcomputed⟩
  cases hsame
  have hfolded : typeOf? (c.compile (.binary .add left right)) = none := by
    rw [compile, fold]
    rcases Fold.binaryNode_cases .add (fold left) (fold right) with
      ⟨l, r, v, hl, hr, hv, -⟩ | hsame
    · cases hconstant.symm.trans hr
      have henum : l.type = .enum labels :=
        Option.some.inj ((compile_of_fold_constant hl).symm.trans hlabels)
      rw [Fold.binary?_enum_text (Fold.fits_of_fold htypedLeft hl) (henum ▸ rfl)] at hv
      cases hv
    · have hleftType : typeOf? (c.node (fold left)) = some (.enum labels) := hlabels
      rw [hsame, node, typeOf?_binary rfl, hleftType, Option.bind_some, hconstant,
        Argument.typeBeside?_label rfl rfl]
      rfl
  have hwritten : typeOf? (c.asWritten (.binary .add left right)) = some .text := by
    have htext : Fold.text? right = none := by
      cases htext : Fold.text? right with
      | none => rfl
      | some text =>
          refine absurd ?_ hcomputed
          rw [Fold.eq_of_text? htypedRight htext]
          rfl
    rw [asWritten, typeOf?_binary rfl, hleft, hlabels, Option.bind_some,
      Argument.typeBeside?_other (Or.inr htext), hright, compile_of_fold_constant hconstant]
    rfl
  rw [Transparent, hwritten, hfolded] at h
  cases h

theorem no_exception_of_ne_binary {e : Expr}
    (h : forall op left right, e ≠ .binary op left right) : ¬e.WidensReals ∧ ¬c.AddsLabel e := by
  constructor
  · rintro ⟨op, left, right, _, _, _, hbinary, -⟩
    exact h op left right hbinary
  · rintro ⟨left, right, _, _, hbinary, -⟩
    exact h .add left right hbinary

/-- Everything in an expression compiles to the same type as written and folded, if nowhere reals
are computed that become doubles or a computed text is added to an enum; and only if. -/
theorem parts_transparent_iff (hcalls : c.calls = .builtin) {e : Expr} (htyped : e.isTyped = true) :
    (forall part, part ∈ e.parts ->
      typeOf? (c.asWritten part) = typeOf? (c.compile part)) <->
      forall part, part ∈ e.parts -> ¬part.WidensReals ∧ ¬c.AddsLabel part := by
  constructor
  · intro h part hpart
    have htransparent : forall inner, inner ∈ part.parts -> c.Transparent inner :=
      fun inner hinner => h inner (Expr.mem_parts_trans hpart hinner)
    have htypedPart := Expr.isTyped_of_mem_parts htyped hpart
    cases part with
    | binary op left right =>
        rw [Expr.isTyped, Bool.and_eq_true] at htypedPart
        have hself := htransparent _ (Expr.mem_parts_self _)
        have hleft : c.Transparent left := htransparent left
          (List.mem_cons_of_mem _ (List.mem_append.mpr (Or.inl (Expr.mem_parts_self left))))
        have hright : c.Transparent right := htransparent right
          (List.mem_cons_of_mem _ (List.mem_append.mpr (Or.inr (Expr.mem_parts_self right))))
        exact ⟨hself.not_widensReals hleft hright htypedPart.1 htypedPart.2,
          hself.not_addsLabel hleft hright htypedPart.1 htypedPart.2⟩
    | _ => exact no_exception_of_ne_binary fun _ _ _ h => nomatch h
  · intro h part hpart
    exact transparent_of_parts hcalls (Expr.isTyped_of_mem_parts htyped hpart)
      fun inner hinner => h inner (Expr.mem_parts_trans hpart hinner)

def moodCompiler : Compiler where
  scope := .ofTable ⟨"T", "thing", some "app",
    [{ field := "mood", name := "mood", type := .enum ⟨"Mood", "mood", some "app", ["calm"]⟩ }]⟩

def soHappy : Expr :=
  .binary .add (.constant ⟨.text "so", .text⟩) (.constant ⟨.text "-happy", .text⟩)

theorem mood_eq_soHappy_transparent :
    moodCompiler.calls = .builtin ∧ (Expr.binary .eq (.col "mood") soHappy).isTyped = true ∧
      forall part, part ∈ (Expr.binary .eq (.col "mood") soHappy).parts ->
        typeOf? (moodCompiler.asWritten part) = typeOf? (moodCompiler.compile part) := by
  refine ⟨rfl, rfl, (parts_transparent_iff rfl rfl).mpr ?_⟩
  intro part hpart
  have hcases : part = .binary .eq (.col "mood") soHappy ∨ part = .col "mood" ∨
      part = soHappy ∨ part = .constant ⟨.text "so", .text⟩ ∨
      part = .constant ⟨.text "-happy", .text⟩ := by
    simpa [Expr.parts, Expr.col, soHappy] using hpart
  rcases hcases with rfl | rfl | rfl | rfl | rfl
  · constructor
    · rintro ⟨_, _, _, _, _, _, hbinary, hleft, -⟩
      cases hbinary
      cases hleft
    · rintro ⟨_, _, _, _, hbinary, -⟩
      cases hbinary
  · exact no_exception_of_ne_binary fun _ _ _ h => nomatch h
  · constructor
    · rintro ⟨_, _, _, _, _, _, hbinary, hleft, -⟩
      cases hbinary
      cases hleft
    · rintro ⟨_, _, _, _, hbinary, hleft, -⟩
      cases hbinary
      cases hleft
  · exact no_exception_of_ne_binary fun _ _ _ h => nomatch h
  · exact no_exception_of_ne_binary fun _ _ _ h => nomatch h

/-- Added to a mood, the text is one as it is written; folded, it is taken for a label. -/
theorem mood_add_soHappy_fails_folded :
    (Expr.binary .add (.col "mood") soHappy).isTyped = true ∧
      typeOf? (moodCompiler.asWritten (.binary .add (.col "mood") soHappy)) = some .text ∧
      typeOf? (moodCompiler.compile (.binary .add (.col "mood") soHappy)) = none :=
  ⟨rfl, rfl, rfl⟩

end Compiler
end TypedQuery
