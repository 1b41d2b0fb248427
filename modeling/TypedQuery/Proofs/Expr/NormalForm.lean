import Mathlib.Logic.Relation
import TypedQuery.Proofs.Expr.Elementary

/-!
# Folding to the end

An operation or a call on constants has a value, if the host gives it one.  A step puts such a value
in the place of the node that has it, anywhere in an expression.  Folding takes all the steps there
are: nothing with a value is left, and the result is the same from wherever on the way folding
starts.  So it does not matter that methods compile their arguments, and with that fold them, once
more.
-/

namespace TypedQuery
namespace Fold

/-!
## Nodes that have a value
-/

/-- The value of an operation or a call on constants; a call that is left to the server has none. -/
def value? : Expr -> Option Typed
  | .unary op (.constant v) => unary? op v
  | .binary op (.constant l) (.constant r) => binary? op l r
  | .method name receiver args false =>
      (text? receiver).bind fun subject => onText? name subject args
  | _ => none

theorem eq_constant_of_text? {e : Expr} {s : String} (h : text? e = some s) :
    exists v, e = .constant v := by
  unfold text? at h
  split at h
  · exact ⟨_, rfl⟩
  · cases h

theorem constants_of_value? {e : Expr} {v : Typed} (h : value? e = some v) {operand : Expr}
    (hoperand : operand ∈ e.operands) : exists w, operand = .constant w := by
  unfold value? at h
  split at h
  · exact ⟨_, List.mem_singleton.mp hoperand⟩
  · rcases List.mem_cons.mp hoperand with hleft | hright
    · exact ⟨_, hleft⟩
    · exact ⟨_, List.mem_singleton.mp hright⟩
  · rcases Option.bind_eq_some_iff.mp h with ⟨subject, hsubject, hcall⟩
    rcases List.mem_cons.mp hoperand with rfl | harg
    · exact eq_constant_of_text? hsubject
    · rcases onText?_cases hcall with ⟨-, rfl, -⟩ | ⟨-, rfl, -⟩ | ⟨-, arg, s, b, rfl, htext, -⟩
      · cases harg
      · cases harg
      · rw [List.mem_singleton.mp harg]
        exact eq_constant_of_text? htext
  · cases h

theorem map_fold_of_folded {es : List Expr} (h : forall e, e ∈ es -> fold e = e) :
    es.map fold = es := by
  have hid : es.map fold = es.map id := List.map_inj_left.mpr h
  rw [hid, List.map_id]

/-- With folded operands, folding a node is asking for its value. -/
theorem fold_of_operands {e : Expr} (h : forall operand, operand ∈ e.operands ->
    fold operand = operand) : fold e = ((value? e).map Expr.constant).getD e := by
  cases e with
  | unary op operand =>
      have hoperand := h operand List.mem_cons_self
      rw [fold, hoperand]
      cases operand with
      | constant v =>
          rw [unaryNode, value?]
          cases unary? op v <;> rfl
      | _ => rfl
  | binary op left right =>
      have hleft := h left List.mem_cons_self
      have hright := h right (List.mem_cons_of_mem _ List.mem_cons_self)
      rw [fold, hleft, hright]
      cases left with
      | constant l =>
          cases right with
          | constant r =>
              rw [binaryNode, value?]
              cases binary? op l r <;> rfl
          | _ => rfl
      | _ => rfl
  | method name receiver args onServer =>
      have hreceiver := h receiver List.mem_cons_self
      have hargs : args.map fold = args :=
        map_fold_of_folded fun arg harg => h arg (List.mem_cons_of_mem _ harg)
      rw [fold, foldAll_eq_map, hreceiver, hargs]
      cases onServer with
      | true => rfl
      | false =>
          rw [methodNode, value?, if_neg Bool.false_ne_true]
          cases (text? receiver).bind fun subject => onText? name subject args <;> rfl
  | function name args =>
      have hargs : args.map fold = args := map_fold_of_folded h
      rw [fold, foldAll_eq_map, hargs]
      rfl
  | _ => rfl

theorem fold_of_value? {e : Expr} {v : Typed} (h : value? e = some v) : fold e = .constant v := by
  have hoperands : forall operand, operand ∈ e.operands -> fold operand = operand := by
    intro operand hoperand
    rcases constants_of_value? h hoperand with ⟨w, rfl⟩
    rfl
  rw [fold_of_operands hoperands, h]
  rfl

/-- Folding leaves an expression alone exactly when nothing in it has a value. -/
theorem fold_eq_self_iff {e : Expr} :
    fold e = e <-> forall part, part ∈ e.parts -> value? part = none := by
  constructor
  · intro h part hpart
    have hfolded : fold part = part :=
      Expr.of_mem_parts (P := fun e => fold e = e) (fun _ h _ => fold_operand h) h hpart
    cases hvalue : value? part with
    | none => rfl
    | some v =>
        rw [fold_of_value? hvalue] at hfolded
        rw [<- hfolded] at hvalue
        cases hvalue
  · intro h
    induction e using Expr.of_operands with
    | step e ih =>
        have hoperands : forall operand, operand ∈ e.operands -> fold operand = operand :=
          fun operand hoperand => ih operand hoperand fun part hpart =>
            h part (Expr.mem_parts_of_operand hoperand hpart)
        rw [fold_of_operands hoperands, h e e.mem_parts_self]
        rfl

/-!
## Steps
-/

/-- The value of one node is put in its place, somewhere in the expression. -/
inductive Step : Expr -> Expr -> Prop where
  | value {e : Expr} {v : Typed} (h : value? e = some v) : Step e (.constant v)
  | unary (op : UnaryOp) {a b : Expr} (h : Step a b) : Step (.unary op a) (.unary op b)
  | left (op : BinaryOp) {a b : Expr} (h : Step a b) (right : Expr) :
      Step (.binary op a right) (.binary op b right)
  | right (op : BinaryOp) (left : Expr) {a b : Expr} (h : Step a b) :
      Step (.binary op left a) (.binary op left b)
  | receiver (name : String) {a b : Expr} (h : Step a b) (args : List Expr) (onServer : Bool) :
      Step (.method name a args onServer) (.method name b args onServer)
  | argument (name : String) (receiver : Expr) (before : List Expr) {a b : Expr} (h : Step a b)
      (after : List Expr) (onServer : Bool) :
      Step (.method name receiver (before ++ a :: after) onServer)
        (.method name receiver (before ++ b :: after) onServer)
  | function (name : String) (before : List Expr) {a b : Expr} (h : Step a b)
      (after : List Expr) :
      Step (.function name (before ++ a :: after)) (.function name (before ++ b :: after))

abbrev Steps : Expr -> Expr -> Prop := Relation.ReflTransGen Step

theorem fold_eq_of_step {e e' : Expr} (h : Step e e') : fold e' = fold e := by
  induction h with
  | value h => exact (fold_of_value? h).symm
  | unary op _ ih => rw [fold, fold, ih]
  | left op _ right ih => rw [fold, fold, ih]
  | right op left _ ih => rw [fold, fold, ih]
  | receiver name _ args onServer ih => rw [fold, fold, ih]
  | argument name receiver before _ after onServer ih =>
      rw [fold, fold, foldAll_eq_map, foldAll_eq_map, List.map_append, List.map_append,
        List.map_cons, List.map_cons, ih]
  | function name before _ after ih =>
      rw [fold, fold, foldAll_eq_map, foldAll_eq_map, List.map_append, List.map_append,
        List.map_cons, List.map_cons, ih]

theorem fold_eq_of_steps {e e' : Expr} (h : Steps e e') : fold e' = fold e := by
  induction h with
  | refl => rfl
  | tail _ hstep ih => rw [fold_eq_of_step hstep, ih]

theorem steps_list (node : List Expr -> Expr) (hnode : forall before {a b : Expr} after,
    Step a b -> Step (node (before ++ a :: after)) (node (before ++ b :: after)))
    {es : List Expr} (h : forall e, e ∈ es -> Steps e (fold e)) (before : List Expr) :
    Steps (node (before ++ es)) (node (before ++ es.map fold)) := by
  induction es generalizing before with
  | nil => exact .refl
  | cons e rest ih =>
      rcases List.forall_mem_cons.mp h with ⟨hfirst, hrest⟩
      have hhead : Steps (node (before ++ e :: rest)) (node (before ++ fold e :: rest)) :=
        hfirst.lift (fun a => node (before ++ a :: rest)) fun a b hab => hnode before rest hab
      have htail := ih hrest (before ++ [fold e])
      rw [List.append_assoc, List.append_assoc] at htail
      exact hhead.trans htail

theorem steps_fold_of_operands {e node : Expr} (h : Steps e node)
    (hnode : forall operand, operand ∈ node.operands -> fold operand = operand) :
    Steps e (fold e) := by
  rw [<- fold_eq_of_steps h, fold_of_operands hnode]
  cases hvalue : value? node with
  | none => exact h
  | some v => exact h.tail (.value hvalue)

/-- What an expression is folded to is reached by steps. -/
theorem steps_fold (e : Expr) : Steps e (fold e) := by
  induction e using Expr.of_operands with
  | step e ih =>
      cases e with
      | unary op operand =>
          have hoperand := ih operand List.mem_cons_self
          have hnode : Steps (.unary op operand) (.unary op (fold operand)) :=
            hoperand.lift (Expr.unary op) fun a b hab => hab.unary op
          exact steps_fold_of_operands hnode (List.forall_mem_singleton.mpr (fold_fold operand))
      | binary op left right =>
          have hleft := ih left List.mem_cons_self
          have hright := ih right (List.mem_cons_of_mem _ List.mem_cons_self)
          have hfirst : Steps (.binary op left right) (.binary op (fold left) right) :=
            hleft.lift (fun a => Expr.binary op a right) fun a b hab => hab.left op right
          have hsecond : Steps (.binary op (fold left) right)
              (.binary op (fold left) (fold right)) :=
            hright.lift (Expr.binary op (fold left)) fun a b hab => hab.right op (fold left)
          refine steps_fold_of_operands (hfirst.trans hsecond) (List.forall_mem_cons.mpr ?_)
          exact ⟨fold_fold left, List.forall_mem_singleton.mpr (fold_fold right)⟩
      | method name receiver args onServer =>
          have hreceiver := ih receiver List.mem_cons_self
          have hfirst : Steps (.method name receiver args onServer)
              (.method name (fold receiver) args onServer) :=
            hreceiver.lift (fun a => Expr.method name a args onServer)
              fun a b hab => hab.receiver name args onServer
          have hsecond : Steps (.method name (fold receiver) args onServer)
              (.method name (fold receiver) (args.map fold) onServer) :=
            steps_list (fun es => .method name (fold receiver) es onServer)
              (fun before _ _ after hab => .argument name (fold receiver) before hab after onServer)
              (fun arg harg => ih arg (List.mem_cons_of_mem _ harg)) []
          refine steps_fold_of_operands (hfirst.trans hsecond) (List.forall_mem_cons.mpr ?_)
          exact ⟨fold_fold receiver, List.forall_mem_map.mpr fun arg _ => fold_fold arg⟩
      | function name args =>
          have hargs : Steps (.function name args) (.function name (args.map fold)) :=
            steps_list (Expr.function name)
              (fun before _ _ after hab => .function name before hab after) ih []
          exact steps_fold_of_operands hargs (List.forall_mem_map.mpr fun arg _ => fold_fold arg)
      | _ => exact .refl

end Fold

/-!
## Arguments that are compiled again
-/

namespace Compiler

def recompiled (c : Compiler) (e : Expr) : Argument := ⟨e, c.compile e⟩

theorem compile_of_steps (c : Compiler) {e e' : Expr} (h : Fold.Steps e e') :
    c.compile e' = c.compile e := by
  rw [compile, compile, Fold.fold_eq_of_steps h]

theorem node_of_folded (c : Compiler) {e : Expr} (h : fold e = e) : c.node e = c.compile e := by
  rw [compile, h]

theorem arguments_of_folded (c : Compiler) {es : List Expr}
    (h : forall e, e ∈ es -> fold e = e) : c.arguments es = es.map c.recompiled := by
  induction es with
  | nil => rw [arguments, List.map_nil]
  | cons e rest ih =>
      rcases List.forall_mem_cons.mp h with ⟨hfirst, hrest⟩
      rw [arguments, List.map_cons, ih hrest, recompiled, c.node_of_folded hfirst]

theorem binary_add_int (a : Argument) (n : Int32) :
    binary .add a ⟨.int n, .ok (.ofValue ⟨.int n, .integer⟩)⟩ =
      (do TypedFragment.arithmetic .add (<- a.compiled) (.ofValue ⟨.int n, .integer⟩)) := by
  have hlabel : forall type, TypedFragment.enumLabel? type (.int n) = none := by
    intro type
    cases type <;> rfl
  have hnull : nullTest? .add a ⟨.int n, .ok (.ofValue ⟨.int n, .integer⟩)⟩ = none := rfl
  rw [binary, hnull]
  simp only [hlabel, Result.ok_bind]
  rfl

theorem next_of_constant {a : Argument} {v : Typed}
    (h : Fold.binaryNode .add a.expr (.int 1) = .constant v) : a.next = .ok (.ofValue v) := by
  unfold Expr.int at h
  unfold Argument.next
  dsimp only
  rw [h]

theorem next_of_binary {a : Argument}
    (h : Fold.binaryNode .add a.expr (.int 1) = .binary .add a.expr (.int 1)) :
    a.next =
      (do TypedFragment.arithmetic .add (<- a.compiled) (.ofValue ⟨.int 1, .integer⟩)) := by
  unfold Expr.int at h
  unfold Argument.next
  dsimp only
  rw [h]

theorem next_recompiled (c : Compiler) {e : Expr} (h : fold e = e) :
    (c.recompiled e).next = c.compile (.binary .add e (.int 1)) := by
  have hfold : fold (.binary .add e (.int 1)) = Fold.binaryNode .add e (.int 1) := by
    rw [fold, h]
    rfl
  rw [compile, hfold]
  rcases Fold.binaryNode_cases .add e (.int 1) with ⟨-, -, v, -, -, -, hv⟩ | hsame
  · have hnext : (c.recompiled e).next = .ok (.ofValue v) := next_of_constant hv
    rw [hnext, hv, node]
  · have hnext : (c.recompiled e).next =
        (do TypedFragment.arithmetic .add (<- c.compile e) (.ofValue ⟨.int 1, .integer⟩)) :=
      next_of_binary hsame
    have hone : c.node (.int 1) = .ok (.ofValue ⟨.int 1, .integer⟩) := by
      rw [Expr.int, node]
    rw [hnext, hsame, node, c.node_of_folded h, hone, binary_add_int]

theorem compile_of_fold_method (c : Compiler) {e receiver : Expr} {name : String}
    {args : List Expr} {onServer : Bool} (h : fold e = .method name receiver args onServer) :
    c.compile e =
      (do methodCall c.calls name (<- c.compile receiver) (args.map c.recompiled)) := by
  have hoperands : forall operand, operand ∈ receiver :: args -> fold operand = operand := by
    have hfolded := Fold.fold_fold e
    rw [h] at hfolded
    exact fun operand hoperand => Fold.fold_operand hfolded hoperand
  rcases List.forall_mem_cons.mp hoperands with ⟨hreceiver, hargs⟩
  rw [compile, h, node, c.node_of_folded hreceiver, c.arguments_of_folded hargs]

end Compiler

/-- Folding takes all the steps there are from an expression: what it gives is reached by steps,
folding leaves it alone, and nothing in it has a value.  From anything on the way folding gives the
same, it is the only end, and what is compiled is the same.  An argument that is folded already
compiles again to what it does unfolded, and so does the position behind it; what is left of a call
is answered from arguments that are compiled again. -/
theorem folded_to_the_end (e : Expr) :
    fold (fold e) = fold e ∧
      Fold.Steps e (fold e) ∧
      (forall part, part ∈ (fold e).parts -> Fold.value? part = none) ∧
      (forall e', Fold.Steps e e' ->
        fold e' = fold e ∧
        ((forall part, part ∈ e'.parts -> Fold.value? part = none) -> e' = fold e) ∧
        forall c : Compiler, c.compile e' = c.compile e) ∧
      forall c : Compiler,
        (c.recompiled (fold e)).compiled = c.compile e ∧
        (c.recompiled (fold e)).next = c.compile (.binary .add e (.int 1)) ∧
        forall name receiver args onServer, fold e = .method name receiver args onServer ->
          c.compile e =
            (do
              Compiler.methodCall c.calls name (<- c.compile receiver)
                (args.map c.recompiled)) := by
  have hsteps := Fold.steps_fold e
  have hend := Fold.fold_fold e
  refine ⟨hend, hsteps, Fold.fold_eq_self_iff.mp hend, ?_, ?_⟩
  · intro e' h
    have hfold := Fold.fold_eq_of_steps h
    refine ⟨hfold, ?_, fun c => c.compile_of_steps h⟩
    intro hparts
    rw [<- hfold, Fold.fold_eq_self_iff.mpr hparts]
  · intro c
    have hsum : Fold.Steps (.binary .add e (.int 1)) (.binary .add (fold e) (.int 1)) :=
      hsteps.lift (fun a => Expr.binary .add a (.int 1)) fun a b hab => hab.left .add (.int 1)
    refine ⟨c.compile_of_steps hsteps, ?_, fun _ _ _ _ => c.compile_of_fold_method⟩
    rw [c.next_recompiled hend, c.compile_of_steps hsum]

def boxCompiler : Compiler where
  scope := .ofTable ⟨"Box", "box", none,
    [{ field := "tags", name := "tags", type := .array .text }]⟩

def quotientByZero : Expr := .binary .div (.int 1) (.int 0)

def farPosition : Expr := .binary .add (.binary .add (.int 1) (.int 2)) quotientByZero

def farTag (position : Expr) : Expr := .method "index" (.col "tags") [position] false

theorem farTag_folded_to_the_end :
    fold farPosition = .binary .add (.int 3) quotientByZero ∧
      quotientByZero ∈ (fold farPosition).parts ∧ Fold.value? quotientByZero = none ∧
      (boxCompiler.recompiled (fold farPosition)).next =
        boxCompiler.compile (.binary .add farPosition (.int 1)) ∧
      farTag (fold farPosition) = fold (farTag farPosition) ∧
      boxCompiler.compile (farTag (fold farPosition)) = boxCompiler.compile (farTag farPosition) ∧
      boxCompiler.compile (farTag farPosition) =
        (do
          Compiler.methodCall boxCompiler.calls "index" (<- boxCompiler.compile (.col "tags"))
            [boxCompiler.recompiled (fold farPosition)]) ∧
      (boxCompiler.compile (farTag farPosition)).map (·.query.renderSimple) =
        .ok "(t0.\"tags\")[((3) + ((1) / (0))) + (1)]" := by
  have hpart : quotientByZero ∈ (fold farPosition).parts :=
    List.mem_cons_of_mem _ (List.mem_append_right _ quotientByZero.mem_parts_self)
  have hnone : forall part, part ∈ (farTag (fold farPosition)).parts -> Fold.value? part = none :=
    Fold.fold_eq_self_iff.mp rfl
  rcases folded_to_the_end farPosition with ⟨-, hsteps, hvalues, -, hposition⟩
  rcases folded_to_the_end (farTag farPosition) with ⟨-, -, -, hway, htag⟩
  have hcall : Fold.Steps (farTag farPosition) (farTag (fold farPosition)) :=
    hsteps.lift farTag fun a b hab => .argument "index" (.col "tags") [] hab [] false
  rcases hway _ hcall with ⟨-, hend, hcompile⟩
  exact ⟨rfl, hpart, hvalues _ hpart, (hposition boxCompiler).2.1, hend hnone,
    hcompile boxCompiler, (htag boxCompiler).2.2 _ _ _ _ rfl, by decide +kernel⟩

end TypedQuery
