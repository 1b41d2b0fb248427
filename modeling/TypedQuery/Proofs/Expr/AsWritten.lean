import TypedQuery.Expr.Compile
import TypedQuery.Proofs.Result

/-!
# Compiling as written

An expression can be compiled as it is written.  Registered methods and positions in arrays compile
arguments on their own, and so fold them even then; nothing else is folded.  Compiling an
expression is compiling the folded expression as it is written.
-/

namespace TypedQuery

/-!
## Folding twice
-/

namespace Fold

theorem unaryNode_cases (op : UnaryOp) (operand : Expr) :
    (exists v w, operand = .constant v ∧ unary? op v = some w ∧
      unaryNode op operand = .constant w) ∨
      unaryNode op operand = .unary op operand := by
  unfold unaryNode
  split
  · split
    · rename_i w hw
      exact Or.inl ⟨_, w, rfl, hw, rfl⟩
    · exact Or.inr rfl
  · exact Or.inr rfl

theorem binaryNode_cases (op : BinaryOp) (left right : Expr) :
    (exists l r w, left = .constant l ∧ right = .constant r ∧ binary? op l r = some w ∧
      binaryNode op left right = .constant w) ∨
      binaryNode op left right = .binary op left right := by
  unfold binaryNode
  split
  · split
    · rename_i w hw
      exact Or.inl ⟨_, _, w, rfl, rfl, hw, rfl⟩
    · exact Or.inr rfl
  · exact Or.inr rfl

theorem methodNode_cases (name : String) (receiver : Expr) (args : List Expr) (onServer : Bool) :
    (exists subject w, text? receiver = some subject ∧ onText? name subject args = some w ∧
      methodNode name receiver args onServer = .constant w) ∨
      methodNode name receiver args onServer = .method name receiver args onServer := by
  unfold methodNode
  split
  · exact Or.inr rfl
  · split
    · rename_i w hw
      rcases Option.bind_eq_some_iff.mp hw with ⟨subject, hsubject, hcall⟩
      exact Or.inl ⟨subject, w, hsubject, hcall, rfl⟩
    · exact Or.inr rfl

theorem onText?_cases {name subject : String} {args : List Expr} {v : Typed}
    (h : onText? name subject args = some v) :
    (name = "to_upper" ∨ name = "to_lower") ∧ args = [] ∧ (exists text, v = ofText text) ∨
      name = "length" ∧ args = [] ∧ (exists n, v = ⟨.int n, .integer⟩) ∨
      (name = "starts_with" ∨ name = "ends_with" ∨ name = "contains") ∧
        exists arg s b, args = [arg] ∧ text? arg = some s ∧ v = boolean b := by
  have htest : forall {arg : Expr} {g : String -> Bool},
      ((text? arg).bind fun s => some (boolean (g s))) = some v ->
        exists arg' s b, [arg] = [arg'] ∧ text? arg' = some s ∧ v = boolean b := by
    intro arg g hbind
    rcases Option.bind_eq_some_iff.mp hbind with ⟨s, hs, hv⟩
    exact ⟨arg, s, g s, rfl, hs, (Option.some.inj hv).symm⟩
  unfold onText? at h
  split at h
  · exact Or.inl ⟨Or.inl rfl, rfl, _, (Option.some.inj h).symm⟩
  · exact Or.inl ⟨Or.inr rfl, rfl, _, (Option.some.inj h).symm⟩
  · rcases Option.map_eq_some_iff.mp h with ⟨n, -, hv⟩
    exact Or.inr (Or.inl ⟨rfl, rfl, n, hv.symm⟩)
  · exact Or.inr (Or.inr ⟨Or.inl rfl, htest h⟩)
  · exact Or.inr (Or.inr ⟨Or.inr (Or.inl rfl), htest h⟩)
  · exact Or.inr (Or.inr ⟨Or.inr (Or.inr rfl), htest h⟩)
  · cases h

mutual

theorem fold_fold (e : Expr) : fold (fold e) = fold e := by
  cases e with
  | unary op operand =>
      rw [fold]
      rcases unaryNode_cases op (fold operand) with ⟨_, v, -, -, hv⟩ | hsame
      · rw [hv]
        rfl
      · conv => lhs; rw [hsame, fold, fold_fold operand]
  | binary op left right =>
      rw [fold]
      rcases binaryNode_cases op (fold left) (fold right) with ⟨_, _, v, -, -, -, hv⟩ | hsame
      · rw [hv]
        rfl
      · conv => lhs; rw [hsame, fold, fold_fold left, fold_fold right]
  | method name receiver args onServer =>
      rw [fold]
      rcases methodNode_cases name (fold receiver) (foldAll args) onServer with
        ⟨_, v, -, -, hv⟩ | hsame
      · rw [hv]
        rfl
      · conv => lhs; rw [hsame, fold, fold_fold receiver, foldAll_foldAll args]
  | function name args => rw [fold, fold, foldAll_foldAll args]
  | _ => rfl

theorem foldAll_foldAll (es : List Expr) : foldAll (foldAll es) = foldAll es := by
  cases es with
  | nil => rfl
  | cons e rest => rw [foldAll, foldAll, fold_fold e, foldAll_foldAll rest]

end

end Fold

/-!
## Without folding
-/

namespace Compiler

/-- Whether what answers a call compiles the arguments on its own. -/
def foldsArguments (calls : CallRegistry) (name : String) (receiver : SqlType) : Bool :=
  (calls.method? receiver.kind name).isSome || (name == "index" && receiver.isArray)

mutual

/-- Compiles a tree as it is written. -/
def asWritten (c : Compiler) : Expr -> Result TypedFragment
  | .unary op operand => do TypedFragment.unary op (<- c.asWritten operand)
  | .binary op left right => binary op ⟨left, c.asWritten left⟩ ⟨right, c.asWritten right⟩
  | .method name receiver args _ => do
      let receiver <- c.asWritten receiver
      methodCall c.calls name receiver
        (if foldsArguments c.calls name receiver.type then c.arguments (Fold.foldAll args)
        else c.argumentsAsWritten args)
  | .function name args => sqlFunction name none (c.argumentsAsWritten args)
  | e => c.node e

def argumentsAsWritten (c : Compiler) : List Expr -> List Argument
  | [] => []
  | e :: rest => ⟨e, c.asWritten e⟩ :: c.argumentsAsWritten rest

end

mutual

/-- Where there is nothing to fold, a tree is compiled as it is. -/
theorem asWritten_of_folded (c : Compiler) {e : Expr} (h : fold e = e) :
    c.asWritten e = c.node e := by
  cases e with
  | unary op operand =>
      rw [fold] at h
      rcases Fold.unaryNode_cases op (fold operand) with ⟨_, v, -, -, hv⟩ | hsame
      · cases hv.symm.trans h
      · injection hsame.symm.trans h with _ hoperand
        rw [asWritten, node, asWritten_of_folded c hoperand]
  | binary op left right =>
      rw [fold] at h
      rcases Fold.binaryNode_cases op (fold left) (fold right) with ⟨_, _, v, -, -, -, hv⟩ | hsame
      · cases hv.symm.trans h
      · injection hsame.symm.trans h with _ hleft hright
        rw [asWritten, node, asWritten_of_folded c hleft, asWritten_of_folded c hright]
  | method name receiver args onServer =>
      rw [fold] at h
      rcases Fold.methodNode_cases name (fold receiver) (Fold.foldAll args) onServer with
        ⟨_, v, -, -, hv⟩ | hsame
      · cases hv.symm.trans h
      · injection hsame.symm.trans h with _ hreceiver hargs
        rw [asWritten, node, asWritten_of_folded c hreceiver, hargs,
          argumentsAsWritten_of_folded c hargs]
        simp only [ite_self]
  | function name args =>
      rw [fold] at h
      injection h with _ hargs
      rw [asWritten, node, argumentsAsWritten_of_folded c hargs]
  | _ => rfl

theorem argumentsAsWritten_of_folded (c : Compiler) {es : List Expr} (h : Fold.foldAll es = es) :
    c.argumentsAsWritten es = c.arguments es := by
  cases es with
  | nil => rw [argumentsAsWritten, arguments]
  | cons e rest =>
      rw [Fold.foldAll] at h
      injection h with hfirst hrest
      rw [argumentsAsWritten, arguments, asWritten_of_folded c hfirst,
        argumentsAsWritten_of_folded c hrest]

end

theorem compile_eq_asWritten (c : Compiler) (e : Expr) : c.compile e = c.asWritten (fold e) :=
  (c.asWritten_of_folded (Fold.fold_fold e)).symm

end Compiler
end TypedQuery
