import TypedQuery.Proofs.Expr.Meaning
import TypedQuery.Proofs.Result

/-!
# Sources of an expression

Everything that an expression takes from outside itself comes from its sources: its paths, its
subqueries, the fragments compiled beforehand and the errors kept in it.  Constants are no sources,
and folding replaces nothing else, so that the folded expression has the same sources.
-/

namespace TypedQuery
namespace Expr

mutual

/-- The leaves of an expression that are no constants, from left to right. -/
def sources : Expr -> List Expr
  | .field path => [.field path]
  | .constant _ => []
  | .unary _ operand => operand.sources
  | .binary _ left right => left.sources ++ right.sources
  | .method _ receiver args _ => receiver.sources ++ allSources args
  | .function _ args => allSources args
  | .subquery s => [.subquery s]
  | .compiled fragment => [.compiled fragment]
  | .invalid error => [.invalid error]

def allSources : List Expr -> List Expr
  | [] => []
  | e :: rest => e.sources ++ allSources rest

end

def path? : Expr -> Option (List PathStep)
  | .field path => some path
  | _ => none

def paths (e : Expr) : List (List PathStep) := e.sources.filterMap path?

/-!
## Constants and plain expressions
-/

theorem sources_of_isNullConstant {e : Expr} (h : e.isNullConstant = true) : e.sources = [] := by
  cases e with
  | constant v => rfl
  | _ => cases h

def IsPathOrError (e : Expr) : Prop :=
  (exists path, e = .field path) ∨ exists error, e = .invalid error

theorem IsPathOrError.ne_subquery {q : Subquery} : ¬ (Expr.subquery q).IsPathOrError := by
  rintro (⟨path, h⟩ | ⟨error, h⟩) <;> cases h

theorem IsPathOrError.ne_compiled {f : TypedFragment} : ¬ (Expr.compiled f).IsPathOrError := by
  rintro (⟨path, h⟩ | ⟨error, h⟩) <;> cases h

mutual

/-- A plain expression has no sources but its paths and the errors kept in it. -/
theorem isPathOrError_of_isPlain {e : Expr} (hplain : e.isPlain = true) {source : Expr}
    (h : source ∈ e.sources) : source.IsPathOrError := by
  cases e with
  | field path => exact Or.inl ⟨path, List.mem_singleton.mp h⟩
  | constant v => cases h
  | unary op operand =>
      rw [isPlain] at hplain
      exact isPathOrError_of_isPlain hplain h
  | binary op left right =>
      rw [isPlain, Bool.and_eq_true] at hplain
      rcases List.mem_append.mp h with hleft | hright
      · exact isPathOrError_of_isPlain hplain.1 hleft
      · exact isPathOrError_of_isPlain hplain.2 hright
  | method name receiver args onServer =>
      rw [isPlain, Bool.and_eq_true] at hplain
      rcases List.mem_append.mp h with hreceiver | hargs
      · exact isPathOrError_of_isPlain hplain.1 hreceiver
      · exact isPathOrError_of_allPlain hplain.2 hargs
  | function name args =>
      rw [isPlain] at hplain
      exact isPathOrError_of_allPlain hplain h
  | subquery s => simp [isPlain] at hplain
  | compiled fragment => simp [isPlain] at hplain
  | invalid error => exact Or.inr ⟨error, List.mem_singleton.mp h⟩

theorem isPathOrError_of_allPlain {es : List Expr} (hplain : allPlain es = true) {source : Expr}
    (h : source ∈ allSources es) : source.IsPathOrError := by
  cases es with
  | nil => cases h
  | cons e rest =>
      rw [allPlain, Bool.and_eq_true] at hplain
      rcases List.mem_append.mp h with hfirst | hrest
      · exact isPathOrError_of_isPlain hplain.1 hfirst
      · exact isPathOrError_of_allPlain hplain.2 hrest

end

end Expr

theorem Expr.sources_conjunction? {es : List Expr} {e : Expr} (h : Expr.conjunction? es = some e) :
    e.sources = es.flatMap Expr.sources := by
  have hfold : forall (rest : List Expr) (first : Expr),
      (rest.foldl (Expr.binary .and) first).sources =
        first.sources ++ rest.flatMap Expr.sources := by
    intro rest
    induction rest with
    | nil => simp
    | cons next more ih =>
        intro first
        rw [List.foldl_cons, ih, Expr.sources, List.flatMap_cons, List.append_assoc]
  cases es with
  | nil => cases h
  | cons first rest =>
      cases h
      rw [hfold, List.flatMap_cons]

/-!
## Folding
-/

namespace Fold

open TypedQuery.Expr (sources allSources)

theorem sources_of_text? {e : Expr} {s : String} (h : text? e = some s) : e.sources = [] := by
  unfold text? at h
  split at h
  · rfl
  · cases h

theorem allSources_of_onText? {name subject : String} {args : List Expr} {v : Typed}
    (h : onText? name subject args = some v) : allSources args = [] := by
  have hsingle : forall {arg : Expr} {f : String -> Typed},
      ((text? arg).bind fun s => some (f s)) = some v -> allSources [arg] = [] := by
    intro arg f hbind
    rcases Option.bind_eq_some_iff.mp hbind with ⟨s, hs, -⟩
    rw [allSources, sources_of_text? hs]
    rfl
  unfold onText? at h
  split at h
  · rfl
  · rfl
  · rfl
  · exact hsingle h
  · exact hsingle h
  · exact hsingle h
  · cases h

theorem sources_unaryNode (op : UnaryOp) (operand : Expr) :
    (unaryNode op operand).sources = operand.sources := by
  unfold unaryNode
  split
  · split <;> rfl
  · rfl

theorem sources_binaryNode (op : BinaryOp) (left right : Expr) :
    (binaryNode op left right).sources = left.sources ++ right.sources := by
  unfold binaryNode
  split
  · split <;> rfl
  · rfl

theorem sources_methodNode (name : String) (receiver : Expr) (args : List Expr)
    (onServer : Bool) :
    (methodNode name receiver args onServer).sources = receiver.sources ++ allSources args := by
  unfold methodNode
  split
  · rfl
  · split
    · rename_i v hfolded
      rcases Option.bind_eq_some_iff.mp hfolded with ⟨subject, hsubject, hcall⟩
      rw [sources_of_text? hsubject, allSources_of_onText? hcall]
      rfl
    · rfl

mutual

theorem sources_fold (e : Expr) : (fold e).sources = e.sources := by
  cases e with
  | unary op operand => rw [fold, sources_unaryNode, sources_fold operand, sources]
  | binary op left right =>
      rw [fold, sources_binaryNode, sources_fold left, sources_fold right, sources]
  | method name receiver args onServer =>
      rw [fold, sources_methodNode, sources_fold receiver, allSources_foldAll args, sources]
  | function name args => rw [fold, sources, allSources_foldAll args, sources]
  | _ => rw [fold] <;> simp

theorem allSources_foldAll (es : List Expr) : allSources (foldAll es) = allSources es := by
  cases es with
  | nil => rfl
  | cons e rest => rw [foldAll, allSources, sources_fold e, allSources_foldAll rest, allSources]

end

end Fold

end TypedQuery
