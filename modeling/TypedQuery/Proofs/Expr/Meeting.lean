import TypedQuery.Proofs.Expr.Congruence

/-!
# Where two operands meet

Values of two operands are compared, looked for, or put together.  Each such meeting has its own
expression, asks for two types that can be compared, and is compiled from its compiled operands
unless it is evaluated.
-/

namespace TypedQuery

namespace Fold

/-- Two values of an operation that is evaluated are of one type, or both are numbers. -/
theorem types_of_binary? {op : BinaryOp} {l r w : Typed} (h : binary? op l r = some w)
    (hl : l.fits = true) (hr : r.fits = true) :
    l.type = r.type ∨ l.type.isNumeric = true ∧ r.type.isNumeric = true := by
  rcases binary?_cases h hl hr with ⟨hlt, hrt, -⟩ | ⟨hlt, hrt, -⟩ | ⟨hlt, hrt, -⟩ | ⟨htypes, -⟩
  · exact Or.inl (hlt.trans hrt.symm)
  · exact Or.inl (hlt.trans hrt.symm)
  · exact Or.inr ⟨hlt, hrt⟩
  · exact Or.inl htypes

end Fold

/-!
## Operators without JSON, and collections
-/

theorem TypedFragment.operator_of_isComparison {op : BinaryOp} (hop : op.isComparison = true)
    {f g : TypedFragment} (hf : f.type.isJson = false) (hg : g.type.isJson = false) :
    operator op f g = if f.type.comparable g.type then .ok (combine f op.sql g .boolean)
      else .error (.compile (.incomparable f.type g.type)) := by
  have hcomparison : operator op f g = comparison op f g := by
    cases op <;> first | rfl | cases hop
  rw [hcomparison]
  unfold comparison
  dsimp only
  rw [hf, hg]
  rfl

theorem TypedFragment.arithmetic_arrays {f g : TypedFragment} {a b : SqlType}
    (hf : f.type = .array a) (hg : g.type = .array b) :
    arithmetic .add f g = .ok (combine f "||" g f.type) := by
  unfold arithmetic
  dsimp only
  rw [hf, hg]
  rfl

namespace Compiler

theorem containsItem_eq {f g : TypedFragment} {item : SqlType} (hf : f.type = .array item)
    (e : Expr) :
    containsItem f ⟨e, .ok g⟩ =
      if item.comparable g.type then
        .ok ⟨((((Fragment.empty.text "(").nested g.query).text ") = ANY(").nested f.query).text ")",
          .boolean⟩
      else .error (.compile (.containsItem g.type f.type)) := by
  unfold containsItem
  dsimp only
  rw [Result.ok_bind, hf]
  rfl

theorem membership_rows {s : Subquery} {f g : TypedFragment} (hs : s.expression = .ok g)
    (x : Result TypedFragment) (negated : Bool) :
    membership f ⟨.subquery s, x⟩ negated =
      .ok ⟨(((Fragment.empty.text "(").nested f.query).text
        (if negated then ") NOT IN " else ") IN ")).nested g.query, .boolean⟩ := by
  unfold membership
  dsimp only
  rw [hs]
  rfl

theorem overlap_arrays {f g : TypedFragment} {a b : SqlType} (hf : f.type = .array a)
    (hg : g.type = .array b) (e : Expr) :
    overlap f ⟨e, .ok g⟩ = .ok (.combine f "&&" g .boolean) := by
  unfold overlap
  dsimp only
  rw [Result.ok_bind, hf, hg]
  rfl

end Compiler

/-!
## Meetings
-/

/-- Two operands, and what is done with them. -/
inductive Meeting where
  | comparison (op : BinaryOp) (isComparison : op.isComparison = true)
  | contains
  | amongValues (negated : Bool)
  | amongRows (negated : Bool)
  | overlap
  | sum

namespace Meeting

def name? : Meeting -> Option String
  | comparison _ _ | sum => none
  | contains => some "contains"
  | amongValues negated | amongRows negated => some (if negated then "pg_not_in" else "pg_in")
  | overlap => some "pg_contains_any"

def expr (m : Meeting) (left right : Expr) (onServer : Bool) : Expr :=
  match m with
  | comparison op _ => .binary op left right
  | sum => .binary .add left right
  | contains => .method "contains" left [right] onServer
  | amongValues negated | amongRows negated =>
      .method (if negated then "pg_not_in" else "pg_in") left [right] onServer
  | overlap => .method "pg_contains_any" left [right] onServer

def compiled (m : Meeting) (left right : Argument) : Result TypedFragment :=
  match m with
  | comparison op _ => Compiler.binary op left right
  | sum => Compiler.binary .add left right
  | contains => do Compiler.containsItem (<- left.compiled) right
  | amongValues negated | amongRows negated => do
      Compiler.membership (<- left.compiled) right negated
  | overlap => do Compiler.overlap (<- left.compiled) right

/-- The two types whose values meet: items where an operand is a collection. -/
def types? (m : Meeting) (l r : SqlType) : Option (SqlType × SqlType) :=
  match m, l, r with
  | comparison _ _, l, r => some (l, r)
  | contains, .array item, r => some (item, r)
  | amongValues _, l, .array item => some (l, item)
  | amongRows _, l, .array item => some (l, item)
  | overlap, .array item, .array other => some (item, other)
  | sum, .array item, .array other => some (item, other)
  | _, _, _ => none

theorem types?_arrays {m : Meeting} (hm : m = overlap ∨ m = sum) {l r a b : SqlType}
    (h : m.types? l r = some (a, b)) : l = .array a ∧ r = .array b := by
  rcases hm with rfl | rfl
  all_goals
    cases l with
    | array item =>
        cases r with
        | array other =>
            cases h
            exact ⟨rfl, rfl⟩
        | _ => cases h
    | _ => cases h

theorem types?_contains {l r a b : SqlType} (h : contains.types? l r = some (a, b)) :
    l = .array a ∧ r = b := by
  cases l with
  | array item =>
      cases h
      exact ⟨rfl, rfl⟩
  | _ => cases h

theorem types?_among {m : Meeting} {negated : Bool}
    (hm : m = amongValues negated ∨ m = amongRows negated) {l r a b : SqlType}
    (h : m.types? l r = some (a, b)) : l = a ∧ r = .array b := by
  rcases hm with rfl | rfl
  all_goals
    cases r with
    | array item =>
        cases h
        exact ⟨rfl, rfl⟩
    | _ => cases h

/-- Whether the registry leaves the meeting to the methods of every receiver. -/
def IsNative (m : Meeting) (calls : CallRegistry) (receiver : SqlType) : Prop :=
  forall name, m.name? = some name -> calls.method? receiver.kind name = none

theorem isNative_builtin {m : Meeting} {receiver : SqlType}
    (h : m = contains -> receiver.kind ≠ .string) : m.IsNative .builtin receiver := by
  intro name hname
  have hkind : forall kind, (m = contains -> kind ≠ TypeKind.string) ->
      CallRegistry.builtin.method? kind name = none := by
    intro kind hstring
    cases m with
    | comparison op isComparison => cases hname
    | sum => cases hname
    | contains =>
        cases hname
        cases kind <;> first | rfl | exact absurd rfl (hstring rfl)
    | overlap =>
        cases hname
        cases kind <;> rfl
    | amongValues negated =>
        cases hname
        cases negated <;> cases kind <;> rfl
    | amongRows negated =>
        cases hname
        cases negated <;> cases kind <;> rfl
  exact hkind receiver.kind h

/-- The meeting is not evaluated: constants are of types that no operation is evaluated for, and
no constant text is searched. -/
def IsKept (m : Meeting) (left right : Expr) : Prop :=
  match m with
  | comparison _ _ | sum => forall l r, fold left = .constant l -> fold right = .constant r ->
      l.type ≠ r.type ∧ (l.type.isNumeric = true -> r.type.isNumeric = false)
  | contains => Fold.text? (fold left) = none
  | _ => True

theorem fold_binary_of_isKept {op : BinaryOp} {left right : Expr} (hleft : left.isTyped = true)
    (hright : right.isTyped = true) (h : sum.IsKept left right) :
    fold (.binary op left right) = .binary op (fold left) (fold right) := by
  rw [fold]
  rcases Fold.binaryNode_cases op (fold left) (fold right) with ⟨l, r, w, hl, hr, hw, -⟩ | hsame
  · rcases h l r hl hr with ⟨htypes, hnumeric⟩
    rcases Fold.types_of_binary? hw (Fold.fits_of_fold hleft hl) (Fold.fits_of_fold hright hr) with
      hsame | ⟨hlnumeric, hrnumeric⟩
    · exact absurd hsame htypes
    · cases (hnumeric hlnumeric).symm.trans hrnumeric
  · exact hsame

theorem fold_method_of_isKept {name : String} {left right : Expr} {onServer : Bool}
    (hname : name ≠ "contains" ∨ Fold.text? (fold left) = none)
    (hnative : forall f args, (Compiler.native? name f args).isSome = true) :
    fold (.method name left [right] onServer) = .method name (fold left) [fold right] onServer := by
  rw [fold]
  rcases Fold.methodNode_cases name (fold left) (Fold.foldAll [right]) onServer with
    ⟨subject, w, hsubject, hw, -⟩ | hsame
  · rcases Fold.onText?_cases hw with ⟨-, hargs, -⟩ | ⟨-, hargs, -⟩ | ⟨hcall, -⟩
    · cases hargs
    · cases hargs
    · rcases hcall with rfl | rfl | rfl
      · cases hnative default []
      · cases hnative default []
      · rcases hname with hname | hname
        · exact absurd rfl hname
        · rw [hname] at hsubject
          cases hsubject
  · exact hsame

/-- The operands are of the form that the meeting is for.  An equality with the NULL constant is a
test for NULL, and compares nothing. -/
def Meets (m : Meeting) (left right : Expr) : Prop :=
  match m with
  | comparison op _ => op = .eq ∨ op = .ne ->
      (fold left).isNullConstant = false ∧ (fold right).isNullConstant = false
  | amongValues _ => exists items type, fold right = .constant ⟨.array items, type⟩
  | amongRows _ => exists s, right = .subquery s
  | _ => True

theorem nullTest?_of_meets {op : BinaryOp} {isComparison : op.isComparison = true}
    {left right : Expr} (h : (comparison op isComparison).Meets left right)
    (x y : Result TypedFragment) :
    Compiler.nullTest? op ⟨fold left, x⟩ ⟨fold right, y⟩ = none := by
  cases op with
  | eq =>
      rcases h (Or.inl rfl) with ⟨hleft, hright⟩
      exact Compiler.nullTest?_eq_none hleft hright
  | ne =>
      rcases h (Or.inr rfl) with ⟨hleft, hright⟩
      exact Compiler.nullTest?_eq_none hleft hright
  | _ => rfl

end Meeting

namespace Compiler

variable {c : Compiler} {left right : Expr} {f : TypedFragment}

theorem type_of_fold_constant (hf : c.compile left = .ok f) {v : Typed}
    (hv : fold left = .constant v) : f = .ofValue v := by
  rw [compile, hv, node] at hf
  cases hf
  rfl

theorem isKept_contains (hleft : left.isTyped = true) (hf : c.compile left = .ok f)
    {t a b : SqlType} (htypes : Meeting.contains.types? f.type t = some (a, b)) :
    Meeting.contains.IsKept left right := by
  cases htext : Fold.text? (fold left) with
  | none => exact htext
  | some text =>
      have hv := Fold.eq_of_text? (Fold.isTyped_fold hleft) htext
      rw [type_of_fold_constant hf hv] at htypes
      cases htypes

theorem binary_eq {op : BinaryOp} {x y : Expr} {f g : TypedFragment}
    (h : nullTest? op ⟨x, .ok f⟩ ⟨y, .ok g⟩ = none) :
    binary op ⟨x, .ok f⟩ ⟨y, .ok g⟩ =
      TypedFragment.operator op f ((TypedFragment.enumLabel? f.type y).getD g) := by
  unfold binary
  rw [h]
  dsimp only
  rw [Result.ok_bind]
  cases TypedFragment.enumLabel? f.type y <;> rfl

theorem compile_binary_of_isKept {op : BinaryOp} (hleft : left.isTyped = true)
    (hright : right.isTyped = true) (h : Meeting.sum.IsKept left right) :
    c.compile (.binary op left right) =
      binary op ⟨fold left, c.compile left⟩ ⟨fold right, c.compile right⟩ := by
  rw [compile, Meeting.fold_binary_of_isKept hleft hright h, node, compile, compile]

theorem compile_method_of_isKept (hf : c.compile left = .ok f) (name : String) {onServer : Bool}
    (hname : name ≠ "contains" ∨ Fold.text? (fold left) = none)
    (hmethod : c.calls.method? f.type.kind name = none) {result : Result TypedFragment}
    (hnative : forall f args, (native? name f args).isSome = true)
    (hresult : native? name f [⟨fold right, c.compile right⟩] = some result) :
    c.compile (.method name left [right] onServer) = result := by
  rw [compile, Meeting.fold_method_of_isKept hname hnative, node, <- compile, hf, Result.ok_bind]
  unfold methodCall
  dsimp only
  rw [hmethod, arguments, arguments, <- compile]
  simp only [List.isEmpty_cons, Bool.false_eq_true, if_false, hresult]

theorem compile_membership (hf : c.compile left = .ok f) (negated : Bool) {onServer : Bool}
    (hmethod : c.calls.method? f.type.kind (if negated then "pg_not_in" else "pg_in") = none) :
    c.compile (.method (if negated then "pg_not_in" else "pg_in") left [right] onServer) =
      membership f ⟨fold right, c.compile right⟩ negated := by
  cases negated with
  | false =>
      exact compile_method_of_isKept hf "pg_in" (Or.inl (by decide)) hmethod (fun _ _ => rfl) rfl
  | true =>
      exact compile_method_of_isKept hf "pg_not_in" (Or.inl (by decide)) hmethod
        (fun _ _ => rfl) rfl

/-- A meeting that is not evaluated is compiled from its compiled operands. -/
theorem compile_meeting {m : Meeting} (hleft : left.isTyped = true) (hright : right.isTyped = true)
    (hf : c.compile left = .ok f) (hnative : m.IsNative c.calls f.type)
    (hkept : m.IsKept left right) (onServer : Bool) :
    c.compile (m.expr left right onServer) =
      m.compiled ⟨fold left, c.compile left⟩ ⟨fold right, c.compile right⟩ := by
  cases m with
  | comparison op isComparison => exact compile_binary_of_isKept hleft hright hkept
  | sum => exact compile_binary_of_isKept hleft hright hkept
  | contains =>
      rw [Meeting.compiled, hf]
      exact compile_method_of_isKept hf "contains" (Or.inr hkept) (hnative _ rfl)
        (fun _ _ => rfl) rfl
  | overlap =>
      rw [Meeting.compiled, hf]
      exact compile_method_of_isKept hf "pg_contains_any" (Or.inl (by decide)) (hnative _ rfl)
        (fun _ _ => rfl) rfl
  | amongValues negated =>
      rw [Meeting.compiled, hf]
      exact compile_membership hf negated (hnative _ rfl)
  | amongRows negated =>
      rw [Meeting.compiled, hf]
      exact compile_membership hf negated (hnative _ rfl)

end Compiler
end TypedQuery
