import TypedQuery.Proofs.Expr.Accepted

/-!
# Types that expressions have on the server

An expression whose operands have the types on the server that they are declared to have has the
declared type itself, unless it is one of a few.  A constant that is written without its type loses
it.  Some operations and calls are declared to have another type than the server gives them: a date
that is moved by an interval, a call of a function that the server picks by other types, and arrays
put together.
-/

namespace TypedQuery

open Server

/-!
## Constants
-/

namespace Typed

def isBareText (v : Typed) : Bool := v.type = .text && !v.isBound

/-- The type that the text of a constant has if the type of the constant is the server's. -/
def served (v : Typed) : ServerType := if v.isBareText then .unknown else v.type.onServer

/-- A NULL and a whole number are written without a cast: the NULL loses the type that it is
declared to have, and the number one that is wider than the server reads it. -/
def LosesType (v : Typed) : Prop :=
  v.value = .null ∧ v.type ≠ .null ∧ v.type ≠ .text ∨
    exists n, v.value = .bigint n ∧ -(Number.twoPow 31) ≤ n.toInt ∧ n.toInt < Number.twoPow 31

variable {columns : Option String -> String -> Option ServerType} {v : Typed} {s : ServerType}

theorem type?_integerTree (n : Int) :
    (integerTree n).type? columns = some (.ofInteger n) := by
  cases n with
  | ofNat n => rfl
  | negSucc n => rfl

theorem ofInteger_int32 (n : Int32) : ServerType.ofInteger n.toInt = .int4 := by
  have hle := n.le_toInt
  have hlt := n.toInt_lt
  exact if_pos ⟨hle, hlt⟩

theorem ofInteger_int64 (n : Int64) :
    ServerType.ofInteger n.toInt =
      if -(Number.twoPow 31) ≤ n.toInt ∧ n.toInt < Number.twoPow 31 then .int4 else .int8 := by
  have hle := n.le_toInt
  have hlt := n.toInt_lt
  unfold ServerType.ofInteger
  split
  · rfl
  · exact if_pos ⟨hle, hlt⟩

theorem type?_of_isBound (hfits : v.fits = true) (hbound : v.isBound = true)
    (h : v.tree.type? columns = some s) : s = v.type.onServer := by
  rw [tree, hbound, if_pos rfl, castType?_of_isBound hfits hbound] at h
  exact Tree.type?_cast h

theorem not_losesType_of_isBound (hbound : v.isBound = true) : ¬v.LosesType := by
  rcases v with ⟨value, type⟩
  rintro (⟨hnull, -⟩ | ⟨n, hn, -⟩)
  · cases hnull
    cases hbound
  · cases hn
    cases hbound

theorem served_of_isBound (hbound : v.isBound = true) : v.served = v.type.onServer := by
  rw [served, isBareText, hbound, Bool.not_true, Bool.and_false, if_neg Bool.false_ne_true]

theorem served_of_ne_text (htext : v.type ≠ .text) : v.served = v.type.onServer := by
  rw [served, isBareText, decide_eq_false htext, Bool.false_and, if_neg Bool.false_ne_true]

theorem served_null (type : SqlType) :
    served ⟨.null, type⟩ = .unknown <-> type = .null ∨ type = .text := by
  by_cases htext : type = .text
  · subst htext
    exact ⟨fun _ => Or.inr rfl, fun _ => rfl⟩
  · have hserved : served ⟨.null, type⟩ = type.onServer := served_of_ne_text htext
    rw [hserved]
    constructor
    · intro h
      exact Or.inl (SqlType.onServer_eq_unknown h)
    · rintro (rfl | rfl)
      · rfl
      · exact absurd rfl htext

/-- A constant has the type that it is declared to have exactly when it does not lose it. -/
theorem type?_tree (hfits : v.fits = true) (h : v.tree.type? columns = some s) :
    s = v.served <-> ¬v.LosesType := by
  cases hbound : v.isBound with
  | true =>
      have hs := type?_of_isBound hfits hbound h
      rw [served_of_isBound hbound]
      exact ⟨fun _ => not_losesType_of_isBound hbound, fun _ => hs⟩
  | false =>
      rw [tree, hbound, if_neg Bool.false_ne_true] at h
      rcases v with ⟨value, type⟩
      cases value with
      | null =>
          have hs : s = .unknown := (Option.some.inj h).symm
          rw [hs, eq_comm, served_null]
          simp [LosesType, or_iff_not_imp_left]
      | bool b =>
          have htype : type = .boolean := Value.type_of_fits hfits rfl
          have hs : s = .boolean := by cases b <;> exact (Option.some.inj h).symm
          subst htype
          simp [hs, LosesType, served_of_ne_text, SqlType.onServer]
      | int n =>
          have htype : type = .integer := Value.type_of_fits hfits rfl
          subst htype
          rw [Value.tree, type?_integerTree, ofInteger_int32] at h
          simp [<- Option.some.inj h, LosesType, served_of_ne_text, SqlType.onServer]
      | bigint n =>
          have htype : type = .bigint := Value.type_of_fits hfits rfl
          subst htype
          rw [Value.tree, type?_integerTree, ofInteger_int64] at h
          by_cases hnarrow : -(Number.twoPow 31) ≤ n.toInt ∧ n.toInt < Number.twoPow 31
          · rw [if_pos hnarrow] at h
            simp [<- Option.some.inj h, LosesType, served_of_ne_text, SqlType.onServer, hnarrow]
          · rw [if_neg hnarrow] at h
            simp [<- Option.some.inj h, LosesType, served_of_ne_text, SqlType.onServer, hnarrow]
      | text text =>
          have htype : type = .text := Value.type_of_fits hfits rfl
          have hs : s = .unknown := (Option.some.inj h).symm
          subst htype
          simp [hs, LosesType, served, isBareText, hbound]
      | _ => cases hbound

end Typed

/-!
## Operators
-/

namespace SqlType

def movesDate (op : BinaryOp) (l r : SqlType) : Bool :=
  (op = .add || op = .sub) && l = date && r = interval || op = .add && l = interval && r = date

theorem movesDate_eq_true {op : BinaryOp} {l r : SqlType} (h : movesDate op l r = true) :
    (op = .add ∨ op = .sub) ∧ l = date ∧ r = interval ∨ op = .add ∧ l = interval ∧ r = date := by
  simpa [movesDate, and_assoc] using h

theorem movesDate_of_isTextual (op : BinaryOp) {l r : SqlType}
    (hl : TypedFragment.isTextual l = true) (hr : TypedFragment.isTextual r = true) :
    movesDate op l r = false := by
  cases l <;> cases hl
  all_goals cases r <;> cases hr <;> simp [movesDate]

theorem movesDate_of_isArray (op : BinaryOp) {l : SqlType} (hl : l.isArray = true) (r : SqlType) :
    movesDate op l r = false := by
  cases l <;> cases hl
  simp [movesDate]

/-- A date that is moved by an interval is declared to be a date, but for the server it is a
timestamp. -/
theorem Calculates.of_movesDate {op : BinaryOp} {l r t : SqlType} (h : Calculates op l r t)
    (hdate : movesDate op l r = true) :
    t = date ∧ ServerType.arithmetic? op.sql l.onServer r.onServer = some .timestamp := by
  rcases movesDate_eq_true hdate with ⟨hop, rfl, rfl⟩ | ⟨rfl, rfl, rfl⟩
  · cases h with
    | moved hl hop => exact ⟨rfl, by rcases hop with rfl | rfl <;> rfl⟩
    | numbers hl hr => cases hl
  · cases h with
    | moving hr hop => exact ⟨rfl, rfl⟩
    | numbers hl hr => cases hl
    | scaled hr hop => cases hr

/-- The server gives the result of arithmetic the type that is declared, except where a date is
moved by an interval. -/
theorem Calculates.onServer {op : BinaryOp} {l r t : SqlType} (h : Calculates op l r t)
    (hdate : movesDate op l r = false) :
    ServerType.arithmetic? op.sql l.onServer r.onServer = some t.onServer := by
  cases h with
  | besideNull hl => cases l <;> cases hl <;> rfl
  | nullBeside hr => cases r <;> cases hr <;> rfl
  | numbers hl hr =>
      cases l <;> cases hl
      all_goals cases r <;> cases hr <;> rfl
  | moved hl hop =>
      rcases hop with rfl | rfl
      all_goals cases l <;> cases hl <;> first | rfl | cases hdate
  | moving hr hop =>
      subst hop
      cases r <;> cases hr <;> first | rfl | cases hdate
  | intervals hop => rcases hop with rfl | rfl <;> rfl
  | timestamps hop =>
      subst hop
      rfl
  | dates hop =>
      subst hop
      rfl
  | scaled hr hop =>
      rcases hop with rfl | rfl
      all_goals cases r <;> cases hr <;> rfl

end SqlType

def ServerType.isTextual : ServerType -> Bool
  | text | unknown | enum _ _ => true
  | _ => false

theorem ServerType.concatenation?_textual {l r : ServerType} (hl : l.isTextual = true)
    (hr : r.isTextual = true)
    (h : (l = .text ∨ l = .unknown) ∨ r = .text ∨ r = .unknown) :
    concatenation? l r = some .text := by
  cases l <;> cases hl
  all_goals cases r <;> cases hr
  all_goals first | rfl | simp at h

namespace BinaryOp

theorem operator?_of_not_arithmetic {op : BinaryOp} (h : op.isArithmetic = false)
    {l r s : ServerType} (hs : ServerType.operator? op.sql l r = some s) : s = .boolean := by
  cases op with
  | and | or =>
      have hlogic : (if l.isTruth && r.isTruth then some ServerType.boolean else none) = some s :=
        hs
      split at hlogic
      · exact (Option.some.inj hlogic).symm
      · cases hlogic
  | add | sub | mul | div => cases h
  | _ => exact (Option.some.inj hs).symm

theorem operator?_of_isArithmetic {op : BinaryOp} (h : op.isArithmetic = true) (l r : ServerType) :
    ServerType.operator? op.sql l r = ServerType.arithmetic? op.sql l r := by
  cases op <;> cases h <;> rfl

end BinaryOp

/-!
## Expressions
-/

/-- A constant whose text has another type than it is declared to have. -/
def Expr.LosesType : Expr -> Prop
  | .constant v => v.LosesType
  | _ => False

def Expr.isBareText : Expr -> Bool
  | .constant v => v.isBareText
  | _ => false

namespace Compiler

variable {c : Compiler} {scopes : Scopes} {columns : Option String -> String -> Option ServerType}

/-- The type that the text of an expression has if the declared type is the server's. -/
def served (c : Compiler) (e : Expr) : ServerType :=
  if e.isBareText then .unknown else (c.typeOf e).onServer

/-- The declared type of an expression is the one that the server assigns to what it means. -/
def Serves (c : Compiler) (scopes : Scopes)
    (columns : Option String -> String -> Option ServerType) (e : Expr) : Prop :=
  (c.meaning scopes e).type? columns = some (c.served e)

theorem served_of_ne_text {e : Expr} (h : c.typeOf e ≠ .text) :
    c.served e = (c.typeOf e).onServer := by
  cases e with
  | constant v => exact Typed.served_of_ne_text h
  | _ => rfl

/-!
## Calls
-/

end Compiler

def SqlFunction.isServed (f : SqlFunction) : Bool :=
  match f.returns with
  | .type t =>
      ServerType.fixedCalls.lookup f.name =
        some (if f.name = "now" then .timestamptz else t.onServer) &&
        (f.name != "now" || t = .timestamp)
  | .argument _ =>
      ServerType.fixedCalls.lookup f.name = none && f.defaults.isEmpty && f.name != "now"

theorem SqlFunction.catalog_isServed : forall f, f ∈ catalog -> f.isServed = true := by
  decide +kernel

namespace Compiler

variable {c : Compiler} {scopes : Scopes} {columns : Option String -> String -> Option ServerType}

/-- A call that is declared to have the type of an argument, but that the server takes for one of
another type, and a call of `now`, which has a time zone. -/
def CallMisdeclares (c : Compiler) (name : String) (args : List Expr) : Prop :=
  exists f, SqlFunction.lookup? name = some f ∧
    (f.name = "now" ∨ exists position s, f.returns = .argument position ∧
      ServerType.call? f.name (args.map c.served) = some s ∧
        s ≠ (f.returns.resolve (args.map c.typeOf)).onServer)

theorem type?_functionTree {name : String} {f : SqlFunction}
    (hlookup : SqlFunction.lookup? name = some f) {args : List Expr}
    (hserves : forall arg, arg ∈ args -> c.Serves scopes columns arg) {s : ServerType}
    (hs : (functionTree name (args.map (c.meaning scopes))).type? columns = some s) :
    s = (f.returns.resolve (args.map c.typeOf)).onServer <-> ¬c.CallMisdeclares name args := by
  have hserved := SqlFunction.catalog_isServed f (SqlFunction.mem_of_lookup? hlookup)
  have hmisdeclares : c.CallMisdeclares name args <->
      f.name = "now" ∨ exists position s, f.returns = .argument position ∧
        ServerType.call? f.name (args.map c.served) = some s ∧
          s ≠ (f.returns.resolve (args.map c.typeOf)).onServer := by
    unfold CallMisdeclares
    rw [hlookup]
    simp
  rw [functionTree, hlookup] at hs
  dsimp only at hs
  unfold SqlFunction.isServed at hserved
  rw [hmisdeclares]
  cases hreturns : f.returns with
  | type t =>
      simp only [hreturns, Bool.and_eq_true, decide_eq_true_eq] at hserved
      rw [Returns.resolve, Tree.type?_fixedCall hserved.1 hs]
      by_cases hnow : f.name = "now"
      · have ht : t = .timestamp := by simpa [hnow] using hserved.2
        simp [hnow, ht, SqlType.onServer]
      · simp [hnow]
  | argument position =>
      simp only [hreturns, Bool.and_eq_true, decide_eq_true_eq, List.isEmpty_iff, bne_iff_ne]
        at hserved
      rcases hserved with ⟨⟨-, hdefaults⟩, hnow⟩
      -- Without defaults, the server sees the types of the arguments alone.
      have hmissing : f.missingDefaults (args.map (c.meaning scopes)).length = [] := by
        rw [SqlFunction.missingDefaults, hdefaults, List.drop_nil]
      rw [Tree.type?] at hs
      rcases Option.bind_eq_some_iff.mp hs with ⟨types, htypes, hcall⟩
      rw [hmissing, List.map_nil, List.append_nil, Tree.types?_map hserves] at htypes
      rw [<- Option.some.inj htypes] at hcall
      simp [hnow, hcall]

theorem not_callMisdeclares_length (args : List Expr) : ¬c.CallMisdeclares "length" args := by
  rintro ⟨f, hlookup, hmisdeclares⟩
  cases lookup?_length.symm.trans hlookup
  rcases hmisdeclares with hnow | ⟨_, _, hreturns, -⟩
  · exact absurd hnow (by decide)
  · cases hreturns

theorem lookup_lengthFunctions :
    forall f, f ∈ lengthFunctions -> ServerType.fixedCalls.lookup f = some .int4 := by
  decide

theorem served_length {receiver f : TypedFragment} {args : List Expr}
    (hcall : methodCall .builtin "length" receiver (c.arguments args) = .ok f) {m : Meant}
    {ms : List Meant} {s : ServerType} (hs : (methodTree "length" m ms).type? columns = some s) :
    f.type = .integer ∧ s = .int4 := by
  have hname : answeredNames.contains "length" = false := by decide
  constructor
  · rcases methodCall_eq_ok hname hcall with hcall | ⟨-, -, htype⟩
    · rcases sqlFunction_eq_ok hcall with ⟨-, function, hlookup, htype⟩
      cases lookup?_length.symm.trans hlookup
      exact htype
    · exact htype
  · rcases methodTree_cases hname m ms with htree | ⟨-, -, called, hcalled, htree⟩
    · rw [htree, functionTree, lookup?_length] at hs
      exact Tree.type?_fixedCall rfl hs
    · rw [htree] at hs
      exact Tree.type?_fixedCall (lookup_lengthFunctions called hcalled) hs

/-!
## Where the types part
-/

/-- An operation or a call that is declared to have another type than the server gives it, although
all that it is made of is not. -/
def Misdeclares (c : Compiler) : Expr -> Prop
  | .binary op left right =>
      SqlType.movesDate op (c.typeOf left) (c.typeOf right) = true ∨
        op = .add ∧ (c.typeOf left).isArray = true ∧ exists s,
          ServerType.concatenation? (c.served left) (c.served right) = some s ∧
            s ≠ (c.typeOf left).onServer
  | .method name receiver args _ => c.CallMisdeclares name (receiver :: args)
  | .function name args => c.CallMisdeclares name args
  | _ => False

/-- The columns of the tables in scope have the types they are declared to have. -/
def Knows (c : Compiler) (scopes : Scopes)
    (columns : Option String -> String -> Option ServerType) : Prop :=
  forall slot t column, c.scope.table slot = .ok t -> column ∈ t.columns ->
    columns (scopes.qualifierName? slot) column.name = some column.type.onServer

theorem serves_iff_eq {e : Expr} {s : ServerType}
    (hs : (c.meaning scopes e).type? columns = some s) :
    c.Serves scopes columns e <-> s = c.served e := by
  rw [Serves, hs, Option.some_inj]

theorem not_misdeclares_of_not_isArithmetic {op : BinaryOp} (h : op.isArithmetic = false)
    (left right : Expr) : ¬c.Misdeclares (.binary op left right) := by
  rintro (hdate | ⟨rfl, -⟩)
  · rcases SqlType.movesDate_eq_true hdate with ⟨rfl | rfl, -⟩ | ⟨rfl, -⟩ <;> cases h
  · cases h

theorem served_field (hcolumns : c.Knows scopes columns) {path : List PathStep}
    (hnode : path.all PathStep.isColumnStep = true) {f : TypedFragment}
    (hf : c.node (.field path) = .ok f) {s : ServerType}
    (hs : (c.meaning scopes (.field path)).type? columns = some s) : s = f.type.onServer := by
  rw [node] at hf
  rcases Result.bind_eq_ok.mp hf with ⟨q, hq, hexpr⟩
  cases hexpr
  rcases resolvePath_cases hq with ⟨slot, column, start, steps, hstart, hexpr, hsteps⟩
  rcases start?_eq_ok hstart with ⟨⟨t, htable, hcolumn⟩, front, hpath⟩
  cases steps with
  | nil =>
      cases hsteps
      rw [meaning, pathTree, hstart] at hs
      cases (hcolumns slot t column htable hcolumn).symm.trans hs
      rw [hexpr]
  | cons step rest =>
      have hstep : step.isColumnStep = true :=
        List.all_eq_true.mp hnode step (hpath ▸ List.mem_append_right _ List.mem_cons_self)
      rw [List.foldlM_cons] at hsteps
      rcases Result.bind_eq_ok.mp hsteps with ⟨next, hnext, -⟩
      exact absurd hnext (step_of_isColumnStep hstep start next)

theorem served_unary {op : UnaryOp} {operand : Expr} {f : TypedFragment}
    (hf : c.node (.unary op operand) = .ok f) {s : ServerType}
    (hs : (c.meaning scopes (.unary op operand)).type? columns = some s) :
    s = f.type.onServer := by
  rw [node] at hf
  rcases Result.bind_eq_ok.mp hf with ⟨g, -, hresult⟩
  have htype := TypedFragment.typeOf?_unary op g
  rw [hresult] at htype
  rw [meaning] at hs
  cases op with
  | not =>
      rw [UnaryOp.tree, Tree.type?] at hs
      rcases Option.bind_eq_some_iff.mp hs with ⟨t, -, hs⟩
      simp only [Tree.prefixed?, UnaryOp.result?] at hs htype
      split at hs
      · split at htype
        · rw [<- Option.some.inj hs, Option.some.inj htype]
          rfl
        · cases htype
      · cases hs
  | cast type =>
      cases htype
      exact Tree.type?_cast hs
  | arrayLength =>
      simp only [UnaryOp.result?] at htype
      split at htype
      · rw [Tree.type?_fixedCall rfl hs, Option.some.inj htype]
        rfl
      · cases htype

theorem operatorTree_of_isArithmetic {op : BinaryOp} (h : op.isArithmetic = true)
    (result : SqlType) (left right : Meant) :
    op.operatorTree result left right = .binary (op.symbol result) left.tree right.tree := by
  have hcomparison : op.isComparison = false := by
    cases op <;> first | rfl | cases h
  unfold BinaryOp.operatorTree
  rw [hcomparison]
  rfl

theorem result?_of_not_arithmetic {op : BinaryOp} (h : op.isArithmetic = false) {l r t : SqlType}
    (hresult : op.result? l r = some t) : t = .boolean := by
  cases op <;> cases h
  all_goals
    simp only [BinaryOp.result?] at hresult
    split at hresult
    · exact (Option.some.inj hresult).symm
    · cases hresult

theorem served_of_text {e : Expr} (h : c.typeOf e = .text) :
    c.served e = .text ∨ c.served e = .unknown := by
  unfold served
  split
  · exact Or.inr rfl
  · rw [h]
    exact Or.inl rfl

theorem isTextual_served {e : Expr} (h : TypedFragment.isTextual (c.typeOf e) = true) :
    (c.served e).isTextual = true ∧ (c.typeOf e).isArray = false := by
  by_cases htext : c.typeOf e = .text
  · rw [htext]
    rcases served_of_text htext with hserved | hserved
    · rw [hserved]
      exact ⟨rfl, rfl⟩
    · rw [hserved]
      exact ⟨rfl, rfl⟩
  · rw [served_of_ne_text htext]
    cases htype : c.typeOf e <;> rw [htype] at h <;> first | exact ⟨rfl, rfl⟩ | cases h

theorem not_misdeclares {op : BinaryOp} {left right : Expr}
    (hdate : SqlType.movesDate op (c.typeOf left) (c.typeOf right) = false)
    (h : (c.typeOf left).isArray = false) : ¬c.Misdeclares (.binary op left right) := by
  rintro (hmoves | ⟨-, harray, -⟩)
  · cases hdate.symm.trans hmoves
  · cases h.symm.trans harray

theorem served_calculates_iff {op : BinaryOp} {left right : Expr} {t : SqlType}
    (hcalculates : SqlType.Calculates op (c.typeOf left) (c.typeOf right) t) {s : ServerType}
    (hs : ServerType.arithmetic? op.sql (c.typeOf left).onServer (c.typeOf right).onServer =
      some s) :
    s = t.onServer <-> ¬c.Misdeclares (.binary op left right) := by
  cases hdate : SqlType.movesDate op (c.typeOf left) (c.typeOf right) with
  | true =>
      rcases hcalculates.of_movesDate hdate with ⟨rfl, htimestamp⟩
      cases htimestamp.symm.trans hs
      exact ⟨fun h => ServerType.noConfusion h, fun h => absurd (Or.inl hdate) h⟩
  | false =>
      rcases hcalculates.isScalar with ⟨⟨-, harray⟩, -⟩
      cases (hcalculates.onServer hdate).symm.trans hs
      exact ⟨fun _ => not_misdeclares hdate harray, fun _ => rfl⟩

theorem served_arithmetic_iff {op : BinaryOp} (hop : op.isArithmetic = true) {left right : Expr}
    {t : SqlType} (hresult : op.result? (c.typeOf left) (c.typeOf right) = some t)
    (hleft : c.Serves scopes columns left) (hright : c.Serves scopes columns right)
    {s : ServerType}
    (hs : (Tree.binary (op.symbol t) (c.meaning scopes left) (c.meaning scopes right)).type?
      columns = some s) :
    s = t.onServer <-> ¬c.Misdeclares (.binary op left right) := by
  rw [Tree.type?, hleft, Option.bind_some, hright, Option.bind_some] at hs
  have harithmetic : op.arithmeticResult? (c.typeOf left) (c.typeOf right) = some t := by
    cases op <;> first | exact hresult | cases hop
  unfold BinaryOp.arithmeticResult? at harithmetic
  split at harithmetic
  · rename_i hcase
    simp only [Bool.and_eq_true, Bool.or_eq_true, decide_eq_true_eq] at hcase
    rcases hcase with ⟨⟨⟨rfl, htext⟩, hl⟩, hr⟩
    cases harithmetic
    have hdate := SqlType.movesDate_of_isTextual .add hl hr
    rcases isTextual_served hl with ⟨hl, harray⟩
    have hconcatenation := ServerType.concatenation?_textual hl (isTextual_served hr).1
      (htext.imp served_of_text served_of_text)
    cases hconcatenation.symm.trans hs
    exact ⟨fun _ => not_misdeclares hdate harray, fun _ => rfl⟩
  split at harithmetic
  · rename_i hcase
    simp only [Bool.and_eq_true, decide_eq_true_eq] at hcase
    rcases hcase with ⟨⟨rfl, harray⟩, -⟩
    cases harithmetic
    have hsymbol : BinaryOp.symbol .add (c.typeOf left) = "||" := by
      simp [BinaryOp.symbol, harray]
    rw [hsymbol] at hs
    have hconcatenation : ServerType.concatenation? (c.served left) (c.served right) = some s := hs
    have hdate := SqlType.movesDate_of_isArray .add harray (c.typeOf right)
    simp [Misdeclares, hdate, harray, hconcatenation]
  · have hcalculates := SqlType.calculates_of_arithmetic? harithmetic
    rcases hcalculates.isScalar with ⟨⟨hl, -⟩, ⟨hr, -⟩, ht⟩
    rw [op.symbol_of_isScalar ht, BinaryOp.operator?_of_isArithmetic hop, served_of_ne_text hl,
      served_of_ne_text hr] at hs
    exact served_calculates_iff hcalculates hs

theorem served_binary_iff {op : BinaryOp} {left right : Expr} {f : TypedFragment}
    (hf : c.node (.binary op left right) = .ok f)
    (hleft : c.Serves scopes columns left) (hright : c.Serves scopes columns right)
    {s : ServerType} (hs : (c.meaning scopes (.binary op left right)).type? columns = some s) :
    s = f.type.onServer <-> ¬c.Misdeclares (.binary op left right) := by
  have htruth : op.isArithmetic = false -> f.type = .boolean -> s = .boolean ->
      (s = f.type.onServer <-> ¬c.Misdeclares (.binary op left right)) := by
    intro hop htype hs
    rw [htype, hs]
    exact ⟨fun _ => not_misdeclares_of_not_isArithmetic hop left right, fun _ => rfl⟩
  rcases node_binary_cases hf with
    ⟨subject, other, htest⟩ | ⟨g, t, hg, ht, hresult, hmeaning⟩
  · have harithmetic : op.isArithmetic = false := by
      have hop := htest.isComparison
      cases op <;> first | rfl | cases hop
    rw [htest.meaning_eq, Tree.type?] at hs
    rcases Option.map_eq_some_iff.mp hs with ⟨_, -, hs⟩
    exact htruth harithmetic htest.type_eq hs.symm
  rw [hmeaning] at hs
  cases hop : op.isArithmetic with
  | false =>
      have hadd : op ≠ .add := by
        rintro rfl
        cases hop
      rcases operatorTree_eq columns op f.type ⟨left, g.type, c.meaning scopes left⟩
        (Meant.labelled ⟨right, c.typeOf right, c.meaning scopes right⟩ g.type) with
        ⟨x, y, htree, -⟩
      rw [htree, BinaryOp.symbol_of_ne_add hadd, Tree.type?] at hs
      rcases Option.bind_eq_some_iff.mp hs with ⟨l, -, hs⟩
      rcases Option.bind_eq_some_iff.mp hs with ⟨r, -, hs⟩
      exact htruth hop (result?_of_not_arithmetic hop hresult)
        (BinaryOp.operator?_of_not_arithmetic hop hs)
  | true =>
      rw [operatorTree_of_isArithmetic hop] at hs
      rcases labelled_cases ⟨right, c.typeOf right, c.meaning scopes right⟩ g.type with
        ⟨e, text, type, henum, hexpr, -⟩ | ⟨hother, hsame⟩
      · -- There is no arithmetic on the labels of an enum.
        have hlabel : t = .enum e := by
          dsimp only at hexpr
          subst hexpr
          rw [henum] at ht
          exact (Option.some.inj ht).symm
        rw [henum, hlabel] at hresult
        cases op <;> first | cases hresult | cases hop
      · rw [Argument.typeBeside?, hother, if_neg Bool.false_ne_true] at ht
        rw [hsame] at hs
        rw [<- typeOf_of_node hg, <- (type_of_typeOf? ht).2] at hresult
        exact served_arithmetic_iff hop hresult hleft hright hs

theorem served_function_iff {name : String} {args : List Expr} {f : TypedFragment}
    (hf : c.node (.function name args) = .ok f)
    (hargs : forall arg, arg ∈ args -> c.Serves scopes columns arg) {s : ServerType}
    (hs : (c.meaning scopes (.function name args)).type? columns = some s) :
    s = f.type.onServer <-> ¬c.Misdeclares (.function name args) := by
  rw [node] at hf
  rw [meaning, meanings_trees] at hs
  rcases sqlFunction_eq_ok hf with ⟨-, function, hlookup, htype⟩
  rw [htype]
  exact type?_functionTree hlookup hargs hs

theorem served_method_iff (hcalls : c.calls = .builtin) {name : String} {receiver : Expr}
    {args : List Expr} {onServer : Bool} (hname : answeredNames.contains name = false)
    {f : TypedFragment} (hf : c.node (.method name receiver args onServer) = .ok f)
    (hoperands : forall arg, arg ∈ receiver :: args -> c.Serves scopes columns arg) {s : ServerType}
    (hs : (c.meaning scopes (.method name receiver args onServer)).type? columns = some s) :
    s = f.type.onServer <-> ¬c.Misdeclares (.method name receiver args onServer) := by
  rw [node, hcalls] at hf
  rw [meaning] at hs
  rcases Result.bind_eq_ok.mp hf with ⟨g, hg, hcall⟩
  by_cases hlength : name = "length"
  · subst hlength
    rcases served_length hcall hs with ⟨htype, hint⟩
    rw [htype, hint]
    exact ⟨fun _ => not_callMisdeclares_length (receiver :: args), fun _ => rfl⟩
  · rcases methodCall_eq_ok hname hcall with hcall | ⟨hname, -⟩
    · rcases methodTree_cases hname ⟨receiver, c.typeOf receiver, c.meaning scopes receiver⟩
        (c.meanings scopes args) with htree | ⟨hname, -⟩
      · rcases sqlFunction_eq_ok hcall with ⟨-, function, hlookup, htype⟩
        rw [htree, meanings_trees] at hs
        have htypes : f.type = function.returns.resolve ((receiver :: args).map c.typeOf) := by
          rw [htype, List.map_cons, typeOf_of_node hg]
          rfl
        rw [htypes]
        exact type?_functionTree hlookup hoperands hs
      · exact absurd hname hlength
    · exact absurd hname hlength

/-- An expression all the operands of which have the types they are declared to have has its own
exactly when it does not lose it and is not misdeclared. -/
theorem serves_iff (hcalls : c.calls = .builtin) (hcolumns : c.Knows scopes columns) {e : Expr}
    (hnode : e.isElementaryNode = true) (htyped : e.isTyped = true)
    (h : c.Accepts scopes columns e)
    (hoperands : forall operand, operand ∈ e.operands -> c.Serves scopes columns operand) :
    c.Serves scopes columns e <-> ¬e.LosesType ∧ ¬c.Misdeclares e := by
  rcases h with ⟨⟨f, hf⟩, -, s, hs⟩
  have htype := typeOf_of_node hf
  rw [serves_iff_eq hs]
  cases e with
  | field path =>
      have hserved := served_field hcolumns hnode hf hs
      rw [<- htype] at hserved
      exact ⟨fun _ => ⟨id, id⟩, fun _ => hserved⟩
  | constant v =>
      rw [meaning] at hs
      have hserved := Typed.type?_tree htyped hs
      exact ⟨fun h => ⟨hserved.mp h, id⟩, fun h => hserved.mpr h.1⟩
  | unary op operand =>
      have hserved := served_unary hf hs
      rw [<- htype] at hserved
      exact ⟨fun _ => ⟨id, id⟩, fun _ => hserved⟩
  | binary op left right =>
      have hserved := served_binary_iff hf (hoperands left List.mem_cons_self)
        (hoperands right (List.mem_cons_of_mem _ List.mem_cons_self)) hs
      rw [<- htype] at hserved
      exact ⟨fun h => ⟨id, hserved.mp h⟩, fun h => hserved.mpr h.2⟩
  | method name receiver args onServer =>
      have hname : answeredNames.contains name = false := by
        simpa [Expr.isElementaryNode] using hnode
      have hserved := served_method_iff hcalls hname hf hoperands hs
      rw [<- htype] at hserved
      exact ⟨fun h => ⟨id, hserved.mp h⟩, fun h => hserved.mpr h.2⟩
  | function name args =>
      have hserved := served_function_iff hf hoperands hs
      rw [<- htype] at hserved
      exact ⟨fun h => ⟨id, hserved.mp h⟩, fun h => hserved.mpr h.2⟩
  | _ => cases hnode

end Compiler

end TypedQuery
