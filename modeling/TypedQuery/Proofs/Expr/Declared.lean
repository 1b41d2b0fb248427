import TypedQuery.Proofs.Expr.Served

/-!
# Declared types are the types of the server

The type that an expression is reported to have is compared with the type that the server assigns
to its text, for the expression and all its parts.  They are the same exactly when no part is a
constant that loses its type, nor an operation or a call that is misdeclared.
-/

namespace TypedQuery

open Server

namespace Compiler

variable {c : Compiler} {scopes : Scopes} {columns : Option String -> String -> Option ServerType}

/-!
## All parts
-/

/-- An expression that is as it is rendered, and that the server accepts. -/
structure IsSettled (c : Compiler) (scopes : Scopes)
    (columns : Option String -> String -> Option ServerType) (e : Expr) : Prop where
  isElementary : e.IsElementary
  isTyped : e.isTyped = true
  fold_eq : fold e = e
  accepts : c.Accepts scopes columns e

theorem IsSettled.part (hcalls : c.calls = .builtin) {e part : Expr}
    (h : c.IsSettled scopes columns e) (hpart : part ∈ e.parts) :
    c.IsSettled scopes columns part := by
  refine Expr.of_mem_parts ?_ h hpart
  intro e h operand hoperand
  have hmem := Expr.mem_parts_of_mem_operands hoperand
  exact ⟨h.isElementary.operand hoperand,
    Expr.isTyped_of_mem_parts h.isTyped hmem, Fold.fold_operand h.fold_eq hoperand,
    h.accepts.operands hcalls h.isElementary h.isTyped operand hoperand⟩

/-- All parts have the types they are declared to have exactly when none loses it or is
misdeclared. -/
theorem parts_serve_iff (hcalls : c.calls = .builtin) (hcolumns : c.Knows scopes columns)
    {e : Expr} (h : c.IsSettled scopes columns e) :
    (forall part, part ∈ e.parts -> c.Serves scopes columns part) <->
      forall part, part ∈ e.parts -> ¬part.LosesType ∧ ¬c.Misdeclares part := by
  have hnode : forall part, part ∈ e.parts ->
      (forall operand, operand ∈ part.operands -> c.Serves scopes columns operand) ->
        (c.Serves scopes columns part <-> ¬part.LosesType ∧ ¬c.Misdeclares part) := by
    intro part hpart
    have hsettled := h.part hcalls hpart
    exact serves_iff hcalls hcolumns hsettled.isElementary.node hsettled.isTyped hsettled.accepts
  have hoperand : forall {part operand}, part ∈ e.parts -> operand ∈ part.operands ->
      operand ∈ e.parts :=
    fun hpart hoperand => Expr.mem_parts_trans hpart (Expr.mem_parts_of_mem_operands hoperand)
  constructor
  · intro hserves part hpart
    exact (hnode part hpart fun operand ho => hserves operand (hoperand hpart ho)).mp
      (hserves part hpart)
  · -- By induction from the operands up: each part has the operands that the step needs.
    intro hnone part hpart
    induction part using Expr.of_operands with
    | step part ih =>
        exact (hnode part hpart fun operand ho => ih operand ho (hoperand hpart ho)).mpr
          (hnone part hpart)

/-- The type that an expression is reported to have is the one that the server assigns to its
text.  A text constant without a cast is a text of which the server does not know it yet. -/
def IsReported (c : Compiler) (scopes : Scopes)
    (columns : Option String -> String -> Option ServerType) (mode : RenderMode)
    (conforming : Bool) (e : Expr) : Prop :=
  exists f t, c.compile e = .ok f ∧ (f.query.renderIn mode scopes).read? conforming = some t ∧
    t.type? columns = some (if e.isBareText then .unknown else f.type.onServer)

theorem isReported_iff (hcalls : c.calls = .builtin) {e : Expr}
    (h : c.IsSettled scopes columns e) {mode : RenderMode} (hmode : mode ≠ .bound .atSign)
    (conforming : Bool) :
    c.IsReported scopes columns mode conforming e <-> c.Serves scopes columns e := by
  rcases h.accepts with ⟨⟨f, hf⟩, hqualified, -⟩
  have hcompile : c.compile e = .ok f := by
    rw [compile, h.fold_eq, hf]
  have hread := read?_of_isElementary hcalls h.isElementary hcompile hmode scopes conforming
  rw [h.fold_eq, hqualified, if_pos rfl] at hread
  have htype := typeOf_of_node hf
  constructor
  · rintro ⟨g, t, hg, ht, hserved⟩
    cases hcompile.symm.trans hg
    cases hread.symm.trans ht
    rw [<- htype] at hserved
    exact hserved
  · intro hserves
    refine ⟨f, _, hcompile, hread, ?_⟩
    rw [<- htype]
    exact hserves

/-- Where the server accepts the text of an elementary expression, the expression and all its parts
are reported with the types of the server exactly when no part is a constant that loses its type,
which constants are by the way they are written, and no part is misdeclared. -/
theorem reported_types_are_the_servers_iff (hcalls : c.calls = .builtin) {e : Expr}
    (he : e.IsElementary) (htyped : e.isTyped = true) {f : TypedFragment}
    (h : c.compile e = .ok f) {mode : RenderMode} (hmode : mode ≠ .bound .atSign)
    (hcolumns : c.Knows scopes columns) {conforming : Bool} {t : Tree}
    (hread : (f.query.renderIn mode scopes).read? conforming = some t) {s : ServerType}
    (htype : t.type? columns = some s) :
    ((forall part, part ∈ (fold e).parts -> c.IsReported scopes columns mode conforming part) <->
      forall part, part ∈ (fold e).parts -> ¬part.LosesType ∧ ¬c.Misdeclares part) ∧
    (c.IsReported scopes columns mode conforming (fold e) <->
      s = if (fold e).isBareText then .unknown else f.type.onServer) := by
  have helementary := Fold.isElementary_fold he
  have hmeaning := read?_of_isElementary hcalls he h hmode scopes conforming
  rw [hread] at hmeaning
  split at hmeaning
  · rename_i hqualified
    cases hmeaning
    have hsettled : c.IsSettled scopes columns (fold e) :=
      ⟨helementary, Fold.isTyped_fold htyped, Fold.fold_fold e, ⟨f, h⟩, hqualified, s, htype⟩
    have hreported : forall part, part ∈ (fold e).parts ->
        (c.IsReported scopes columns mode conforming part <-> c.Serves scopes columns part) :=
      fun part hpart => isReported_iff hcalls (hsettled.part hcalls hpart) hmode conforming
    constructor
    · rw [<- parts_serve_iff hcalls hcolumns hsettled]
      exact forall₂_congr hreported
    · rw [hreported _ (fold e).mem_parts_self, serves_iff_eq htype, served, typeOf_of_node h]
  · cases hmeaning

/-- The declared type of an expression next to the type of its text, as it is rendered with
placeholders. -/
def reported? (c : Compiler) (scopes : Scopes)
    (columns : Option String -> String -> Option ServerType) (e : Expr) :
    Option (SqlType × ServerType) :=
  match c.compile e with
  | .ok f =>
      ((f.query.renderIn (.bound .dollar) scopes).read? true).bind fun t =>
        (t.type? columns).map fun s => (f.type, s)
  | .error _ => none

theorem reported?_eq_some {e : Expr} {declared : SqlType} {s : ServerType}
    (h : c.reported? scopes columns e = some (declared, s)) :
    exists f t, c.compile e = .ok f ∧
      (f.query.renderIn (.bound .dollar) scopes).read? true = some t ∧
        t.type? columns = some s ∧ f.type = declared := by
  unfold reported? at h
  split at h
  · rename_i f hf
    rcases Option.bind_eq_some_iff.mp h with ⟨t, ht, h⟩
    rcases Option.map_eq_some_iff.mp h with ⟨s', hs, heq⟩
    cases heq
    exact ⟨f, t, hf, ht, hs, rfl⟩
  · cases h

def orderTable : Table where
  model := "Order"
  name := "order"
  schema := none
  columns := [
    { field := "id", name := "id", type := .bigint },
    { field := "quantity", name := "quantity", type := .integer },
    { field := "price", name := "price", type := .numeric },
    { field := "counts", name := "counts", type := .array .integer },
    { field := "totals", name := "totals", type := .array .bigint },
    { field := "placed", name := "placed", type := .date }]

def orderCompiler : Compiler := { scope := .ofTable orderTable }

def orderScopes : Scopes := ⟨[(.single .root orderTable, false)]⟩

def orderColumns (qualifier : Option String) (name : String) : Option ServerType :=
  if qualifier = none then
    (orderTable.columns.find? (·.name = name)).map (·.type.onServer)
  else none

theorem order_knows : orderCompiler.Knows orderScopes orderColumns := by
  intro slot t column htable hcolumn
  have hslot : slot = .root ∧ t = orderTable := by
    by_cases hroot : Slot.root = slot
    · subst hroot
      cases htable
      exact ⟨rfl, rfl⟩
    · have hfind : orderCompiler.scope.table slot =
          .error (.mapping (.undeclaredSlot slot.name)) := by
        simp [orderCompiler, Scope.ofTable, Scope.table, hroot]
      cases hfind.symm.trans htable
  rcases hslot with ⟨rfl, rfl⟩
  revert column
  decide

def threeBillion : Expr := .constant ⟨.bigint 3000000000, .bigint⟩

def orderTest : Expr :=
  .binary .gt (.binary .mul (.col "price") (.binary .add (.col "quantity") threeBillion))
    (.function "abs" [.col "price"])

theorem parts_orderTest : (fold orderTest).parts =
    [orderTest, .binary .mul (.col "price") (.binary .add (.col "quantity") threeBillion),
      .col "price", .binary .add (.col "quantity") threeBillion, .col "quantity", threeBillion,
      .function "abs" [.col "price"], .col "price"] :=
  rfl

theorem served_orderTest {part : Expr} (hpart : part ∈ (fold orderTest).parts) :
    ¬part.LosesType ∧ ¬orderCompiler.Misdeclares part := by
  rw [parts_orderTest] at hpart
  simp only [List.mem_cons, List.not_mem_nil, or_false] at hpart
  have hbinary : forall {op : BinaryOp} {left right : Expr},
      SqlType.movesDate op (orderCompiler.typeOf left) (orderCompiler.typeOf right) = false ->
        (orderCompiler.typeOf left).isArray = false ->
          ¬(Expr.binary op left right).LosesType ∧
            ¬orderCompiler.Misdeclares (.binary op left right) :=
    fun hdate harray => ⟨id, not_misdeclares hdate harray⟩
  rcases hpart with rfl | rfl | rfl | rfl | rfl | rfl | rfl | rfl
  · exact hbinary rfl rfl
  · exact hbinary rfl rfl
  · exact ⟨id, id⟩
  · exact hbinary rfl rfl
  · exact ⟨id, id⟩
  · refine ⟨?_, id⟩
    rintro (⟨hnull, -⟩ | ⟨n, hn, -, hlt⟩)
    · cases hnull
    · cases hn
      exact absurd hlt (by decide)
  · refine ⟨id, ?_⟩
    rintro ⟨f, hlookup, hmisdeclares⟩
    have habs : SqlFunction.lookup? "abs" =
        some { name := "abs", required := 1, returns := .argument 0 } :=
      SqlFunction.lookup?_of_lower (by decide +kernel) rfl
    cases habs.symm.trans hlookup
    rcases hmisdeclares with hnow | ⟨position, s, hreturns, hcall, hs⟩
    · exact absurd hnow (by decide)
    · cases hreturns
      cases hcall
      exact hs rfl
  · exact ⟨id, id⟩

theorem order_test_reported :
    orderCompiler.reported? orderScopes orderColumns orderTest = some (.boolean, .boolean) ∧
      (forall part, part ∈ (fold orderTest).parts ->
        ¬part.LosesType ∧ ¬orderCompiler.Misdeclares part) ∧
        forall part, part ∈ (fold orderTest).parts ->
          orderCompiler.IsReported orderScopes orderColumns (.bound .dollar) true part := by
  have hreported : orderCompiler.reported? orderScopes orderColumns orderTest =
      some (.boolean, .boolean) := by
    decide +kernel
  rcases reported?_eq_some hreported with ⟨f, t, hf, ht, hs, -⟩
  have helementary : orderTest.IsElementary := by
    unfold Expr.IsElementary
    decide +kernel
  have hiff := reported_types_are_the_servers_iff rfl helementary rfl hf (by decide) order_knows ht
    hs
  exact ⟨hreported, fun part hpart => served_orderTest hpart,
    hiff.1.mpr fun part hpart => served_orderTest hpart⟩

def IsMisreported (e : Expr) (declared : SqlType) (s : ServerType) : Prop :=
  orderCompiler.reported? orderScopes orderColumns e = some (declared, s) ∧ s ≠ declared.onServer

instance (e : Expr) (declared : SqlType) (s : ServerType) :
    Decidable (IsMisreported e declared s) :=
  inferInstanceAs (Decidable (_ ∧ _))

def oneDay : Expr := .constant ⟨.interval ⟨0, 1, 0⟩, .interval⟩

/-- A date that is moved, calls, and arrays put together are misdeclared; a constant loses its
type. -/
theorem reported_apart_from_the_server :
    IsMisreported (.binary .add (.col "placed") oneDay) .date .timestamp ∧
      IsMisreported (.binary .sub (.col "placed") oneDay) .date .timestamp ∧
      IsMisreported (.binary .add oneDay (.col "placed")) .date .timestamp ∧
      IsMisreported (.function "now" []) .timestamp .timestamptz ∧
      IsMisreported (.function "coalesce" [.col "quantity", .col "id"]) .integer .int8 ∧
      IsMisreported (.function "ceil" [.col "quantity"]) .integer .float8 ∧
      IsMisreported (.binary .add (.col "counts") (.col "totals")) (.array .integer)
        (.array .int8) ∧
      IsMisreported (.constant ⟨.bigint 5, .bigint⟩) .bigint .int4 ∧
      IsMisreported (.constant ⟨.null, .integer⟩) .integer .unknown := by
  decide +kernel

end Compiler

end TypedQuery
