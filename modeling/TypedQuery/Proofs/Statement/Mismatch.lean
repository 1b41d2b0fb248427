import TypedQuery.Proofs.Expr.Meeting
import TypedQuery.Proofs.Statement.Stored
import TypedQuery.Statement.Insert

/-!
# Types that do not match

Values of types that cannot be compared are refused before a statement is sent: in comparisons,
in arrays and lists, in the values given to columns, and in the columns taken from subqueries.
Three meetings are not looked at: with the rows of a subquery, and of the items of two arrays.
-/

namespace TypedQuery

/-!
## Expressions
-/

namespace SqlType

theorem comparable_of_isNumeric {a b : SqlType} (ha : a.isNumeric = true)
    (hb : b.isNumeric = true) : a.comparable b = true := by
  cases a <;> cases ha <;> cases b <;> cases hb <;> rfl

theorem comparable_text_of_isEnum {t : SqlType} (h : t.isEnum = true) :
    t.comparable .text = true := by
  rcases exists_of_isEnum h with ⟨e, rfl⟩
  rfl

end SqlType

namespace Meeting

/-- Whether the types that meet are looked at. -/
def isChecked : Meeting -> Bool
  | comparison _ _ | contains | amongValues _ => true
  | amongRows _ | overlap | sum => false

end Meeting

namespace Compiler

variable {c : Compiler} {m : Meeting} {left right : Expr} {f g : TypedFragment} {a b : SqlType}

/-- Constants of types that cannot be compared are not evaluated, and only texts are searched for
texts. -/
theorem isKept_of_mismatch (hleft : left.isTyped = true) (hf : c.compile left = .ok f)
    (hg : c.compile right = .ok g) (htypes : m.types? f.type g.type = some (a, b))
    (hne : a.comparable b = false) : m.IsKept left right := by
  have hconstants : f.type.comparable g.type = false -> Meeting.sum.IsKept left right := by
    intro hincomparable l r hl hr
    cases type_of_fold_constant hf hl
    cases type_of_fold_constant hg hr
    have hlr : l.type.comparable r.type = false := hincomparable
    constructor
    · intro hsame
      rw [hsame, r.type.comparable_self] at hlr
      cases hlr
    · intro hlnumeric
      rw [<- Bool.not_eq_true]
      intro hrnumeric
      cases (SqlType.comparable_of_isNumeric hlnumeric hrnumeric).symm.trans hlr
  cases m with
  | comparison op isComparison =>
      cases htypes
      exact hconstants hne
  | sum =>
      rcases Meeting.types?_arrays (Or.inr rfl) htypes with ⟨hftype, hgtype⟩
      apply hconstants
      rw [hftype, hgtype]
      exact hne
  | contains => exact Compiler.isKept_contains hleft hf htypes
  | _ => exact trivial

theorem enumLabel?_of_mismatch {t : SqlType} {e : Expr} (he : e.isTyped = true)
    (hg : c.compile e = .ok g) (hne : t.comparable g.type = false) :
    TypedFragment.enumLabel? t (fold e) = none := by
  rcases TypedFragment.enumLabel?_cases t (fold e) with ⟨hlabel, -⟩ | ⟨-, hnone⟩
  · rw [Bool.and_eq_true] at hlabel
    rcases Option.isSome_iff_exists.mp hlabel.2 with ⟨text, htext⟩
    have hv := Fold.eq_of_text? (Fold.isTyped_fold he) htext
    rw [type_of_fold_constant hg hv] at hne
    cases (SqlType.comparable_text_of_isEnum hlabel.1).symm.trans hne
  · exact hnone

theorem membership_of_mismatch (items : List Value) {item : SqlType}
    (hne : f.type.comparable item = false) (x : Result TypedFragment) (negated : Bool) :
    membership f ⟨.constant ⟨.array items, .array item⟩, x⟩ negated =
      .error (.compile (.memberType f.type (.array item))) := by
  have hsame : retyped f.type ⟨.array items, .array item⟩ = ⟨.array items, .array item⟩ := by
    apply if_neg
    intro h
    rw [Bool.and_eq_true] at h
    have hitem : item = .text := Option.some.inj (of_decide_eq_true h.2)
    rw [hitem, SqlType.comparable_text_of_isEnum h.1] at hne
    cases hne
  unfold membership
  dsimp only
  rw [hsame]
  apply if_neg
  rw [Bool.not_eq_true]
  exact hne

/-- Types that cannot be compared are refused where they are looked at, and pass elsewhere. -/
theorem compile_meeting_of_mismatch (hleft : left.isTyped = true) (hright : right.isTyped = true)
    (hf : c.compile left = .ok f) (hg : c.compile right = .ok g)
    (hnative : m.IsNative c.calls f.type) (hmeets : m.Meets left right)
    (hfjson : f.type.isJson = false) (hgjson : g.type.isJson = false)
    (htypes : m.types? f.type g.type = some (a, b)) (hne : a.comparable b = false)
    (onServer : Bool) :
    m.isChecked = true ∧
        (exists fault, c.compile (m.expr left right onServer) = .error (.compile fault)) ∨
      m.isChecked = false ∧ exists h, c.compile (m.expr left right onServer) = .ok h := by
  have hkept := isKept_of_mismatch hleft hf hg htypes hne
  rw [compile_meeting hleft hright hf hnative hkept, hf, hg]
  cases m with
  | comparison op isComparison =>
      cases htypes
      refine Or.inl ⟨rfl, .incomparable f.type g.type, ?_⟩
      rw [Meeting.compiled, binary_eq (Meeting.nullTest?_of_meets hmeets _ _),
        enumLabel?_of_mismatch hright hg hne, Option.getD_none,
        TypedFragment.operator_of_isComparison isComparison hfjson hgjson]
      exact if_neg (Bool.eq_false_iff.mp hne)
  | contains =>
      rcases Meeting.types?_contains htypes with ⟨hftype, rfl⟩
      exact Or.inl ⟨rfl, _, (containsItem_eq hftype (fold right)).trans
        (if_neg (Bool.eq_false_iff.mp hne))⟩
  | amongValues negated =>
      rcases Meeting.types?_among (Or.inl rfl) htypes with ⟨rfl, hgtype⟩
      rcases hmeets with ⟨items, type, hconstant⟩
      cases type_of_fold_constant hg hconstant
      cases hgtype
      rw [hconstant]
      have hrefused := membership_of_mismatch items hne
        (.ok (.ofValue ⟨.array items, .array b⟩)) negated
      exact Or.inl ⟨rfl, _, hrefused⟩
  | amongRows negated =>
      rcases hmeets with ⟨s, rfl⟩
      exact Or.inr ⟨rfl, _, membership_rows hg (.ok g) negated⟩
  | overlap =>
      rcases Meeting.types?_arrays (Or.inl rfl) htypes with ⟨hftype, hgtype⟩
      exact Or.inr ⟨rfl, _, overlap_arrays hftype hgtype (fold right)⟩
  | sum =>
      rcases Meeting.types?_arrays (Or.inr rfl) htypes with ⟨hftype, hgtype⟩
      have hnull : nullTest? .add ⟨fold left, .ok f⟩ ⟨fold right, .ok g⟩ = none := rfl
      rw [Meeting.compiled, binary_eq hnull, hftype]
      exact Or.inr ⟨rfl, _, TypedFragment.arithmetic_arrays hftype hgtype⟩

/-!
## Statements
-/

theorem compileAs_of_mismatch {e : Expr} {target : SqlType} (he : e.isTyped = true)
    (hg : c.compile e = .ok g) (hjson : target.isJson = false)
    (hne : target.comparable g.type = false) :
    c.compileAs target e = .error (.compile (.unstorable g.type target)) := by
  have hnode : c.node (fold e) = .ok g := hg
  unfold compileAs
  dsimp only
  rw [enumLabel?_of_mismatch he hg hne]
  dsimp only
  rw [hnode, Result.ok_bind, hjson, hne]
  rfl

end Compiler

theorem Assignment.apply_of_mismatch {u : Update} {t : Table} (herror : u.error = none)
    (ht : u.table = .ok t) {name : String} {index : Nat} {column : Column}
    (hcolumn : t.findColumn? name = some (index, column)) {a : Assignment} {target : SqlType}
    (htarget : a.target? column.type = some target)
    (hvalue : (a.value (u.current index column)).isTyped = true) {g : TypedFragment}
    (hg : (u.compiler t).compile (a.value (u.current index column)) = .ok g)
    (hjson : target.isJson = false) (hne : target.comparable g.type = false) :
    (a.apply u name).assignments = u.assignments ∧
      (a.apply u name).build = .error (.compile (.unstorable g.type target)) := by
  rw [Assignment.apply_eq herror ht hcolumn a htarget,
    Compiler.compileAs_of_mismatch hvalue hg hjson hne]
  dsimp only [Update.fail]
  rw [herror]
  exact ⟨rfl, rfl⟩

theorem Insert.valueFromSubquery_of_mismatch {i : Insert} {t : Table} (herror : i.error = none)
    (ht : i.table = .ok t) {name : String} {index : Nat} {column : Column}
    (hcolumn : t.findColumn? name = some (index, column)) {s : Subquery} {projected : SqlType}
    (hprojected : s.projected = some projected)
    (hne : column.type.comparable projected = false) :
    (i.valueFromSubquery name s).sources = i.sources ∧
      (i.valueFromSubquery name s).build =
        .error (.compile (.unstorable projected column.type)) := by
  have hrefused : i.valueFromSubquery name s =
      { i with error := some (.compile (.unstorable projected column.type)) } := by
    unfold valueFromSubquery withTable
    rw [herror, ht]
    dsimp only [Except.bind]
    rw [Table.requireColumn, hcolumn, hprojected]
    dsimp only
    rw [Result.ok_bind]
    dsimp only
    rw [hne]
    rfl
  rw [hrefused]
  exact ⟨rfl, rfl⟩

/-- Types that cannot be compared are refused in every meeting that looks at them, in every value
given to a column and in every column taken from a subquery; the other meetings are compiled.
`Meets` leaves out `=` and `<>` with a NULL constant, whatever its type: that is a test for NULL and
compares nothing.  A NULL of a type is refused elsewhere as any value of the type is. -/
theorem mismatches_refused_where_checked (c : Compiler) (u : Update) (i : Insert) :
    (forall {m : Meeting} {left right : Expr} {f g : TypedFragment} {a b : SqlType}
        (onServer : Bool),
      left.isTyped = true -> right.isTyped = true ->
      c.compile left = .ok f -> c.compile right = .ok g ->
      m.IsNative c.calls f.type -> m.Meets left right ->
      f.type.isJson = false -> g.type.isJson = false ->
      m.types? f.type g.type = some (a, b) -> a.comparable b = false ->
      m.isChecked = true ∧
          (exists fault, c.compile (m.expr left right onServer) = .error (.compile fault)) ∨
        m.isChecked = false ∧ exists h, c.compile (m.expr left right onServer) = .ok h) ∧
    (forall {t : Table} {name : String} {index : Nat} {column : Column} {a : Assignment}
        {target : SqlType} {g : TypedFragment},
      u.error = none -> u.table = .ok t -> t.findColumn? name = some (index, column) ->
      a.target? column.type = some target ->
      (a.value (u.current index column)).isTyped = true ->
      (u.compiler t).compile (a.value (u.current index column)) = .ok g ->
      target.isJson = false -> target.comparable g.type = false ->
      (a.apply u name).assignments = u.assignments ∧
        (a.apply u name).build = .error (.compile (.unstorable g.type target))) ∧
    (forall {t : Table} {name : String} {index : Nat} {column : Column} {s : Subquery}
        {projected : SqlType},
      i.error = none -> i.table = .ok t -> t.findColumn? name = some (index, column) ->
      s.projected = some projected -> column.type.comparable projected = false ->
      (i.valueFromSubquery name s).sources = i.sources ∧
        (i.valueFromSubquery name s).build =
          .error (.compile (.unstorable projected column.type))) := by
  refine ⟨?_, ?_, ?_⟩
  · intro m left right f g a b onServer hleft hright hf hg hnative hmeets hfjson hgjson htypes hne
    exact Compiler.compile_meeting_of_mismatch hleft hright hf hg hnative hmeets hfjson hgjson
      htypes hne onServer
  · intro t name index column a target g herror ht hcolumn htarget hvalue hg hjson hne
    exact Assignment.apply_of_mismatch herror ht hcolumn htarget hvalue hg hjson hne
  · intro t name index column s projected herror ht hcolumn hprojected hne
    exact Insert.valueFromSubquery_of_mismatch herror ht hcolumn hprojected hne

def shelfLabel : Column := { field := "label", name := "label", type := .text }

def shelfTags : Column := { field := "tags", name := "tags", type := .array .text }

def shelf : Table where
  model := "Shelf"
  name := "shelf"
  schema := none
  columns := [shelfLabel, shelfTags,
    { field := "counts", name := "counts", type := .array .integer }]

def shelfCompiler : Compiler := { scope := .ofTable shelf }

def countRows : Subquery where
  frame := ⟨⟨[.text "(SELECT unnest(counts) FROM shelf)"]⟩, .empty, false⟩
  projected := some .integer

theorem shelf_mismatches_refused :
    (exists fault, shelfCompiler.compile (.binary .lt (.col "label") (.int 3)) =
        .error (.compile fault)) ∧
      (Update.build ((Assignment.removeFromList (.int 3)).apply { table := .ok shelf } "tags")) =
        .error (.compile (.unstorable .integer .text)) ∧
      (Insert.build (Insert.valueFromSubquery { table := .ok shelf } "label" countRows)) =
        .error (.compile (.unstorable .integer .text)) := by
  have hlabel : shelfCompiler.compile (.col "label") =
      .ok ⟨Fragment.empty.column .root "label", .text⟩ := rfl
  have hthree : shelfCompiler.compile (.int 3) = .ok (.ofValue ⟨.int 3, .integer⟩) := rfl
  have hfirst : shelf.findColumn? "label" = some (0, shelfLabel) := rfl
  have hsecond : shelf.findColumn? "tags" = some (1, shelfTags) := rfl
  have htarget : (Assignment.removeFromList (.int 3)).target? shelfTags.type = some .text := rfl
  rcases mismatches_refused_where_checked shelfCompiler { table := .ok shelf }
    { table := .ok shelf } with ⟨hmeeting, hassignment, hinsert⟩
  refine ⟨?_, ?_, ?_⟩
  · have hmeets : (Meeting.comparison .lt rfl).Meets (.col "label") (.int 3) := by
      rintro (h | h) <;> cases h
    have htypes : (Meeting.comparison .lt rfl).types? .text .integer = some (.text, .integer) := rfl
    have hnative : (Meeting.comparison .lt rfl).IsNative shelfCompiler.calls .text :=
      Meeting.isNative_builtin fun h => nomatch h
    rcases hmeeting false rfl rfl hlabel hthree hnative hmeets rfl rfl htypes rfl with
      ⟨-, hfault⟩ | ⟨hchecked, -⟩
    · exact hfault
    · cases hchecked
  · exact (hassignment rfl rfl hsecond htarget rfl
      (show _ = Except.ok (TypedFragment.ofValue ⟨.int 3, .integer⟩) from rfl) rfl rfl).2
  · exact (hinsert rfl rfl hfirst (show countRows.projected = some .integer from rfl) rfl).2

/-- The items of two arrays, and the rows of a subquery, are not looked at. -/
theorem unchecked_mismatches_compiled :
    SqlType.comparable .text .integer = false ∧
      (exists h, shelfCompiler.compile
        (.method "pg_in" (.col "label") [.subquery countRows] false) = .ok h) ∧
      (exists h, shelfCompiler.compile
        (.method "pg_contains_any" (.col "tags") [.col "counts"] false) = .ok h) ∧
      exists h, shelfCompiler.compile (.binary .add (.col "tags") (.col "counts")) = .ok h := by
  refine ⟨rfl, ⟨_, rfl⟩, ⟨_, rfl⟩, ⟨_, rfl⟩⟩

end TypedQuery
