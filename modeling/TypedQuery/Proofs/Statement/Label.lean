import TypedQuery.Proofs.Expr.Meeting
import TypedQuery.Proofs.Statement.Stored

/-!
# Texts that meet enums

A constant text that meets an enum is sent as a label of it, and a constant list of texts as an
array of it, in some places only: to the right of a comparison, in the list of a membership test
and where one label is stored.  Elsewhere it stays text, and to the right of an enum it cannot be
added.
-/

namespace TypedQuery

/-- The type with an enum for its texts. -/
inductive SqlType.Spells (e : EnumType) : SqlType -> SqlType -> Prop
  | label : SqlType.Spells e (.enum e) .text
  | labels : SqlType.Spells e (.array (.enum e)) (.array .text)

inductive Typed.IsSpelled : Typed -> Prop
  | label (text : String) : Typed.IsSpelled ⟨.text text, .text⟩
  | labels (texts : List Value) : Typed.IsSpelled ⟨.array texts, .array .text⟩

/-- A constant text as a label of an enum, or a constant list of texts as an array of it. -/
def Typed.labelled (e : EnumType) (v : Typed) : Typed :=
  match v.value with
  | .text label => ⟨.enum label, .enum e⟩
  | list => ⟨list, .array (.enum e)⟩

theorem RenderMode.writeValue_labelled (mode : RenderMode) (r : Rendered) (e : EnumType)
    {v : Typed} (hv : v.IsSpelled) :
    mode.writeValue r (v.labelled e) =
      match mode with
      | simple => r.write ((v.labelled e).value.literal ++ "::" ++ (v.labelled e).type.cast)
      | bound placeholder =>
          { sql := r.sql ++ placeholder.written (r.params.push (v.labelled e)).size ++ "::" ++
              (v.labelled e).type.cast
            params := r.params.push (v.labelled e) } := by
  cases hv with
  | label text => cases mode <;> simp [writeValue, Typed.labelled, Value.inlineLiteral?, castOf,
      String.append_assoc]
  | labels texts => cases mode <;> simp [writeValue, Typed.labelled, Value.inlineLiteral?, castOf,
      String.append_assoc]

/-!
## Expressions
-/

namespace SqlType

variable {e : EnumType} {a b : SqlType}

theorem Spells.comparable (h : Spells e a b) :
    a.comparable b = true ∧ b.comparable a = true := by
  cases h <;> exact ⟨rfl, rfl⟩

theorem Spells.isJson (h : Spells e a b) : a.isJson = false ∧ b.isJson = false := by
  cases h <;> exact ⟨rfl, rfl⟩

theorem Spells.isNumeric (h : Spells e a b) : a.isNumeric = false ∧ b.isNumeric = false := by
  cases h <;> exact ⟨rfl, rfl⟩

theorem Spells.ne (h : Spells e a b) : a ≠ b := by
  cases h <;> exact fun h => nomatch h

end SqlType

/-- What a constant is to the right of an operator whose left operand it can spell. -/
theorem Typed.IsSpelled.operand {v : Typed} (hv : v.IsSpelled) {e : EnumType} {t : SqlType}
    (h : SqlType.Spells e t v.type) :
    exists w, w = (if t.isEnum then v.labelled e else v) ∧
      (TypedFragment.enumLabel? t (.constant v)).getD (.ofValue v) = .ofValue w ∧
      w.type.isJson = false ∧ t.comparable w.type = true := by
  cases hv with
  | label text =>
      cases h
      exact ⟨_, rfl, rfl, rfl, SqlType.comparable_self _⟩
  | labels texts =>
      cases h
      exact ⟨_, rfl, rfl, rfl, rfl⟩

namespace Meeting

/-- Whether a constant text or list to the right of an operand is labelled. -/
def labels : Meeting -> SqlType -> Bool
  | comparison _ _, t | amongValues _, t => t.isEnum
  | _, _ => false

def after (m : Meeting) (f : TypedFragment) (v : Typed) : TypedFragment :=
  let member (word : String) : TypedFragment :=
    ⟨((((Fragment.empty.text "(").nested f.query).text word).value v).text ")", .boolean⟩
  match m with
  | comparison op _ => .combine f op.sql (.ofValue v) .boolean
  | sum => .combine f "||" (.ofValue v) f.type
  | overlap => .combine f "&&" (.ofValue v) .boolean
  | contains =>
      ⟨((((Fragment.empty.text "(").nested (TypedFragment.ofValue v).query).text ") = ANY(").nested
        f.query).text ")", .boolean⟩
  | amongValues negated | amongRows negated => member (if negated then ") <> ALL(" else ") = ANY(")

def before (m : Meeting) (v : Typed) (g : TypedFragment) : TypedFragment :=
  match m with
  | comparison op _ => .combine (.ofValue v) op.sql g .boolean
  | sum => .combine (.ofValue v) "||" g v.type
  | overlap => .combine (.ofValue v) "&&" g .boolean
  | contains =>
      ⟨((((Fragment.empty.text "(").nested g.query).text ") = ANY(").nested
        (TypedFragment.ofValue v).query).text ")", .boolean⟩
  | amongValues negated | amongRows negated =>
      ⟨(((Fragment.empty.text "(").nested (TypedFragment.ofValue v).query).text
        (if negated then ") NOT IN " else ") IN ")).nested g.query, .boolean⟩

theorem isKept_of_spells {m : Meeting} {c : Compiler} {left right : Expr} {f g : TypedFragment}
    (hleft : left.isTyped = true) (hf : c.compile left = .ok f) (hg : c.compile right = .ok g)
    {a b : SqlType} (htypes : m.types? f.type g.type = some (a, b)) (hne : a ≠ b)
    (hnumeric : a.isNumeric = false) (hsum : m ≠ sum) : m.IsKept left right := by
  cases m with
  | comparison op isComparison =>
      intro l r hl hr
      cases Compiler.type_of_fold_constant hf hl
      cases Compiler.type_of_fold_constant hg hr
      cases htypes
      refine ⟨hne, fun h => ?_⟩
      cases hnumeric.symm.trans h
  | sum => exact absurd rfl hsum
  | contains => exact Compiler.isKept_contains hleft hf htypes
  | _ => exact trivial

end Meeting

namespace Compiler

open Meeting

variable {c : Compiler} {m : Meeting} {left right : Expr} {f g : TypedFragment} {v : Typed}
  {e : EnumType} {a b : SqlType}

theorem compile_text_after (hleft : left.isTyped = true) (hright : right.isTyped = true)
    (hf : c.compile left = .ok f) (hv : fold right = .constant v) (hspelled : v.IsSpelled)
    (hnative : m.IsNative c.calls f.type) (hmeets : m.Meets left right)
    (htypes : m.types? f.type v.type = some (a, b)) (hspells : SqlType.Spells e a b)
    (hsum : m ≠ sum) (onServer : Bool) :
    c.compile (m.expr left right onServer) =
      .ok (m.after f (if m.labels f.type then v.labelled e else v)) := by
  have hg : c.compile right = .ok (.ofValue v) := by
    rw [compile, hv, node]
  have hkept := isKept_of_spells hleft hf hg htypes hspells.ne hspells.isNumeric.1 hsum
  rw [compile_meeting hleft hright hf hnative hkept, hf, hg, hv]
  cases m with
  | comparison op isComparison =>
      cases htypes
      have hnull : nullTest? op ⟨fold left, .ok f⟩ ⟨fold right, .ok (.ofValue v)⟩ = none :=
        nullTest?_of_meets hmeets _ _
      rw [hv] at hnull
      rcases hspelled.operand hspells with ⟨w, hw, hvalue, hjson, hcomparable⟩
      rw [Meeting.compiled, binary_eq hnull, hvalue,
        TypedFragment.operator_of_isComparison isComparison hspells.isJson.1 hjson]
      subst hw
      exact if_pos hcomparable
  | contains =>
      rcases types?_contains htypes with ⟨hftype, rfl⟩
      exact (containsItem_eq hftype (.constant v)).trans (if_pos hspells.comparable.1)
  | amongValues negated =>
      rcases types?_among (Or.inl rfl) htypes with ⟨rfl, hvtype⟩
      cases hspelled with
      | label text => cases hvtype
      | labels texts =>
          cases hvtype
          generalize hftype : f.type = t at hspells
          cases hspells
          show membership f ⟨.constant ⟨.array texts, .array .text⟩,
            .ok (.ofValue ⟨.array texts, .array .text⟩)⟩ negated = _
          unfold membership
          dsimp only
          rw [hftype]
          exact if_pos (SqlType.comparable_self _)
  | amongRows negated =>
      rcases hmeets with ⟨s, rfl⟩
      cases hv
  | overlap =>
      rcases types?_arrays (Or.inl rfl) htypes with ⟨hftype, hvtype⟩
      have hitems : (TypedFragment.ofValue v).type = .array b := hvtype
      exact overlap_arrays hftype hitems (.constant v)
  | sum => exact absurd rfl hsum

theorem compile_text_before (hleft : left.isTyped = true) (hright : right.isTyped = true)
    (hv : fold left = .constant v) (hspelled : v.IsSpelled) (hg : c.compile right = .ok g)
    (hnative : m.IsNative c.calls v.type) (hmeets : m.Meets left right)
    (htypes : m.types? v.type g.type = some (b, a)) (hspells : SqlType.Spells e a b)
    (hsum : m ≠ sum) (hvalues : forall negated, m ≠ amongValues negated) (onServer : Bool) :
    c.compile (m.expr left right onServer) = .ok (m.before v g) := by
  have hf : c.compile left = .ok (.ofValue v) := by
    rw [compile, hv, node]
  have hkept := isKept_of_spells hleft hf hg htypes (Ne.symm hspells.ne) hspells.isNumeric.2 hsum
  rw [compile_meeting hleft hright hf hnative hkept, hf, hg, hv]
  cases m with
  | comparison op isComparison =>
      have hnull : nullTest? op ⟨fold left, .ok (.ofValue v)⟩ ⟨fold right, .ok g⟩ = none :=
        nullTest?_of_meets hmeets _ _
      rw [hv] at hnull
      have hlabel : TypedFragment.enumLabel? v.type (fold right) = none := by
        cases hspelled <;> rfl
      cases htypes
      rw [Meeting.compiled, binary_eq hnull]
      dsimp only [TypedFragment.ofValue]
      rw [hlabel]
      exact (TypedFragment.operator_of_isComparison isComparison hspells.isJson.2
        hspells.isJson.1).trans (if_pos hspells.comparable.2)
  | contains =>
      rcases types?_contains htypes with ⟨hvtype, rfl⟩
      have hitems : (TypedFragment.ofValue v).type = .array b := hvtype
      exact (containsItem_eq hitems (fold right)).trans (if_pos hspells.comparable.2)
  | amongValues negated => exact absurd rfl (hvalues negated)
  | amongRows negated =>
      rcases hmeets with ⟨s, rfl⟩
      exact membership_rows hg (.ok g) negated
  | overlap =>
      rcases types?_arrays (Or.inl rfl) htypes with ⟨hvtype, hgtype⟩
      have hitems : (TypedFragment.ofValue v).type = .array b := hvtype
      exact overlap_arrays hitems hgtype (fold right)
  | sum => exact absurd rfl hsum

theorem isKept_enum_text (hf : c.compile left = .ok f) (hg : c.compile right = .ok g)
    (htypes : f.type = .enum e ∧ g.type = .text ∨ f.type = .text ∧ g.type = .enum e) :
    Meeting.sum.IsKept left right := by
  intro l r hl hr
  cases type_of_fold_constant hf hl
  cases type_of_fold_constant hg hr
  have hlr : l.type = .enum e ∧ r.type = .text ∨ l.type = .text ∧ r.type = .enum e := htypes
  rcases hlr with ⟨hltype, hrtype⟩ | ⟨hltype, hrtype⟩
  · rw [hltype, hrtype]
    exact ⟨(fun h => nomatch h), fun h => nomatch h⟩
  · rw [hltype, hrtype]
    exact ⟨(fun h => nomatch h), fun h => nomatch h⟩

/-- A text is added to an enum as a text, unless it is a constant: that is a label, and labels are
not added. -/
theorem compile_enum_add_text (hleft : left.isTyped = true) (hright : right.isTyped = true)
    (hf : c.compile left = .ok f) (hg : c.compile right = .ok g) (hftype : f.type = .enum e)
    (hgtype : g.type = .text) :
    c.compile (.binary .add left right) =
      if (Fold.text? (fold right)).isSome then
        .error (.compile (.inapplicable "+" (.enum e) (.enum e)))
      else .ok (.combine f "||" g .text) := by
  have hnull : nullTest? .add ⟨fold left, .ok f⟩ ⟨fold right, .ok g⟩ = none := rfl
  rw [compile_binary_of_isKept hleft hright (isKept_enum_text hf hg (Or.inl ⟨hftype, hgtype⟩)), hf,
    hg, binary_eq hnull]
  show TypedFragment.arithmetic .add f _ = _
  rcases TypedFragment.enumLabel?_cases f.type (fold right) with
    ⟨htext, v, hlabel, hv⟩ | ⟨htext, hnone⟩
  · rw [Bool.and_eq_true] at htext
    rw [if_pos htext.2, hlabel]
    unfold TypedFragment.arithmetic
    dsimp only [Option.getD_some]
    rw [show (TypedFragment.ofValue v).type = f.type from hv, hftype]
    rfl
  · rw [hftype, SqlType.isEnum, Bool.true_and] at htext
    rw [if_neg (by rw [htext]; exact Bool.false_ne_true), hnone]
    unfold TypedFragment.arithmetic
    dsimp only [Option.getD_none]
    rw [hftype, hgtype]
    rfl

theorem compile_text_add_enum (hleft : left.isTyped = true) (hright : right.isTyped = true)
    (hf : c.compile left = .ok f) (hg : c.compile right = .ok g) (hftype : f.type = .text)
    (hgtype : g.type = .enum e) :
    c.compile (.binary .add left right) = .ok (.combine f "||" g .text) := by
  have hnull : nullTest? .add ⟨fold left, .ok f⟩ ⟨fold right, .ok g⟩ = none := rfl
  rw [compile_binary_of_isKept hleft hright (isKept_enum_text hf hg (Or.inr ⟨hftype, hgtype⟩)), hf,
    hg, binary_eq hnull, hftype]
  show TypedFragment.arithmetic .add f g = _
  unfold TypedFragment.arithmetic
  dsimp only
  rw [hftype, hgtype]
  rfl

theorem compileAs_text {target : SqlType} {value : Expr} (hv : fold value = .constant v)
    (hspelled : v.IsSpelled) (hspells : SqlType.Spells e target v.type) :
    c.compileAs target value =
      .ok (.ofValue (if target.isEnum then v.labelled e else v)) := by
  rcases hspelled.operand hspells with ⟨w, hw, hvalue, hjson, hcomparable⟩
  have hnode : c.node (.constant v) = .ok (.ofValue v) := by
    rw [node]
  have hstored : forall f : TypedFragment, f = .ofValue w ->
      (if target.isJson && !f.type.isJson && f.type ≠ .null then pure f.toJsonb
        else if target.comparable f.type then pure f
        else .error (.compile (.unstorable f.type target)) : Result TypedFragment) =
          .ok (.ofValue w) := by
    rintro f rfl
    rw [hspells.isJson.1]
    exact if_pos hcomparable
  unfold compileAs
  dsimp only
  rw [hv, hnode, <- hw]
  cases hlabel : TypedFragment.enumLabel? target (.constant v) with
  | none =>
      rw [hlabel] at hvalue
      exact hstored _ hvalue
  | some label =>
      rw [hlabel] at hvalue
      exact hstored _ hvalue

end Compiler

/-!
## Assignments
-/

theorem Assignment.apply_text {u : Update} {t : Table} (herror : u.error = none)
    (ht : u.table = .ok t) {name : String} {index : Nat} {column : Column}
    (hcolumn : t.findColumn? name = some (index, column)) {a : Assignment} {target : SqlType}
    (htarget : a.target? column.type = some target) {v : Typed}
    (hv : fold (a.value (u.current index column)) = .constant v) (hspelled : v.IsSpelled)
    {e : EnumType} (hspells : SqlType.Spells e target v.type) :
    a.apply u name = u.withPending index (a.written column.type (u.current index column)
      (.ofValue (if target.isEnum then v.labelled e else v))) := by
  rw [Assignment.apply_eq herror ht hcolumn a htarget, Compiler.compileAs_text hv hspelled hspells]

/-- Constant texts and lists of texts beside enums: to the right of an operand they are labelled if
the meeting labels them there, to the left never, in an assignment if a single label is stored; a
constant text cannot be added to an enum, and every other sum of a text and an enum is a text.
Labels are always rendered with the cast to their type.  A NULL of type text spells no label
(`IsSpelled`), beside `=` and `<>` it is a test for NULL (`Meets`).  A constant text to the left of
a membership test in a list of constants is left out: that list is of labels and not of texts. -/
theorem texts_beside_enums (e : EnumType) (c : Compiler) (u : Update) :
    (forall {m : Meeting} {left right : Expr} {f : TypedFragment} {v : Typed} {a b : SqlType}
        (onServer : Bool),
      left.isTyped = true -> right.isTyped = true ->
      c.compile left = .ok f -> fold right = .constant v -> v.IsSpelled ->
      m.IsNative c.calls f.type -> m.Meets left right ->
      m.types? f.type v.type = some (a, b) -> SqlType.Spells e a b -> m ≠ .sum ->
      c.compile (m.expr left right onServer) =
        .ok (m.after f (if m.labels f.type then v.labelled e else v))) ∧
    (forall {m : Meeting} {left right : Expr} {g : TypedFragment} {v : Typed} {a b : SqlType}
        (onServer : Bool),
      left.isTyped = true -> right.isTyped = true ->
      fold left = .constant v -> v.IsSpelled -> c.compile right = .ok g ->
      m.IsNative c.calls v.type -> m.Meets left right ->
      m.types? v.type g.type = some (b, a) -> SqlType.Spells e a b -> m ≠ .sum ->
      (forall negated, m ≠ .amongValues negated) ->
      c.compile (m.expr left right onServer) = .ok (m.before v g)) ∧
    (forall {left right : Expr} {f g : TypedFragment},
      left.isTyped = true -> right.isTyped = true ->
      c.compile left = .ok f -> c.compile right = .ok g ->
      (f.type = .enum e -> g.type = .text -> c.compile (.binary .add left right) =
        if (Fold.text? (fold right)).isSome then
          .error (.compile (.inapplicable "+" (.enum e) (.enum e)))
        else .ok (.combine f "||" g .text)) ∧
      (f.type = .text -> g.type = .enum e ->
        c.compile (.binary .add left right) = .ok (.combine f "||" g .text))) ∧
    (forall {t : Table} {name : String} {index : Nat} {column : Column} {a : Assignment}
        {target : SqlType} {v : Typed},
      u.error = none -> u.table = .ok t -> t.findColumn? name = some (index, column) ->
      a.target? column.type = some target ->
      fold (a.value (u.current index column)) = .constant v -> v.IsSpelled ->
      SqlType.Spells e target v.type ->
      a.apply u name = u.withPending index (a.written column.type (u.current index column)
        (.ofValue (if target.isEnum then v.labelled e else v)))) ∧
    (forall (mode : RenderMode) (r : Rendered) {v : Typed}, v.IsSpelled ->
      mode.writeValue r (v.labelled e) =
        match mode with
        | .simple => r.write ((v.labelled e).value.literal ++ "::" ++ (v.labelled e).type.cast)
        | .bound placeholder =>
            { sql := r.sql ++ placeholder.written (r.params.push (v.labelled e)).size ++ "::" ++
                (v.labelled e).type.cast
              params := r.params.push (v.labelled e) }) := by
  refine ⟨?_, ?_, ?_, ?_, fun mode r _ => mode.writeValue_labelled r e⟩
  · intro m left right f v a b onServer hleft hright hf hv hspelled hnative hmeets htypes
      hspells hsum
    exact Compiler.compile_text_after hleft hright hf hv hspelled hnative hmeets htypes hspells hsum
      onServer
  · intro m left right g v a b onServer hleft hright hv hspelled hg hnative hmeets htypes
      hspells hsum hvalues
    exact Compiler.compile_text_before hleft hright hv hspelled hg hnative hmeets htypes hspells
      hsum hvalues onServer
  · intro left right f g hleft hright hf hg
    exact ⟨Compiler.compile_enum_add_text hleft hright hf hg,
      Compiler.compile_text_add_enum hleft hright hf hg⟩
  · intro t name index column a target v herror ht hcolumn htarget hv hspelled hspells
    exact Assignment.apply_text herror ht hcolumn htarget hv hspelled hspells

def sky : EnumType := ⟨"Sky", "sky", some "app", ["clear", "grey"]⟩

def morning : Column := { field := "morning", name := "morning", type := .enum sky }

def days : Table where
  model := "Day"
  name := "day"
  schema := none
  columns := [morning, { field := "hours", name := "hours", type := .array (.enum sky) }]

def dayCompiler : Compiler := { scope := .ofTable days }

def grey : Typed := ⟨.text "grey", .text⟩

def greyLabel : Typed := ⟨.enum "grey", .enum sky⟩

def morningSky : TypedFragment := ⟨Fragment.empty.column .root "morning", .enum sky⟩

theorem grey_beside_morning :
    dayCompiler.compile (.binary .lt (.col "morning") (.constant grey)) =
        .ok (.combine morningSky "<" (.ofValue greyLabel) .boolean) ∧
      dayCompiler.compile (.binary .lt (.constant grey) (.col "morning")) =
        .ok (.combine (.ofValue grey) "<" morningSky .boolean) ∧
      dayCompiler.compile (.binary .add (.constant grey) (.col "morning")) =
        .ok (.combine (.ofValue grey) "||" morningSky .text) ∧
      (Assignment.set (.constant grey)).apply { table := .ok days } "morning" =
        Update.withPending { table := .ok days } 0 (.ofValue greyLabel) ∧
      (RenderMode.simple.writeValue {} greyLabel).sql = "'grey'::\"app\".\"sky\"" := by
  have hmorning : dayCompiler.compile (.col "morning") = .ok morningSky := rfl
  have hgrey : dayCompiler.compile (.constant grey) = .ok (.ofValue grey) := rfl
  have hspelled : grey.IsSpelled := .label "grey"
  have hmeets : forall left right, (Meeting.comparison .lt rfl).Meets left right := by
    rintro left right (h | h) <;> cases h
  have hnative : forall t, (Meeting.comparison .lt rfl).IsNative dayCompiler.calls t :=
    fun t => Meeting.isNative_builtin fun h => nomatch h
  have hfirst : days.findColumn? "morning" = some (0, morning) := rfl
  rcases texts_beside_enums sky dayCompiler { table := .ok days } with
    ⟨hafter, hbefore, hsum, hassignment, hwritten⟩
  refine ⟨?_, ?_, ?_, ?_, ?_⟩
  · have htypes : (Meeting.comparison .lt rfl).types? (.enum sky) .text = some (.enum sky, .text) :=
      rfl
    exact hafter false rfl rfl hmorning rfl hspelled (hnative _) (hmeets _ _) htypes .label
      fun h => nomatch h
  · have htypes : (Meeting.comparison .lt rfl).types? .text (.enum sky) = some (.text, .enum sky) :=
      rfl
    exact hbefore false rfl rfl rfl hspelled hmorning (hnative _) (hmeets _ _) htypes .label
      (fun h => nomatch h) fun _ h => nomatch h
  · exact (hsum rfl rfl hgrey hmorning).2 rfl rfl
  · exact hassignment rfl rfl hfirst rfl rfl hspelled .label
  · have hsql : "" ++ (greyLabel.value.literal ++ "::" ++ greyLabel.type.cast) =
        "'grey'::\"app\".\"sky\"" := by decide +kernel
    exact (congrArg Rendered.sql (hwritten .simple {} hspelled)).trans hsql

/-- A text to the left of an enum or looked for in an array of enums is no label, and a text cannot
be added to an enum. -/
theorem grey_not_labelled :
    dayCompiler.compile (.binary .eq (.constant grey) (.col "morning")) =
        .ok (.combine (.ofValue grey) "=" morningSky .boolean) ∧
      (dayCompiler.compile (.method "contains" (.col "hours") [.constant grey] false)).map
          (·.query.parts[1]?) = .ok (some (.nested [.value grey])) ∧
      dayCompiler.compile (.binary .add (.col "morning") (.constant grey)) =
        .error (.compile (.inapplicable "+" (.enum sky) (.enum sky))) :=
  ⟨rfl, rfl, rfl⟩

end TypedQuery
