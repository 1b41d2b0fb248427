import TypedQuery.Proofs.Expr.Composed
import TypedQuery.Proofs.Expr.Qualified
import TypedQuery.Proofs.Fragment.Lookup
import TypedQuery.Proofs.Statement.Stored
import TypedQuery.Proofs.Statement.Whole

/-!
# Columns in what helpers write

The list and JSON helpers write the pending expression of a column and a compiled value between
texts of their own, some of which are queries over the elements of a list.  What is written in the
condition of such a query is looked up among its elements first.
-/

namespace TypedQuery

open Server

/-- The helpers that change the elements of an array column. -/
inductive ListHelper where
  | add
  | addDistinct
  | remove
  | removeAll

def ListHelper.assignment (h : ListHelper) (value : Expr) : Assignment :=
  match h with
  | add => .addToList value
  | addDistinct => .addToListDistinct value
  | remove => .removeFromList value
  | removeAll => .removeAllFromList value

/-!
## What JSON helpers write
-/

namespace JsonHelper

def written (h : JsonHelper) (steps : List JsonStep) (current value : TypedFragment) :
    TypedFragment :=
  let path := Update.pathArray steps
  match h with
  | set =>
      if steps.isEmpty then value
      else
        ⟨((((((Fragment.empty.text "jsonb_set(COALESCE(").nested current.query).text
          ", '\x7b\x7d'::jsonb), ").nested path).text ", ").nested value.query).text ", true)",
          .json none⟩
  | append =>
      ⟨((((((Fragment.empty.text "jsonb_append_at_path(COALESCE(").nested current.query).text
        ", '\x7b\x7d'::jsonb), ").nested path).text ", ").nested value.query).text ")", .json none⟩
  | removeValue =>
      let elements :=
        if steps.isEmpty then current.query
        else ((((Fragment.empty.text "(").nested current.query).text " #> ").nested path).text ")"
      let kept :=
        ((((Fragment.empty.text
          "(SELECT COALESCE(jsonb_agg(e), '[]'::jsonb) FROM jsonb_array_elements(").nested
            elements).text ") AS e WHERE e <> ").nested value.query).text ")"
      if steps.isEmpty then ⟨kept, .json none⟩
      else
        ⟨((((((Fragment.empty.text "jsonb_set(").nested current.query).text ", ").nested
          path).text ", ").nested kept).text ")", .json none⟩

def make (h : JsonHelper) (value : Expr) (steps : List JsonStep) (c : Compiler) (column : Column)
    (current : TypedFragment) : Result TypedFragment :=
  if column.type.isJson then do
    return h.written steps current (<- Update.jsonValue c value)
  else .error (.compile (.notJson column.name column.type))

/-- A helper follows its path to a column and changes what is pending for it. -/
theorem apply_eq_modify (h : JsonHelper) {u : Update} (herror : u.error = none)
    {path : Expr} {column : String} {steps : List JsonStep}
    (htarget : u.jsonTarget path = .ok (column, steps)) (value : Expr) :
    h.apply u path value = u.modify column (h.make value steps) := by
  have hjson : forall {k : Compiler -> TypedFragment -> List JsonStep -> Result TypedFragment},
      (forall c current, k c current steps = do
        return h.written steps current (<- Update.jsonValue c value)) ->
      u.modifyJson path k = u.modify column (h.make value steps) := by
    intro k hk
    unfold Update.modifyJson
    rw [herror]
    dsimp only
    rw [htarget]
    refine congrArg (u.modify column) (funext fun c => funext fun d => funext fun current => ?_)
    rw [make, hk]
  cases h with
  | set =>
      refine hjson fun c current => ?_
      refine congrArg (Update.jsonValue c value >>= ·) (funext fun f => ?_)
      rw [written]
      split <;> rfl
  | append => exact hjson fun c current => rfl
  | removeValue =>
      refine hjson fun c current => ?_
      refine congrArg (Update.jsonValue c value >>= ·) (funext fun f => ?_)
      rw [written]
      dsimp only
      split <;> rfl

end JsonHelper

/-!
## Mentions
-/

/-- The elements of a list under the alias `e`, which is their column as well. -/
def listElements : Relation := ⟨"e", ["e"]⟩

/-- The elements of a JSON array under the alias `e`; their column is `value`. -/
def jsonElements : Relation := ⟨"e", ["value"]⟩

def ListHelper.mentions (h : ListHelper) (current value : List Mention) : List Mention :=
  match h with
  | add | remove => current ++ value
  | addDistinct => current ++ value ++ current.map (.inside listElements)
  | removeAll => current ++ value.map (.inside listElements)

def JsonHelper.mentions (h : JsonHelper) (steps : List JsonStep) (current value : List Mention) :
    List Mention :=
  match h with
  | set => if steps.isEmpty then value else current ++ value
  | append => current ++ value
  | removeValue =>
      if steps.isEmpty then current ++ value.map (.inside jsonElements)
      else current ++ (current ++ value.map (.inside jsonElements))

namespace Situation

variable {s : Situation} {r : Rendered} {parts : List Part} {regions : List Region}
  {found : List Lookup} {levels : List (List Relation)}

theorem Opened.finds (h : s.Opened r parts regions found) {f : Fragment} (hparts : f.parts = parts)
    {mentions : List Mention} (hfound : found = mentions.map (·.lookup levels)) :
    Passes s.conforming s.outer (s.write r f.parts).sql.toList regions ∧
      s.lookups r f.parts = mentions.map (·.lookup levels) := by
  rw [hparts]
  exact ⟨h.reaches.passes, h.lookups.trans hfound⟩

/-- A text that opens as many brackets in an expression, and does nothing else. -/
def OpensBrackets (s : Situation) (text : String) (depth : Nat) : Prop :=
  forall levels regions, scanText? s.conforming (⟨levels, .expression⟩ :: regions) text =
    some (bracketed levels depth regions)

theorem finds_call {before : String} (hbefore : s.OpensBrackets before 1) {first second : Fragment}
    {ms ns : List Mention} (hfirst : s.Finds first ms) (hsecond : s.Finds second ns) :
    s.Finds (((((Fragment.empty.text before).nested first).text ", ").nested second).text ")")
      (ms ++ ns) := by
  intro r levels regions hreaches
  let here : Region := ⟨levels, .expression⟩
  have hstart : s.Opened r [] (here :: regions) [] := opened_nil hreaches
  have hopen := hstart.text before (here :: here :: regions) (hbefore levels regions)
  have hcomma := (hopen.nested hfirst).text ", " (here :: here :: regions) rfl
    (by cases s.conforming <;> rfl)
  have hclose := (hcomma.nested hsecond).text ")" (here :: regions) rfl
    (by cases s.conforming <;> rfl)
  exact hclose.finds rfl (by simp)

theorem finds_listHelper (h : ListHelper) (value : Expr) (type : SqlType)
    {current f : TypedFragment} {ms ns : List Mention} (hcurrent : s.Finds current.query ms)
    (hf : s.Finds f.query ns) :
    s.Finds ((h.assignment value).written type current f).query (h.mentions ms ns) := by
  intro r levels regions hreaches
  let here : Region := ⟨levels, .expression⟩
  let condition : Region := ⟨[listElements] :: levels, .expression⟩
  have hstart : s.Opened r [] (here :: regions) [] := opened_nil hreaches
  cases h with
  | add => exact finds_call (fun _ _ => by cases s.conforming <;> rfl) hcurrent hf hreaches
  | addDistinct =>
      have hopen := hstart.text "array_cat(" (here :: here :: regions)
        (by cases s.conforming <;> rfl)
      have hunnest := (hopen.nested hcurrent).text ", ARRAY(SELECT e FROM unnest("
        (here :: ⟨levels, .rows "unnest"⟩ :: here :: here :: regions) rfl
        (by cases s.conforming <;> rfl)
      have habsent := (hunnest.nested hf).text ") AS e WHERE NOT (e = ANY(COALESCE("
        (condition :: condition :: condition :: condition :: here :: here :: regions) rfl
        (by cases s.conforming <;> rfl)
      have hclose := (habsent.nested hcurrent).text ", '\x7b\x7d')))))" (here :: regions) rfl
        (by cases s.conforming <;> rfl)
      exact hclose.finds rfl (by simp [ListHelper.mentions, Mention.lookup_inside])
  | remove => exact finds_call (fun _ _ => by cases s.conforming <;> rfl) hcurrent hf hreaches
  | removeAll =>
      have hunnest := hstart.text "ARRAY(SELECT e FROM unnest("
        (here :: ⟨levels, .rows "unnest"⟩ :: here :: regions) (by cases s.conforming <;> rfl)
      have hkept := (hunnest.nested hcurrent).text ") AS e WHERE e <> ALL("
        (condition :: condition :: here :: regions) rfl (by cases s.conforming <;> rfl)
      have hclose := (hkept.nested hf).text "))" (here :: regions) rfl
        (by cases s.conforming <;> rfl)
      exact hclose.finds rfl (by simp [ListHelper.mentions, Mention.lookup_inside])

/-!
## JSON paths
-/

theorem finds_value (hmode : s.mode ≠ .bound .atSign) (v : Typed) :
    s.Finds (Fragment.empty.value v) [] :=
  finds_of_isExpression hmode
    (fun _ => ⟨v.tree, Reader.means_value v, v.inert_tree.isQualified⟩)
    fun _ hpart => absurd hpart List.not_mem_nil

theorem parts_value (f : Fragment) (v : Typed) : (f.value v).parts = f.parts ++ [.value v] := by
  rcases Fragment.pushPart_cases (.value v) f.parts with hpush | ⟨_, _, _, -, htext, -⟩
  · exact hpush
  · cases htext

theorem closed_value (f : Fragment) (v : Typed) : Part.Closed (f.value v).parts := by
  rw [parts_value]
  exact Part.closed_concat _ fun _ => Part.noConfusion

theorem parts_text {f : Fragment} (h : Part.Closed f.parts) (text : String) :
    (f.text text).parts = f.parts ++ [.text text] := by
  have hpush := pushPart_append h (.text text) []
  rwa [List.append_nil] at hpush

theorem finds_pathArray (hmode : s.mode ≠ .bound .atSign) (steps : List JsonStep) :
    s.Finds (Update.pathArray steps) [] := by
  intro r levels regions hreaches
  let here : Region := ⟨levels, .expression⟩
  have hstart : s.Opened r [] (here :: regions) [] := opened_nil hreaches
  have hopen := hstart.text "ARRAY[" (here :: here :: regions) (by cases s.conforming <;> rfl)
  -- Behind the first step, which has number 0, every step follows a comma.
  have hrest : forall (rest : List JsonStep) (n : Nat) (f : Fragment), Part.Closed f.parts ->
      s.Passed r f.parts (here :: here :: regions) [] ->
      let g := (rest.zipIdx (n + 1)).foldl (fun query entry =>
        (if entry.2 = 0 then query else query.text ",").value
          ⟨.text entry.1.asText, .text⟩) f
      Part.Closed g.parts ∧ s.Passed r g.parts (here :: here :: regions) [] := by
    intro rest
    induction rest with
    | nil => exact fun _ _ hclosed hf => ⟨hclosed, hf⟩
    | cons step more ih =>
        intro n f hclosed hf
        rw [List.zipIdx_cons, List.foldl_cons, if_neg (Nat.succ_ne_zero n)]
        refine ih (n + 1) _ (closed_value _ _) ?_
        have hcomma := hf.text "," (here :: here :: regions) rfl (by cases s.conforming <;> rfl)
        rw [parts_value, parts_text hclosed]
        exact hcomma.append (finds_value hmode _)
  unfold Update.pathArray
  cases steps with
  | nil =>
      have hwhole := hstart.text "ARRAY[]::text[]" (here :: regions)
        (by cases s.conforming <;> rfl)
      exact hwhole.finds rfl rfl
  | cons step rest =>
      have hfirst := hopen.append (finds_value hmode ⟨.text step.asText, .text⟩)
      rcases hrest rest 0 _ (closed_value (Fragment.empty.text "ARRAY[") _) hfirst with
        ⟨hclosed, hpassed⟩
      have hclose := hpassed.text "]::text[]" (here :: regions) rfl
        (by cases s.conforming <;> rfl)
      exact hclose.finds (parts_text hclosed _) rfl

/-!
## JSON helpers
-/

theorem finds_kept {elements value : Fragment} {ms ns : List Mention}
    (helements : s.Finds elements ms) (hvalue : s.Finds value ns) :
    s.Finds (((((Fragment.empty.text
        "(SELECT COALESCE(jsonb_agg(e), '[]'::jsonb) FROM jsonb_array_elements(").nested
          elements).text ") AS e WHERE e <> ").nested value).text ")")
      (ms ++ ns.map (Mention.inside jsonElements)) := by
  intro r levels regions hreaches
  let here : Region := ⟨levels, .expression⟩
  have hstart : s.Opened r [] (here :: regions) [] := opened_nil hreaches
  have hfrom := hstart.text
    "(SELECT COALESCE(jsonb_agg(e), '[]'::jsonb) FROM jsonb_array_elements("
    (here :: ⟨levels, .rows "jsonb_array_elements"⟩ :: here :: regions)
    (by cases s.conforming <;> rfl)
  have hwhere := (hfrom.nested helements).text ") AS e WHERE e <> "
    (⟨[jsonElements] :: levels, .expression⟩ :: here :: regions) rfl
    (by cases s.conforming <;> rfl)
  have hclose := (hwhere.nested hvalue).text ")" (here :: regions) rfl
    (by cases s.conforming <;> rfl)
  exact hclose.finds rfl (by simp [Mention.lookup_inside])

theorem finds_reached {current path : Fragment} {ms : List Mention}
    (hcurrent : s.Finds current ms) (hpath : s.Finds path []) :
    s.Finds (((((Fragment.empty.text "(").nested current).text " #> ").nested path).text ")")
      ms := by
  intro r levels regions hreaches
  let here : Region := ⟨levels, .expression⟩
  have hstart : s.Opened r [] (here :: regions) [] := opened_nil hreaches
  have hopen := hstart.text "(" (here :: here :: regions) (by cases s.conforming <;> rfl)
  have harrow := (hopen.nested hcurrent).text " #> " (here :: here :: regions) rfl
    (by cases s.conforming <;> rfl)
  have hclose := (harrow.nested hpath).text ")" (here :: regions) rfl
    (by cases s.conforming <;> rfl)
  exact hclose.finds rfl (by simp)

theorem finds_documentCall {before after : String} (hbefore : s.OpensBrackets before 2)
    (hdelimited : after.toList.head?.any isDelimiter = true)
    (hafter : forall levels regions,
      scanText? s.conforming (bracketed levels 1 regions) after =
        some (⟨levels, .expression⟩ :: regions))
    {current path value : Fragment} {ms ns : List Mention} (hcurrent : s.Finds current ms)
    (hpath : s.Finds path []) (hvalue : s.Finds value ns) :
    s.Finds (((((((Fragment.empty.text before).nested current).text
      ", '\x7b\x7d'::jsonb), ").nested path).text ", ").nested value).text after) (ms ++ ns) := by
  intro r levels regions hreaches
  let here : Region := ⟨levels, .expression⟩
  have hstart : s.Opened r [] (here :: regions) [] := opened_nil hreaches
  have hopen := hstart.text before (here :: here :: here :: regions) (hbefore levels regions)
  have htarget := (hopen.nested hcurrent).text ", '\x7b\x7d'::jsonb), " (here :: here :: regions)
    rfl (by cases s.conforming <;> rfl)
  have hcomma := (htarget.nested hpath).text ", " (here :: here :: regions) rfl
    (by cases s.conforming <;> rfl)
  have hclose := (hcomma.nested hvalue).text after (here :: regions) hdelimited
    (hafter levels regions)
  exact hclose.finds rfl (by simp)

theorem finds_jsonHelper (hmode : s.mode ≠ .bound .atSign) (h : JsonHelper)
    (steps : List JsonStep) {current f : TypedFragment} {ms ns : List Mention}
    (hcurrent : s.Finds current.query ms) (hf : s.Finds f.query ns) :
    s.Finds (h.written steps current f).query (h.mentions steps ms ns) := by
  have hpath := finds_pathArray hmode steps
  cases h with
  | set =>
      rw [JsonHelper.written, JsonHelper.mentions]
      split
      · exact hf
      · exact finds_documentCall (fun _ _ => by cases s.conforming <;> rfl) rfl
          (fun _ _ => by cases s.conforming <;> rfl) hcurrent hpath hf
  | append =>
      exact finds_documentCall (fun _ _ => by cases s.conforming <;> rfl) rfl
        (fun _ _ => by cases s.conforming <;> rfl) hcurrent hpath hf
  | removeValue =>
      rw [JsonHelper.written, JsonHelper.mentions]
      split
      · exact finds_kept hcurrent hf
      · have hkept := finds_kept (finds_reached hcurrent hpath) hf
        intro r levels regions hreaches
        let here : Region := ⟨levels, .expression⟩
        have hstart : s.Opened r [] (here :: regions) [] := opened_nil hreaches
        have hopen := hstart.text "jsonb_set(" (here :: here :: regions)
          (by cases s.conforming <;> rfl)
        have hfirst := (hopen.nested hcurrent).text ", " (here :: here :: regions) rfl
          (by cases s.conforming <;> rfl)
        have hsecond := (hfirst.nested hpath).text ", " (here :: here :: regions) rfl
          (by cases s.conforming <;> rfl)
        have hclose := (hsecond.nested hkept).text ")" (here :: regions) rfl
          (by cases s.conforming <;> rfl)
        exact hclose.finds rfl (by simp)

end Situation
end TypedQuery
