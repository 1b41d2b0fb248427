import Mathlib.Data.Set.Finite.Basic
import TypedQuery.Proofs.Host.RoundTrip
import TypedQuery.Proofs.Json.Padded

/-!
# Labels that are read

Reading a value of an enum checks its label against those of the type.  The labels inside an array
are checked only where the host type is an enum of its own; a text takes any label, and a document
any label that holds one.
-/

namespace TypedQuery

def EnumType.arrayType (e : EnumType) : Nat -> SqlType
  | 0 => .enum e
  | levels + 1 => .array (e.arrayType levels)

namespace Value

/-- A label as it comes from the server. -/
inductive IsLabel (label : String) : Value -> Prop where
  | enum : IsLabel label (.enum label)
  | text : IsLabel label (.text label)

/-- The values of an enum under a number of array levels; NULL may stand at every level. -/
inductive Labelled : Nat -> Value -> Prop where
  | null (levels : Nat) : Labelled levels .null
  | label {label : String} {v : Value} (h : v.IsLabel label) : Labelled 0 v
  | array {levels : Nat} {items : List Value}
      (h : forall item, item ∈ items -> Labelled levels item) :
      Labelled (levels + 1) (.array items)

inductive Holds (label : String) : Value -> Prop where
  | label {v : Value} (h : v.IsLabel label) : Holds label v
  | item {items : List Value} {item : Value} (hitem : item ∈ items) (h : Holds label item) :
      Holds label (.array items)

def wrapped (v : Value) : Nat -> Value
  | 0 => v
  | levels + 1 => .array [v.wrapped levels]

variable {label : String} {v : Value}

theorem IsLabel.labelled_wrapped (h : v.IsLabel label) (levels : Nat) :
    Labelled levels (v.wrapped levels) := by
  induction levels with
  | zero => exact .label h
  | succ levels ih =>
      refine .array ?_
      intro item hitem
      rwa [List.mem_singleton.mp hitem]

theorem IsLabel.holds_wrapped (h : v.IsLabel label) (levels : Nat) :
    Holds label (v.wrapped levels) := by
  induction levels with
  | zero => exact .label h
  | succ levels ih => exact .item (List.mem_singleton_self _) ih

theorem wrapped_ne_null (h : v.IsLabel label) (levels : Nat) : v.wrapped levels ≠ .null := by
  cases levels with
  | zero => cases h <;> exact Value.noConfusion
  | succ levels => exact Value.noConfusion

end Value

/-!
## Base types
-/

theorem EnumType.hasLabel_iff {e : EnumType} {label : String} :
    e.hasLabel label = true <-> label ∈ e.labels :=
  List.contains_iff_mem

theorem EnumType.exists_unlisted (e : EnumType) {f : Nat -> String} (hf : Function.Injective f) :
    exists n, f n ∉ e.labels := by
  rcases (Set.infinite_range_of_injective hf).exists_notMem_finset e.labels.toFinset with
    ⟨label, ⟨n, rfl⟩, hn⟩
  exact ⟨n, fun hmem => hn (List.mem_toFinset.mpr hmem)⟩

namespace Shape

theorem readItems_emptyStrings (fields : List ShapeField) :
    readItems fields (List.replicate fields.length (.string "")) =
      some (List.replicate fields.length (some "")) := by
  induction fields with
  | nil => rfl
  | cons field rest ih =>
      rw [List.length_cons, List.replicate_succ, readItems, ih]
      rfl

/-- Every shape can be read from a text, and then behind any number of blanks. -/
theorem exists_readable (s : Shape) :
    exists text, forall count, exists x,
      (Json.ofText? (Json.padded text count)).bind s.read? = some x := by
  rcases s with ⟨name, form⟩
  cases form with
  | record fields =>
      let texts : List (Option String) := List.replicate fields.length (some "")
      refine ⟨Json.arrayOfEmpty fields.length, fun count => ⟨texts, ?_⟩⟩
      rw [Json.ofText?_arrayOfEmpty]
      exact readItems_emptyStrings fields
  | closed =>
      refine ⟨"null".toList, fun count => ⟨(), ?_⟩⟩
      rw [Json.ofText?_null]
      rfl

end Shape

namespace HostBase

open Value (IsLabel)

/-- What is read from a label is one that the enum has: texts and documents are free, and an enum
brings labels of its own. -/
def KeepsTo (e : EnumType) : HostBase -> Prop
  | text => False
  | shape _ => False
  | enum own => forall label, label ∈ own.labels -> label ∈ e.labels
  | _ => True

theorem readLabel_eq_ok {e : EnumType} {label : String} {x : { l : String // l ∈ e.labels }}
    (h : readLabel e label = .ok x) : label ∈ e.labels := by
  unfold readLabel at h
  split at h
  · assumption
  · cases h

theorem mem_of_read_enum {own : EnumType} {label : String} {v : Value} {x : (enum own).Carrier}
    (hlabel : v.IsLabel label) (h : (enum own).read v = .ok x) : label ∈ own.labels := by
  cases hlabel with
  | enum => exact readLabel_eq_ok h
  | text => exact readLabel_eq_ok h

theorem read_shape {s : Shape} {text : String} {x : s.Carrier}
    (h : (Json.ofText? text).bind s.read? = some x) : (shape s).read (.text text) = .ok x := by
  change readShape s (Json.ofText? text) = .ok x
  unfold readShape
  rw [h]

theorem keepsTo_iff (b : HostBase) (e : EnumType) :
    b.KeepsTo e <->
      forall label v x, IsLabel label v -> b.read v = .ok x -> label ∈ e.labels := by
  cases b with
  | text =>
      constructor
      · exact False.elim
      · intro h
        rcases e.exists_unlisted (Json.padded_injective []) with ⟨n, hn⟩
        exact hn (h _ _ _ .text rfl)
  | shape s =>
      constructor
      · exact False.elim
      · intro h
        rcases s.exists_readable with ⟨text, hread⟩
        rcases e.exists_unlisted (Json.padded_injective text) with ⟨n, hn⟩
        rcases hread n with ⟨x, hx⟩
        exact hn (h (Json.padded text n) (.text (Json.padded text n)) x .text (read_shape hx))
  | enum own =>
      constructor
      · intro h label v x hlabel hread
        exact h label (mem_of_read_enum hlabel hread)
      · intro h label hmem
        refine h label (.enum label) ⟨label, hmem⟩ .enum ?_
        exact dif_pos hmem
  | _ =>
      refine ⟨?_, fun _ => trivial⟩
      intro _ label v x hlabel hread
      cases hlabel <;> cases hread

end HostBase

/-!
## Options and lists
-/

namespace HostType

/-- What an item is read into below a number of array levels. -/
def atDepth : HostType -> Nat -> Option HostBase
  | base b, 0 => some b
  | base _, _ + 1 => none
  | option t, levels => t.atDepth levels
  | list _, 0 => none
  | list t, levels + 1 => t.atDepth levels

open Value (IsLabel Labelled Holds)

theorem ne_null_of_holds {v : Value} {label : String} (h : Holds label v) : v ≠ .null := by
  rintro rfl
  cases h with
  | label hleaf => cases hleaf

/-- A label in a value that is read has been read by the base type at its depth. -/
theorem exists_read_label {t : HostType} {levels : Nat} {v : Value} {x : t.Carrier}
    {label : String} (hv : Labelled levels v) (hlabel : Holds label v) (h : t.read v = .ok x) :
    exists b, t.atDepth levels = some b ∧
      exists (leaf : Value) (y : b.Carrier), leaf.IsLabel label ∧ b.read leaf = .ok y := by
  induction t generalizing levels v with
  | base b =>
      cases hlabel with
      | label hleaf =>
          cases hv with
          | label => exact ⟨b, rfl, v, x, hleaf, h⟩
          | null => cases hleaf
          | array => cases hleaf
      | item => cases b <;> cases h
  | option t ih =>
      rw [read_option (ne_null_of_holds hlabel)] at h
      rcases Result.bind_eq_ok.mp h with ⟨y, hread, -⟩
      exact ih hv hlabel hread
  | list t ih =>
      cases hlabel with
      | label hleaf => cases hleaf <;> cases h
      | item hitem hinner =>
          cases hv with
          | label hleaf => cases hleaf
          | array hitems =>
              rcases Result.exists_image_of_mapM h hitem with ⟨y, -, hread⟩
              exact ih (hitems _ hitem) hinner hread

theorem exists_read_wrapped {t : HostType} {levels : Nat} {b : HostBase} {v : Value}
    {y : b.Carrier} {label : String} (hb : t.atDepth levels = some b) (hlabel : v.IsLabel label)
    (h : b.read v = .ok y) : exists x, t.read (v.wrapped levels) = .ok x := by
  induction t generalizing levels with
  | base own =>
      cases levels with
      | zero =>
          cases hb
          exact ⟨y, h⟩
      | succ levels => cases hb
  | option t ih =>
      rcases ih hb with ⟨x, hx⟩
      rw [read_option (Value.wrapped_ne_null hlabel levels), hx]
      exact ⟨some x, rfl⟩
  | list t ih =>
      cases levels with
      | zero => cases hb
      | succ levels =>
          rcases ih hb with ⟨x, hx⟩
          have hitems : (list t).read (v.wrapped (levels + 1)) =
            [v.wrapped levels].mapM t.read := rfl
          rw [hitems, List.mapM_cons, hx]
          exact ⟨[x], rfl⟩

theorem readAs_enum (t : HostType) (e : EnumType) {v : Value} {label : String}
    (hlabel : v.IsLabel label) :
    t.readAs (.enum e) v =
      if e.hasLabel label then t.read v else .error (.conversion (.unlisted label e.name)) := by
  cases hlabel with
  | enum => rfl
  | text => rfl

theorem mem_of_readAs_enum {t : HostType} {e : EnumType} {v : Value} {x : t.Carrier}
    {label : String} (hlabel : v.IsLabel label) (h : t.readAs (.enum e) v = .ok x) :
    label ∈ e.labels := by
  rw [readAs_enum t e hlabel] at h
  split at h
  · rename_i hlisted
    exact EnumType.hasLabel_iff.mp hlisted
  · cases h

/-- Only listed labels are read, whatever the value, exactly where it is no array or where the base
type that the labels are read into keeps to the enum. -/
theorem reads_listed_labels_iff (t : HostType) (e : EnumType) (levels : Nat) :
    (forall v x, Labelled levels v -> t.readAs (e.arrayType levels) v = .ok x ->
      forall label, Holds label v -> e.hasLabel label = true) <->
    levels = 0 ∨ forall b, t.atDepth levels = some b -> b.KeepsTo e := by
  cases levels with
  | zero =>
      refine iff_of_true ?_ (Or.inl rfl)
      intro v x hv hread label hlabel
      cases hlabel with
      | label hleaf => exact EnumType.hasLabel_iff.mpr (mem_of_readAs_enum hleaf hread)
      | item =>
          cases hv with
          | label hleaf => cases hleaf
  | succ levels =>
      have hreadAs : forall v, t.readAs (e.arrayType (levels + 1)) v = t.read v := fun _ => rfl
      simp only [hreadAs, EnumType.hasLabel_iff, Nat.add_one_ne_zero, false_or]
      constructor
      · intro h b hb
        refine (HostBase.keepsTo_iff b e).mpr ?_
        intro label v y hlabel hread
        rcases exists_read_wrapped hb hlabel hread with ⟨x, hx⟩
        exact h _ x (hlabel.labelled_wrapped _) hx label (hlabel.holds_wrapped _)
      · intro h v x hv hread label hlabel
        rcases exists_read_label hv hlabel hread with ⟨b, hb, leaf, y, hleaf, hy⟩
        exact (HostBase.keepsTo_iff b e).mp (h b hb) label leaf y hleaf hy

/-- A list of texts takes the labels of an array unchecked. -/
theorem texts_read_unlisted_label :
    Labelled 1 (.array [.enum "angry"]) ∧
    (list (base .text)).readAs (mood.arrayType 1) (.array [.enum "angry"]) =
      .ok (["angry"] : List String) ∧
    Holds "angry" (.array [.enum "angry"]) ∧
    mood.hasLabel "angry" = false :=
  ⟨Value.IsLabel.enum.labelled_wrapped 1, rfl, Value.IsLabel.enum.holds_wrapped 1, by decide⟩

end HostType

end TypedQuery
