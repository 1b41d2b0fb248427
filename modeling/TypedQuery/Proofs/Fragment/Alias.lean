import Mathlib.Data.List.Induction
import Mathlib.Data.List.Nodup
import TypedQuery.Proofs.Fragment.Reference

/-!
# What alias maps bind

Slots of different positions have different names.  A positional map binds every slot to its own
name; of two entries for a slot the later one counts.  The innermost frame decides about the slots
that its map binds, whatever stands around it.
-/

namespace TypedQuery

/-!
## Slots of positions
-/

namespace Slot

theorem ofPosition_injective : Function.Injective ofPosition := by
  intro i j h
  have hname : "t" ++ toString i = "t" ++ toString j := congrArg Slot.name h
  have hdigits := congrArg String.toList hname
  rw [String.toList_append, String.toList_append, List.append_cancel_left_eq,
    Number.toList_toString, Number.toList_toString] at hdigits
  have hvalue := congrArg (Nat.ofDigitChars 10 · 0) hdigits
  simpa only [Nat.ofDigitChars_ten_toDigits] using hvalue

theorem aliasIdent_ofPosition (i : Nat) : aliasIdent (ofPosition i).name = (ofPosition i).name := by
  have hplain : isPlainAlias (ofPosition i).name = true := by
    have hdigits : forall c, c ∈ Nat.toDigits 10 i -> c.isDigit = true :=
      fun c hc => Nat.isDigit_of_mem_toDigits (by decide) (by decide) hc
    unfold isPlainAlias ofPosition
    rw [String.toList_append, Number.toList_toString]
    simp only [show "t".toList = ['t'] from rfl, List.cons_append, List.nil_append,
      Bool.and_eq_true, List.all_eq_true]
    refine ⟨rfl, ?_⟩
    intro c hc
    simp [hdigits c hc]
  rw [aliasIdent, if_pos hplain]

end Slot

/-!
## Maps
-/

namespace AliasMap

theorem binding?_bind (map : AliasMap) (slot other : Slot) (name : String) (t : Table) :
    (map.bind slot name t).binding? other =
      if other = slot then some ⟨slot, name, t.name⟩ else map.binding? other := by
  unfold bind binding?
  rw [List.find?_append, List.find?_filter]
  by_cases heq : other = slot
  · subst heq
    have hnone : map.bindings.find? (fun _ => false) = none := List.find?_eq_none.mpr (by simp)
    simp [hnone]
  · have hlast : slot ≠ other := Ne.symm heq
    have hsame : (fun b : Binding => decide (decide (b.slot ≠ slot) = true ∧
        decide (b.slot = other) = true)) = fun b => decide (b.slot = other) := by
      funext b
      by_cases hb : b.slot = other
      · simp [hb, heq]
      · simp [hb]
    rw [hsame, if_neg heq]
    simp [hlast]

theorem binding?_single (slot : Slot) (t : Table) :
    (single slot t).binding? slot = some ⟨slot, t.name, t.name⟩ := by
  rw [single, binding?_bind, if_pos rfl]

theorem binding?_positional (slots : List (Slot × Table)) (slot : Slot) :
    (positional slots).binding? slot =
      (slots.reverse.find? (·.1 = slot)).map fun entry => ⟨slot, slot.name, entry.2.name⟩ := by
  induction slots using List.reverseRecOn with
  | nil => rfl
  | append_singleton rest entry ih =>
      rcases entry with ⟨last, t⟩
      have hconcat : positional (rest ++ [(last, t)]) =
          (positional rest).bind last last.name t := by
        rw [positional, List.foldl_append]
        rfl
      rw [hconcat, binding?_bind, ih, List.reverse_append, List.reverse_singleton,
        List.singleton_append, List.find?_cons]
      by_cases heq : slot = last
      · simp [heq]
      · simp [heq, Ne.symm heq]

theorem exists_binding_of_mem {slots : List (Slot × Table)} {slot : Slot} {t : Table}
    (h : (slot, t) ∈ slots) :
    exists entry, entry ∈ slots ∧ entry.1 = slot ∧
      (positional slots).binding? slot = some ⟨slot, slot.name, entry.2.name⟩ := by
  rw [binding?_positional]
  cases hfind : slots.reverse.find? (·.1 = slot) with
  | some entry =>
      have hslot : entry.1 = slot := by
        simpa using List.find?_some hfind
      exact ⟨entry, List.mem_reverse.mp (List.mem_of_find?_eq_some hfind), hslot, rfl⟩
  | none =>
      rw [List.find?_eq_none] at hfind
      have hne := hfind (slot, t) (List.mem_reverse.mpr h)
      simp at hne

/-- Where every slot comes once, each is bound to its own name. -/
theorem binding?_positional_of_nodup {slots : List (Slot × Table)} {slot : Slot} {t : Table}
    (hnodup : (slots.map (·.1)).Nodup) (h : (slot, t) ∈ slots) :
    (positional slots).binding? slot = some ⟨slot, slot.name, t.name⟩ := by
  rcases exists_binding_of_mem h with ⟨entry, hentry, hslot, hbinding⟩
  have heq : entry = (slot, t) := List.inj_on_of_nodup_map hnodup hentry h hslot
  rw [hbinding, heq]

end AliasMap

/-!
## Under an innermost frame
-/

namespace Scopes

variable {aliases : AliasMap} {slot : Slot} {b : Binding}

theorem tableName?_push (scopes : Scopes) (unqualified : Bool)
    (h : aliases.binding? slot = some b) :
    (scopes.push aliases unqualified).tableName? slot = b.writtenName? := by
  have hbinding : (scopes.push aliases unqualified).binding? slot = some b := by
    unfold binding? push
    rw [List.findSome?_cons]
    simp only [h]
  rw [tableName?, hbinding]

theorem qualifierName?_push (scopes : Scopes) (h : aliases.binding? slot = some b) :
    (scopes.push aliases false).qualifierName? slot = b.writtenName? :=
  scopes.tableName?_push false h

end Scopes

end TypedQuery
