import Mathlib.Data.List.Forall2
import TypedQuery.Error

/-!
# Steps that may fail

A computation that goes on after a step succeeds exactly when the step does and what follows it
does.
-/

namespace TypedQuery
namespace Result

variable {α β : Type}

@[simp] theorem ok_bind (a : α) (f : α -> Result β) : ((Except.ok a : Result α) >>= f) = f a := rfl

@[simp] theorem error_bind (e : Error) (f : α -> Result β) :
    ((Except.error e : Result α) >>= f) = .error e := rfl

@[simp] theorem pure_eq_ok (a : α) : (pure a : Result α) = .ok a := rfl

theorem bind_eq_ok {x : Result α} {f : α -> Result β} {b : β} :
    (x >>= f) = .ok b <-> exists a, x = .ok a ∧ f a = .ok b := by
  cases x with
  | error e =>
      constructor
      · intro h
        cases h
      · rintro ⟨a, ha, -⟩
        cases ha
  | ok a =>
      constructor
      · intro h
        exact ⟨a, rfl, h⟩
      · rintro ⟨a', ha, h⟩
        cases ha
        exact h

theorem exists_bind_iff {x : Result α} {f : α -> Result β} :
    (exists b, (x >>= f) = .ok b) <-> exists a, x = .ok a ∧ exists b, f a = .ok b := by
  simp only [bind_eq_ok]
  rw [exists_comm]
  simp only [exists_and_left]

theorem exists_error_iff {x : Result α} :
    (exists e, x = .error e) <-> ¬ exists a, x = .ok a := by
  cases x <;> simp

theorem map_eq_ok {x : Result α} {f : α -> β} {b : β} :
    x.map f = .ok b <-> exists a, x = .ok a ∧ f a = b := by
  cases x with
  | error e => simp [Except.map]
  | ok a => simp [Except.map]

theorem map_eq_error {x : Result α} {f : α -> β} {e : Error} :
    x.map f = .error e <-> x = .error e := by
  cases x <;> simp [Except.map]

theorem mapM_eq_ok {f : α -> Result β} {xs : List α} {ys : List β} :
    xs.mapM f = .ok ys <-> List.Forall₂ (fun x y => f x = .ok y) xs ys := by
  induction xs generalizing ys with
  | nil =>
      rw [List.mapM_nil, List.forall₂_nil_left_iff]
      constructor
      · intro h
        cases h
        rfl
      · rintro rfl
        rfl
  | cons x rest ih =>
      rw [List.mapM_cons, bind_eq_ok, List.forall₂_cons_left_iff]
      constructor
      · rintro ⟨y, hy, h⟩
        rcases bind_eq_ok.mp h with ⟨more, hmore, heq⟩
        cases heq
        exact ⟨y, more, hy, ih.mp hmore, rfl⟩
      · rintro ⟨y, more, hy, hmore, rfl⟩
        exact ⟨y, hy, bind_eq_ok.mpr ⟨more, ih.mpr hmore, rfl⟩⟩

theorem mapM_append {f : α -> Result β} {xs xs' : List α} {ys ys' : List β}
    (h : xs.mapM f = .ok ys) (h' : xs'.mapM f = .ok ys') :
    (xs ++ xs').mapM f = .ok (ys ++ ys') :=
  mapM_eq_ok.mpr (List.rel_append (mapM_eq_ok.mp h) (mapM_eq_ok.mp h'))

theorem exists_image_of_mapM {f : α -> Result β} {xs : List α} {ys : List β}
    (h : xs.mapM f = .ok ys) {x : α} (hx : x ∈ xs) : exists y, y ∈ ys ∧ f x = .ok y := by
  induction mapM_eq_ok.mp h with
  | nil => cases hx
  | @cons _ y rest more hy hrest ih =>
      cases hx with
      | head => exact ⟨y, List.mem_cons_self, hy⟩
      | tail _ hx =>
          rcases ih (mapM_eq_ok.mpr hrest) hx with ⟨z, hz, hxz⟩
          exact ⟨z, List.mem_cons_of_mem _ hz, hxz⟩

theorem exists_mapM_iff {f : α -> Result β} {xs : List α} :
    (exists ys, xs.mapM f = .ok ys) <-> forall x, x ∈ xs -> exists y, f x = .ok y := by
  constructor
  · rintro ⟨ys, h⟩ x hx
    rcases exists_image_of_mapM h hx with ⟨y, -, hy⟩
    exact ⟨y, hy⟩
  · intro h
    induction xs with
    | nil => exact ⟨[], rfl⟩
    | cons x rest ih =>
        rcases h x List.mem_cons_self with ⟨y, hy⟩
        rcases ih fun x hx => h x (List.mem_cons_of_mem _ hx) with ⟨more, hmore⟩
        exact ⟨y :: more, mapM_eq_ok.mpr (.cons hy (mapM_eq_ok.mp hmore))⟩

theorem exists_origin_of_mapM {f : α -> Result β} {xs : List α} {ys : List β}
    (h : xs.mapM f = .ok ys) {y : β} (hy : y ∈ ys) : exists x, x ∈ xs ∧ f x = .ok y := by
  induction mapM_eq_ok.mp h with
  | nil => cases hy
  | @cons x _ rest more hxy hrest ih =>
      cases hy with
      | head => exact ⟨x, List.mem_cons_self, hxy⟩
      | tail _ hy =>
          rcases ih (mapM_eq_ok.mpr hrest) hy with ⟨z, hz, hzy⟩
          exact ⟨z, List.mem_cons_of_mem _ hz, hzy⟩

theorem flatMap_of_mapM {γ : Type} {f : α -> Result β} {xs : List α} {ys : List β}
    (h : xs.mapM f = .ok ys) {g : β -> List γ} {k : α -> List γ}
    (hstep : forall x y, f x = .ok y -> g y = k x) : ys.flatMap g = xs.flatMap k := by
  induction mapM_eq_ok.mp h with
  | nil => rfl
  | @cons x y rest more hxy hrest ih =>
      rw [List.flatMap_cons, List.flatMap_cons, hstep x y hxy, ih (mapM_eq_ok.mpr hrest)]

/-- A step that undoes another does so for lists. -/
theorem mapM_of_inverse {f : α -> Result β} {g : β -> Result α} {xs : List α} {ys : List β}
    (h : xs.mapM f = .ok ys) (hinverse : forall x, x ∈ xs -> forall y, f x = .ok y -> g y = .ok x) :
    ys.mapM g = .ok xs := by
  induction mapM_eq_ok.mp h with
  | nil => rfl
  | @cons x y rest more hxy hrest ih =>
      have hfirst : g y = .ok x := hinverse x List.mem_cons_self y hxy
      have hmore : more.mapM g = .ok rest :=
        ih (mapM_eq_ok.mpr hrest) fun x hx => hinverse x (List.mem_cons_of_mem _ hx)
      rw [List.mapM_cons, hfirst, hmore]
      rfl

end Result
end TypedQuery
