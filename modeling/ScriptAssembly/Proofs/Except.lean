import Mathlib.Data.List.Forall2
/-
Computations that may fail, taken apart: what it means that a sequence or a
traversal of them succeeds, and which of many faults it fails with
(`Reports`).
-/
namespace ScriptAssembly

variable {ε α β : Type}

theorem bind_eq_ok {x : Except ε α} {f : α → Except ε β} {y : β} :
    (x >>= f) = .ok y ↔ ∃ a, x = .ok a ∧ f a = .ok y := by
  cases x <;> simp [bind, Except.bind]

theorem pure_eq_ok {x y : α} : (pure x : Except ε α) = .ok y ↔ x = y := by
  simp [pure, Except.pure]

theorem mapError_eq_ok {ε' : Type} {f : ε → ε'} {x : Except ε α} {y : α} :
    x.mapError f = .ok y ↔ x = .ok y := by
  cases x <;> simp [Except.mapError]

theorem exists_ok_of_isOk {x : Except ε α} (h : x.isOk = true) : ∃ y, x = .ok y := by
  cases x with
  | ok y => exact ⟨y, rfl⟩
  | error e => simp [Except.isOk, Except.toBool] at h

theorem eq_ok_get {x : Except ε α} (h : x.toOption.isSome = true) : x = .ok (x.toOption.get h) := by
  cases x with
  | ok y => rfl
  | error e => cases h

/-- What a computation is seen to give in part, and what holds of everything it gives. -/
theorem exists_ok_and {x : Except ε α} {f : α → β} {y : β} {P : α → Prop} (h : x.toOption.map f = some y)
    (hp : ∀ a, x = .ok a → P a) : ∃ a, x = .ok a ∧ f a = y ∧ P a := by
  cases x with
  | ok a => exact ⟨a, rfl, Option.some.inj h, hp a rfl⟩
  | error e => cases h

/-- A traversal succeeds where each of its computations does. -/
theorem mapM_eq_ok {f : α → Except ε β} {xs : List α} {ys : List β} :
    xs.mapM f = .ok ys ↔ List.Forall₂ (fun x y => f x = .ok y) xs ys := by
  induction xs generalizing ys with
  | nil => rw [List.mapM_nil, pure_eq_ok, List.forall₂_nil_left_iff, eq_comm]
  | cons x xs ih =>
    simp only [List.mapM_cons, bind_eq_ok, pure_eq_ok, List.forall₂_cons_left_iff, ih]
    constructor
    · intro h
      obtain ⟨y, hy, ys', hys, rfl⟩ := h
      exact ⟨y, ys', hy, hys, rfl⟩
    · intro h
      obtain ⟨y, ys', hy, hys, rfl⟩ := h
      exact ⟨y, hy, ys', hys, rfl⟩

/-- A traversal succeeds where each computation gives something of which the wanted is seen. -/
theorem exists_mapM_eq_ok {γ : Type} {f : α → Except ε β} {g : α → γ} {view : β → γ} {xs : List α}
    (h : ∀ x ∈ xs, ∃ y, f x = .ok y ∧ view y = g x) : ∃ ys, xs.mapM f = .ok ys ∧ ys.map view = xs.map g := by
  induction xs with
  | nil => exact ⟨[], mapM_eq_ok.mpr .nil, rfl⟩
  | cons x xs ih =>
    obtain ⟨y, hy, hview⟩ := h x List.mem_cons_self
    obtain ⟨ys, hys, hviews⟩ := ih fun x' hx' => h x' (List.mem_cons_of_mem x hx')
    refine ⟨y :: ys, mapM_eq_ok.mpr (.cons hy (mapM_eq_ok.mp hys)), ?_⟩
    rw [List.map_cons, List.map_cons, hview, hviews]

/-- Computations that all succeed are those of their results. -/
theorem map_eq_map_ok {f : α → Except ε β} {xs : List α} {ys : List β} :
    xs.map f = ys.map .ok ↔ List.Forall₂ (fun x y => f x = .ok y) xs ys := by
  rw [← List.forall₂_map_right_iff (R := fun x y => f x = y), ← List.forall₂_map_left_iff (R := Eq),
    List.forall₂_eq_eq_eq]

/-! ## The first of many faults -/

/-- A computation that fails with the first of the given faults, and succeeds where there is none. -/
def Reports (x : Except ε α) (faults : List ε) : Prop :=
  match x with
  | .ok _ => faults = []
  | .error e => faults.head? = some e

namespace Reports

variable {x : Except ε α} {f : α → Except ε β} {faults more : List ε}

theorem ok_iff (h : Reports x faults) : (∃ a, x = .ok a) ↔ faults = [] := by
  cases x with
  | ok a => exact ⟨fun _ => h, fun _ => ⟨a, rfl⟩⟩
  | error e =>
    have hhead : faults.head? = some e := h
    simp only [reduceCtorEq, exists_false, false_iff]
    intro hnil
    simp [hnil] at hhead

theorem error_iff (h : Reports x faults) {e : ε} : x = .error e ↔ faults.head? = some e := by
  cases x with
  | ok a =>
    have hnil : faults = [] := h
    simp [hnil]
  | error e' =>
    have hhead : faults.head? = some e' := h
    rw [hhead, Except.error.injEq, Option.some.injEq]

/-- Where more faults are looked for behind the first ones, they are found where the first ones are not. -/
theorem error_iff_of_append {y : Except ε β} (hx : Reports x faults) (hy : Reports y (faults ++ more)) {e : ε} :
    y = .error e ↔ x = .error e ∨ (∃ a, x = .ok a) ∧ more.head? = some e := by
  rw [hy.error_iff, hx.error_iff, hx.ok_iff, List.head?_append, Option.or_eq_some_iff, List.head?_eq_none_iff]

theorem pure (a : α) : Reports (Pure.pure a : Except ε α) [] := rfl

/-- In a sequence, what is done first has its faults in front. -/
theorem bind (hx : Reports x faults) (hf : ∀ a, x = .ok a → Reports (f a) more) :
    Reports (x >>= f) (faults ++ more) := by
  cases x with
  | ok a =>
    have hnil : faults = [] := hx
    rw [hnil, List.nil_append]
    exact hf a rfl
  | error e =>
    have hhead : faults.head? = some e := hx
    show (faults ++ more).head? = some e
    rw [List.head?_append, hhead, Option.some_or]

/-- What is made of the outcome in the end has no faults of its own. -/
theorem bind_pure (hx : Reports x faults) (g : α → β) : Reports (x >>= fun a => Pure.pure (g a)) faults := by
  have h := hx.bind (f := fun a => Pure.pure (g a)) fun a _ => pure (g a)
  rwa [List.append_nil] at h

/-- A traversal has the faults of its computations, one after another. -/
theorem mapM {g : α → List ε} {xs : List α} (h : ∀ a ∈ xs, Reports (f a) (g a)) :
    Reports (xs.mapM f) (xs.flatMap g) := by
  induction xs with
  | nil => exact .pure []
  | cons a xs ih =>
    rw [List.mapM_cons, List.flatMap_cons]
    refine (h a List.mem_cons_self).bind fun b _ => ?_
    exact (ih fun a' ha' => h a' (List.mem_cons_of_mem a ha')).bind_pure (b :: ·)

theorem mapError {ε' : Type} (g : ε → ε') (h : Reports x faults) : Reports (x.mapError g) (faults.map g) := by
  cases x with
  | ok a => exact congrArg (List.map g) h
  | error e =>
    show (faults.map g).head? = some (g e)
    have hhead : faults.head? = some e := h
    rw [List.head?_map, hhead, Option.map_some]

end Reports

end ScriptAssembly
