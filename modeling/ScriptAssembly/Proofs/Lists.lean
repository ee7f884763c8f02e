import Mathlib.Data.List.Basic
import Mathlib.Data.List.Forall2
import Mathlib.Data.List.Induction
/-
Lists: elements without their repetitions, one more element at the end,
lists that are related element by element, and where a list can be split.
-/
namespace ScriptAssembly

variable {α β : Type}

/-! ## Repetitions -/

/-- One more element is kept where it is a new one. -/
theorem eraseDups_snoc [DecidableEq α] (xs : List α) (x : α) :
    (xs ++ [x]).eraseDups = if x ∈ xs then xs.eraseDups else xs.eraseDups ++ [x] := by
  rw [List.eraseDups_append]
  by_cases hx : x ∈ xs <;> simp [List.removeAll, hx, List.eraseDups_cons]

theorem eraseDups_nodup [DecidableEq α] (xs : List α) : xs.eraseDups.Nodup := by
  induction xs using List.reverseRecOn with
  | nil => exact .nil
  | append_singleton xs x ih =>
    rw [eraseDups_snoc]
    split
    · exact ih
    next hx =>
      refine List.nodup_append.mpr ⟨ih, by simp, fun y hy z hz => ?_⟩
      intro hyz
      subst hyz
      rw [List.mem_singleton.mp hz] at hy
      exact hx (List.mem_eraseDups.mp hy)

theorem eraseDups_filter [DecidableEq α] (p : α → Bool) (xs : List α) :
    (xs.filter p).eraseDups = xs.eraseDups.filter p := by
  induction xs using List.reverseRecOn with
  | nil => rfl
  | append_singleton xs x ih =>
    rw [List.filter_append, eraseDups_snoc]
    by_cases hp : p x
    · have hone : [x].filter p = [x] := by simp [hp]
      rw [hone, eraseDups_snoc, ih]
      by_cases hx : x ∈ xs <;> simp [hx, hp]
    · have hnone : [x].filter p = [] := by simp [hp]
      rw [hnone, List.append_nil, ih]
      split <;> simp [hp]

/-- An element has one place in a list without repetitions. -/
theorem getElem?_eraseDups_inj [DecidableEq α] {xs : List α} {x : α} {i j : Nat} (hi : xs.eraseDups[i]? = some x)
    (hj : xs.eraseDups[j]? = some x) : i = j := by
  obtain ⟨hlt, -⟩ := List.getElem?_eq_some_iff.mp hi
  exact (List.getElem?_inj hlt (eraseDups_nodup xs)).mp (hi.trans hj.symm)

/-- The first elements keep their places, whatever comes behind them. -/
theorem prefix_eraseDups_append [DecidableEq α] (xs ys : List α) : xs.eraseDups <+: (xs ++ ys).eraseDups := by
  rw [List.eraseDups_append]
  exact List.prefix_append ..

/-- In front of an element stand the different ones that come before it for the first time. -/
theorem getElem?_eraseDups_takeWhile [DecidableEq α] {xs : List α} {x : α} (hx : x ∈ xs) :
    xs.eraseDups[(xs.takeWhile (· != x)).eraseDups.length]? = some x := by
  obtain ⟨before, after, rfl, hnot⟩ := List.eq_append_cons_of_mem hx
  have htake : (before ++ x :: after).takeWhile (· != x) = before := by
    rw [List.takeWhile_append_of_pos fun y hy => bne_iff_ne.mpr (ne_of_mem_of_not_mem hy hnot)]
    simp
  have hprefix := prefix_eraseDups_append (before ++ [x]) after
  rw [eraseDups_snoc, if_neg hnot, ← List.append_cons] at hprefix
  have hplace := List.prefix_iff_getElem?.mp hprefix before.eraseDups.length (by simp)
  rw [htake, hplace]
  simp

/-! ## Positions -/

theorem getElem?_concat_iff {xs : List α} {x y : α} {k : Nat} :
    (xs ++ [x])[k]? = some y ↔ xs[k]? = some y ∨ k = xs.length ∧ x = y := by
  rcases Nat.lt_trichotomy k xs.length with hk | hk | hk
  · rw [List.getElem?_append_left hk]
    simp [Nat.ne_of_lt hk]
  · simp [hk]
  · rw [List.getElem?_eq_none (by simp; omega), List.getElem?_eq_none (by omega)]
    simp [Nat.ne_of_gt hk]

/-! ## Lists related element by element -/

theorem getElem?_forall₂ {R : α → β → Prop} {xs : List α} {ys : List β} (h : List.Forall₂ R xs ys)
    {k : Nat} {y : β} (hy : ys[k]? = some y) : ∃ x, xs[k]? = some x ∧ R x y := by
  obtain ⟨hk, rfl⟩ := List.getElem?_eq_some_iff.mp hy
  have hk' : k < xs.length := h.length_eq ▸ hk
  exact ⟨xs[k], List.getElem?_eq_getElem hk', h.get hk' hk⟩

theorem exists_of_mem_forall₂ {R : α → β → Prop} {xs : List α} {ys : List β}
    (h : List.Forall₂ R xs ys) {y : β} (hy : y ∈ ys) : ∃ x ∈ xs, R x y := by
  obtain ⟨k, hk⟩ := List.mem_iff_getElem?.mp hy
  obtain ⟨x, hx, hr⟩ := getElem?_forall₂ h hk
  exact ⟨x, List.mem_of_getElem? hx, hr⟩

theorem exists_mem_iff_of_forall₂ {R : α → β → Prop} {P : α → Prop} {Q : β → Prop} {xs : List α} {ys : List β}
    (h : List.Forall₂ R xs ys) (hR : ∀ x y, R x y → (P x ↔ Q y)) : (∃ x ∈ xs, P x) ↔ ∃ y ∈ ys, Q y := by
  induction h with
  | nil => simp
  | cons hxy _ ih => simp only [List.exists_mem_cons_iff, hR _ _ hxy, ih]

/-! ## Splitting -/

/-- A list splits in one way only where a property ends for the first time. -/
theorem append_cons_inj_of_forall {p : α → Prop} {a b : α} {as bs cs ds : List α} (has : ∀ x ∈ as, p x)
    (hcs : ∀ x ∈ cs, p x) (ha : ¬ p a) (hb : ¬ p b) (h : as ++ a :: bs = cs ++ b :: ds) :
    as = cs ∧ a :: bs = b :: ds := by
  rcases List.append_eq_append_iff.mp h with ⟨es, rfl, he⟩ | ⟨es, rfl, he⟩ <;> cases es with
  | nil => simp_all
  | cons e es =>
    obtain ⟨rfl, -⟩ := List.cons.inj he
    simp_all

/-- A list splits in one way only at the first place of an element. -/
theorem append_cons_inj_left {a : α} {as bs cs ds : List α} (ha : a ∉ as) (hc : a ∉ cs)
    (h : as ++ a :: bs = cs ++ a :: ds) : as = cs ∧ bs = ds := by
  obtain ⟨hac, hbd⟩ := append_cons_inj_of_forall (p := (· ≠ a)) (fun _ hx => ne_of_mem_of_not_mem hx ha)
    (fun _ hx => ne_of_mem_of_not_mem hx hc) (not_not.mpr rfl) (not_not.mpr rfl) h
  exact ⟨hac, (List.cons.inj hbd).2⟩

/-- A list splits in one way only at the last place of an element. -/
theorem append_cons_inj_right {a : α} {as bs cs ds : List α} (hb : a ∉ bs) (hd : a ∉ ds)
    (h : as ++ a :: bs = cs ++ a :: ds) : as = cs ∧ bs = ds := by
  have hr : bs.reverse ++ a :: as.reverse = ds.reverse ++ a :: cs.reverse := by
    simpa using congrArg List.reverse h
  obtain ⟨hbd, hac⟩ := append_cons_inj_left (by simpa using hb) (by simpa using hd) hr
  exact ⟨List.reverse_inj.mp hac, List.reverse_inj.mp hbd⟩

end ScriptAssembly
