import Mathlib.Data.List.Basic
import Mathlib.Logic.Function.Basic

/-!
# Tables

A list whose entries are changed in place and added at the end, read by position, and
a function that is changed at one argument.
-/

namespace Frp

open Function

variable {α β : Type*} {f : α → β} {b : β} {a x : α}

theorem update_cases [DecidableEq α] (P : β → Prop) (h : P (update f a b x)) : x = a ∧ P b ∨ x ≠ a ∧ P (f x) := by
  by_cases hx : x = a
  · subst hx
    rw [update_self] at h; exact .inl ⟨rfl, h⟩
  · rw [update_of_ne hx] at h; exact .inr ⟨hx, h⟩

theorem of_update [DecidableEq α] (P : β → Prop) (h : P (update f a b x)) (hb : ¬ P b) : P (f x) :=
  (update_cases P h).elim (fun hnew => absurd hnew.2 hb) And.right

theorem update_keeps [DecidableEq α] (P : β → Prop) (h : P (f x)) (hb : P (f a) → P b) : P (update f a b x) := by
  by_cases hx : x = a
  · subst hx
    rw [update_self]; exact hb h
  · rw [update_of_ne hx]; exact h

theorem update_same {γ : Type*} [DecidableEq α] (g : β → γ) {a : α} (h : g b = g (f a)) (x : α) :
    g (update f a b x) = g (f x) := by
  by_cases hx : x = a
  · rw [hx, update_self, h]
  · rw [update_of_ne hx]

theorem update_moves [DecidableEq α] {a : α} {owner : Option α} (R : α → β → Prop)
    (h : R a b) (ho : owner = some a) (x : α) : update f a b x = f x ∧ owner ≠ some x ∨ R x (update f a b x) := by
  by_cases hx : x = a
  · subst hx
    rw [update_self]; exact .inr h
  · rw [update_of_ne hx, ho]; exact .inl ⟨rfl, fun heq => hx (Option.some.inj heq).symm⟩

theorem update_clears [DecidableEq α] {a : α} (P : β → Prop)
    (honly : ∀ x, P (f x) → x = a) (hb : ¬ P b) (x : α) : ¬ P (update f a b x) := by
  intro h
  rcases update_cases P h with ⟨-, h⟩ | ⟨hx, h⟩
  · exact hb h
  · exact hx (honly x h)

variable {f : α → Option β} {x y : α}

theorem update_some_iff [DecidableEq α] {a b : β} (h : f x = none) :
    update f x (some a) y = some b ↔ f y = some b ∨ y = x ∧ b = a := by
  by_cases hy : y = x
  · rw [hy, update_self, h]; simp [eq_comm]
  · rw [update_of_ne hy]; simp [hy]

theorem update_none_iff [DecidableEq α] {a b : β} (key : β → α)
    (hf : ∀ x b, f x = some b → key b = x) (h : f x = some a) :
    update f x none y = some b ↔ f y = some b ∧ b ≠ a := by
  by_cases hy : y = x
  · rw [hy, update_self, h]; simp [eq_comm]
  · rw [update_of_ne hy]
    refine ⟨fun hb => ⟨hb, fun hba => hy ?_⟩, And.left⟩
    rw [← hf y b hb, hba, hf x a h]

variable {k : Nat} {l : List α}

theorem getElem?_set_iff {g : Nat} {a b x : α} (hg : l[g]? = some b) :
    (l.set g a)[k]? = some x ↔ k = g ∧ x = a ∨ k ≠ g ∧ l[k]? = some x := by
  by_cases hk : k = g
  · subst hk
    rw [List.getElem?_set_self (List.getElem?_eq_some_iff.mp hg).1]; simp [eq_comm]
  · rw [List.getElem?_set_ne (Ne.symm hk)]; simp [hk]

theorem getElem?_append_singleton_iff :
    (l ++ [a])[k]? = some x ↔ k < l.length ∧ l[k]? = some x ∨ k = l.length ∧ x = a := by
  rcases Nat.lt_trichotomy k l.length with hk | rfl | hk
  · rw [List.getElem?_append_left hk]; simp [hk, Nat.ne_of_lt hk]
  · rw [List.getElem?_concat_length]; simp [eq_comm]
  · rw [List.getElem?_eq_none (by simp; omega)]
    simp only [reduceCtorEq, false_iff]; omega

theorem getElem?_append_old {l l' : List α} {x : α} (h : l[k]? = some x) : (l ++ l')[k]? = some x := by
  rw [List.getElem?_append_left (List.getElem?_eq_some_iff.mp h).1, h]

theorem countP_set_add (p : α → Bool) {a b : α} (hk : l[k]? = some a) :
    (l.set k b).countP p + (p a).toNat = l.countP p + (p b).toNat := by
  induction l generalizing k with
  | nil => cases hk
  | cons x l ih =>
    cases k with
    | zero =>
      cases hk
      cases ha : p a <;> cases hb : p b <;> simp [ha, hb]
    | succ k =>
      have := ih hk
      simp only [List.set_cons_succ, List.countP_cons]; omega

theorem mem_of_mem_taken {l before after : List α} (hl : l = before ++ x :: after)
    (hy : y ∈ before ++ after) : y ∈ l := by
  rw [hl]
  rcases List.mem_append.mp hy with hy | hy
  · exact List.mem_append_left _ hy
  · exact List.mem_append_right _ (List.mem_cons_of_mem _ hy)

theorem filterMap_cons_toList (f : α → Option β) (a : α) (l : List α) :
    (a :: l).filterMap f = (f a).toList ++ l.filterMap f := by
  cases h : f a <;> simp [h]

theorem filterMap_set_perm (f : α → Option β) {a b : α} (hk : l[k]? = some a) :
    ((f a).toList ++ (l.set k b).filterMap f).Perm ((f b).toList ++ l.filterMap f) := by
  induction l generalizing k with
  | nil => cases hk
  | cons x l ih =>
    cases k with
    | zero =>
      cases hk
      rw [List.set_cons_zero, filterMap_cons_toList, filterMap_cons_toList]
      exact List.perm_append_comm_assoc _ _ _
    | succ k =>
      rw [List.set_cons_succ, filterMap_cons_toList, filterMap_cons_toList]
      calc
        List.Perm _ ((f x).toList ++ ((f a).toList ++ (l.set k b).filterMap f)) := List.perm_append_comm_assoc _ _ _
        List.Perm _ ((f x).toList ++ ((f b).toList ++ l.filterMap f)) := (ih hk).append_left _
        List.Perm _ ((f b).toList ++ ((f x).toList ++ l.filterMap f)) := List.perm_append_comm_assoc _ _ _

end Frp
