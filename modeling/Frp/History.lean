import Mathlib.Data.List.Basic

/-!
# Orders of events

Conditions on a history, latest first: an event of one kind comes after every event of
another, or between any two of them. Then the order of two events, and what was written
last.
-/

namespace Frp

section
variable {α : Type*} (p q : α → Prop)

def AfterEach (log : List α) : Prop := ∀ late x early, log = late ++ x :: early → p x → ∃ y ∈ late, q y

def BetweenEach (log : List α) : Prop :=
  ∀ late y between x early, log = late ++ y :: (between ++ x :: early) → p y → p x → ∃ z ∈ between, q z

variable {p q} {log : List α} {e : α}

theorem afterEach_nil : AfterEach p q [] := by
  intro late x early heq; simp at heq

theorem not_afterEach (hp : p e) : ¬ AfterEach p q (e :: log) := by
  intro h
  obtain ⟨y, hy, -⟩ := h [] e log rfl hp
  exact List.not_mem_nil hy

theorem afterEach_cons (hp : ¬ p e) : AfterEach p q (e :: log) ↔ q e ∨ AfterEach p q log := by
  constructor
  · intro h
    by_cases hq : q e
    · exact .inl hq
    · refine .inr fun late x early heq hx => ?_
      obtain ⟨y, hy, hqy⟩ := h (e :: late) x early (heq ▸ rfl) hx
      cases hy with
      | head => exact absurd hqy hq
      | tail _ hy => exact ⟨y, hy, hqy⟩
  · intro h late x early heq hx
    cases late with
    | nil => cases heq; exact absurd hx hp
    | cons y late =>
      cases heq
      cases h with
      | inl hq => exact ⟨_, List.mem_cons_self, hq⟩
      | inr h =>
        obtain ⟨z, hz, hqz⟩ := h late x early rfl hx
        exact ⟨z, List.mem_cons_of_mem _ hz, hqz⟩

theorem betweenEach_nil : BetweenEach p q [] := by
  intro late y between x early heq; simp at heq

theorem BetweenEach.tail (h : BetweenEach p q (e :: log)) : BetweenEach p q log :=
  fun late y between x early heq => h (e :: late) y between x early (heq ▸ rfl)

theorem betweenEach_cons_of_not (hp : ¬ p e) : BetweenEach p q (e :: log) ↔ BetweenEach p q log := by
  constructor
  · exact BetweenEach.tail
  · intro h late y between x early heq hy
    cases late with
    | nil => cases heq; exact absurd hy hp
    | cons z late => cases heq; exact h late y between x early rfl hy

theorem betweenEach_cons (hp : p e) : BetweenEach p q (e :: log) ↔ BetweenEach p q log ∧ AfterEach p q log := by
  constructor
  · intro h; exact ⟨h.tail, fun late x early heq => h [] e late x early (heq ▸ rfl) hp⟩
  · intro h late y between x early heq hy hx
    cases late with
    | nil => cases heq; exact h.2 between x early rfl hx
    | cons z late => cases heq; exact h.1 late y between x early rfl hy hx

/-! ## The part of a history that matters -/

variable {β : Type*} {p' q' : β → Prop} {f : α → Option β}

theorem afterEach_filterMap (hp : ∀ x, p x ↔ ∃ y, f x = some y ∧ p' y) (hq : ∀ x, q x ↔ ∃ y, f x = some y ∧ q' y) :
    AfterEach p q log ↔ AfterEach p' q' (log.filterMap f) := by
  induction log with
  | nil => exact iff_of_true afterEach_nil afterEach_nil
  | cons e log ih =>
    cases hf : f e with
    | none =>
      have hpe : ¬ p e := by simp [hp, hf]
      have hqe : ¬ q e := by simp [hq, hf]
      rw [List.filterMap_cons_none hf, afterEach_cons hpe, ih]; exact or_iff_right hqe
    | some y =>
      have hpe : p e ↔ p' y := by simp [hp, hf]
      have hqe : q e ↔ q' y := by simp [hq, hf]
      rw [List.filterMap_cons_some hf]
      by_cases hy : p' y
      · exact iff_of_false (not_afterEach (hpe.mpr hy)) (not_afterEach hy)
      · rw [afterEach_cons (fun h => hy (hpe.mp h)), afterEach_cons hy, hqe, ih]

theorem betweenEach_filterMap (hp : ∀ x, p x ↔ ∃ y, f x = some y ∧ p' y) (hq : ∀ x, q x ↔ ∃ y, f x = some y ∧ q' y) :
    BetweenEach p q log ↔ BetweenEach p' q' (log.filterMap f) := by
  induction log with
  | nil => exact iff_of_true betweenEach_nil betweenEach_nil
  | cons e log ih =>
    cases hf : f e with
    | none =>
      have hpe : ¬ p e := by simp [hp, hf]
      rw [List.filterMap_cons_none hf, betweenEach_cons_of_not hpe, ih]
    | some y =>
      have hpe : p e ↔ p' y := by simp [hp, hf]
      rw [List.filterMap_cons_some hf]
      by_cases hy : p' y
      · rw [betweenEach_cons (hpe.mpr hy), betweenEach_cons hy, ih, afterEach_filterMap hp hq]
      · rw [betweenEach_cons_of_not (fun h => hy (hpe.mp h)), betweenEach_cons_of_not hy, ih]

end

section
variable {α : Type*} {log : List α} {x y e : α}

def Precedes (log : List α) (x y : α) : Prop := ∃ late between early, log = late ++ y :: (between ++ x :: early)

theorem Precedes.cons (h : Precedes log x y) : Precedes (e :: log) x y := by
  obtain ⟨late, between, early, heq⟩ := h
  exact ⟨e :: late, between, early, by rw [heq]; rfl⟩

theorem precedes_newest (hx : x ∈ log) : Precedes (y :: log) x y := by
  obtain ⟨between, early, heq⟩ := List.append_of_mem hx
  exact ⟨[], between, early, by rw [heq]; rfl⟩

theorem Precedes.mem (h : Precedes log x y) : y ∈ log := by
  obtain ⟨late, between, early, heq⟩ := h
  rw [heq]; exact List.mem_append_right late List.mem_cons_self

end

section
variable {α β : Type*} [DecidableEq α] {m e : α}

def lastBefore (m : α) (writes : α → Option β) (log : List α) : Option β :=
  (log.dropWhile (· ≠ m)).findSome? writes

theorem lastBefore_cons (he : e ≠ m) (writes : α → Option β) (log : List α) :
    lastBefore m writes (e :: log) = lastBefore m writes log := by
  unfold lastBefore; rw [List.dropWhile_cons_of_pos (by simpa using he)]

theorem lastBefore_self {writes : α → Option β} (hm : writes m = none) (log : List α) :
    lastBefore m writes (m :: log) = log.findSome? writes := by
  unfold lastBefore; rw [List.dropWhile_cons_of_neg (by simp), List.findSome?_cons, hm]

end

end Frp
