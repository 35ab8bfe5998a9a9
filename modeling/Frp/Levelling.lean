import Mathlib.Algebra.Order.BigOperators.Group.List
import Mathlib.Algebra.Order.Group.Nat
import Mathlib.Algebra.Ring.Nat
import Mathlib.Data.List.MinMax
import Mathlib.Logic.Function.Iterate

/-!
# Lowering the first of the greatest

In each round the first entry with the greatest key is changed to one whose key is less by
one. An entry is taken after as many rounds as stand over its key.
-/

namespace Frp

section
variable {α : Type*} (key : α → Int)

def excess (c : Int) (l : List α) : Nat := (l.map fun a => (key a + 1 - c).toNat).sum

variable {l : List α} {a : α}

theorem excess_pos (ha : a ∈ l) : 1 ≤ excess key (key a) l := by
  have hmem : (key a + 1 - key a).toNat ∈ l.map fun b => (key b + 1 - key a).toNat := List.mem_map_of_mem ha
  have := List.single_le_sum (fun _ _ => Nat.zero_le _) _ hmem
  unfold excess
  omega

theorem excess_mono {c d : Int} (h : d ≤ c) : excess key c l ≤ excess key d l :=
  List.sum_le_sum fun a _ => by omega

theorem sum_map_modify {g : α → Nat} {f : α → α} {i : Nat} (h : l[i]? = some a) :
    ((l.modify i f).map g).sum + g a = (l.map g).sum + g (f a) := by
  induction l generalizing i with
  | nil => cases h
  | cons x l ih =>
    cases i with
    | zero =>
      cases h
      simp only [List.modify_zero_cons, List.map_cons, List.sum_cons]; omega
    | succ i =>
      have := ih h
      simp only [List.modify_succ_cons, List.map_cons, List.sum_cons]; omega

end

def greatest {α β : Type*} [LinearOrder β] (key : α → β) (l : List α) : Option α := l.argmax key

section
variable {α : Type*} [DecidableEq α] (key : α → Int) (f : α → α)

def firstMax (l : List α) : Option Nat := (greatest key l).map fun m => l.idxOf m

def lower (l : List α) : List α :=
  match firstMax key l with
  | none => l
  | some i => l.modify i f

variable {key f} {l : List α} {a m : α} {i : Nat} {c : Int}

theorem firstMax_eq_some (h : firstMax key l = some i) :
    ∃ m, greatest key l = some m ∧ l[i]? = some m ∧ ∀ a ∈ l, key a ≤ key m := by
  obtain ⟨m, hm, rfl⟩ := Option.map_eq_some_iff.mp h
  exact ⟨m, hm, List.getElem?_idxOf (List.argmax_mem hm), fun a ha => List.le_of_mem_argmax ha hm⟩

variable (key) in
theorem exists_firstMax (h : l ≠ []) : ∃ i, firstMax key l = some i := by
  cases hm : greatest key l with
  | none => exact absurd (List.argmax_eq_none.mp hm) h
  | some m => exact ⟨l.idxOf m, by rw [firstMax, hm]; rfl⟩

theorem lower_eq (h : firstMax key l = some i) : lower key f l = l.modify i f := by
  rw [lower, h]

theorem getElem?_lower_of_ne (h : firstMax key l ≠ some i) : (lower key f l)[i]? = l[i]? := by
  unfold lower
  split
  · rfl
  · rename_i j hj
    have hne : j ≠ i := fun heq => h (heq ▸ hj)
    exact List.getElem?_modify_ne f l hne

theorem mem_lower (h : a ∈ lower key f l) : a ∈ l ∨ ∃ m ∈ l, (∀ b ∈ l, key b ≤ key m) ∧ a = f m := by
  cases hi : firstMax key l with
  | none => rw [lower, hi] at h; exact .inl h
  | some i =>
    obtain ⟨m, -, hm, hmax⟩ := firstMax_eq_some hi
    rw [lower_eq hi] at h
    obtain ⟨j, hj⟩ := List.mem_iff_getElem?.mp h
    by_cases hij : i = j
    · subst hij
      rw [List.getElem?_modify_eq, hm] at hj
      exact .inr ⟨m, List.mem_of_getElem? hm, hmax, (Option.some.inj hj).symm⟩
    · rw [List.getElem?_modify_ne f l hij] at hj; exact .inl (List.mem_of_getElem? hj)

variable (hf : ∀ a, key (f a) = key a - 1)
include hf

theorem excess_lower (ha : a ∈ l) (hc : c ≤ key a) : excess key c (lower key f l) + 1 = excess key c l := by
  obtain ⟨i, hi⟩ := exists_firstMax key (List.ne_nil_of_mem ha)
  obtain ⟨m, -, hm, hmax⟩ := firstMax_eq_some hi
  have hsum := sum_map_modify (f := f) (g := fun a => (key a + 1 - c).toNat) hm
  have hle := hmax a ha
  simp only [hf] at hsum
  rw [lower_eq hi]
  unfold excess
  omega

theorem lower_iterate (ha : l[i]? = some a) (n : Nat) (hno : ∀ j < n, firstMax key ((lower key f)^[j] l) ≠ some i) :
    ((lower key f)^[n] l)[i]? = some a ∧ excess key (key a) ((lower key f)^[n] l) + n = excess key (key a) l := by
  induction n with
  | zero => exact ⟨ha, rfl⟩
  | succ n ih =>
    obtain ⟨hget, hsum⟩ := ih fun j hj => hno j (by omega)
    rw [Function.iterate_succ_apply']
    have hround := excess_lower hf (List.mem_of_getElem? hget) (Int.le_refl (key a))
    exact ⟨(getElem?_lower_of_ne (hno n (Nat.lt_succ_self n))).trans hget, by omega⟩

theorem exists_round (ha : l[i]? = some a) {n : Nat}
    (hn : excess key (key a) l ≤ n) : ∃ j < n, firstMax key ((lower key f)^[j] l) = some i := by
  by_contra hno
  obtain ⟨hget, hsum⟩ := lower_iterate hf ha n fun j hj h => hno ⟨j, hj, h⟩
  have hpos := excess_pos key (List.mem_of_getElem? hget)
  omega

end

end Frp
