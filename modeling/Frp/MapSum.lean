import Mathlib.Algebra.BigOperators.Group.Finset.Basic

/-!
# Sums over a partial map

The sum of a quantity over the values of a map with finitely many keys, kept up while
keys are added and removed.
-/

namespace Frp

open Function

open Finset

section
variable {K V M : Type*} [AddCommGroup M] (f : V → M)

def MapSum (m : K → Option V) (total : M) : Prop :=
  ∃ keys : Finset K, (∀ k, k ∈ keys ↔ (m k).isSome = true) ∧ total = ∑ k ∈ keys, ((m k).map f).getD 0

variable {f} {m : K → Option V} {total : M}

theorem MapSum.unique {total' : M} (h : MapSum f m total) (h' : MapSum f m total') : total = total' := by
  obtain ⟨keys, hk, rfl⟩ := h
  obtain ⟨keys', hk', rfl⟩ := h'
  have heq : keys = keys' := by
    ext k
    rw [hk, hk']
  rw [heq]

theorem MapSum.empty : MapSum f (fun _ : K => none) 0 := ⟨∅, by simp, by simp⟩

variable [DecidableEq K] {k : K} {v : V}

theorem sum_update_of_not_mem {keys : Finset K} (o : Option V) (hk : k ∉ keys) :
    ∑ x ∈ keys, ((update m k o x).map f).getD 0 = ∑ x ∈ keys, ((m x).map f).getD 0 := by
  refine sum_congr rfl fun x hx => ?_
  have hne : x ≠ k := by intro h; exact hk (h ▸ hx)
  rw [update_of_ne hne]

theorem MapSum.insert (h : MapSum f m total) (hk : m k = none) : MapSum f (update m k (some v)) (total + f v) := by
  obtain ⟨keys, hmem, rfl⟩ := h
  have hnot : k ∉ keys := by simp [hmem, hk]
  refine ⟨Insert.insert k keys, fun x => ?_, ?_⟩
  · by_cases hx : x = k
    · simp [hx]
    · simp [hx, hmem]
  · rw [sum_insert hnot, sum_update_of_not_mem _ hnot, update_self, add_comm]; rfl

theorem MapSum.remove (h : MapSum f m total) (hk : m k = some v) : MapSum f (update m k none) (total - f v) := by
  obtain ⟨keys, hmem, rfl⟩ := h
  have hin : k ∈ keys := by simp [hmem, hk]
  refine ⟨keys.erase k, fun x => ?_, ?_⟩
  · by_cases hx : x = k
    · simp [hx]
    · simp [hx, hmem]
  · rw [sum_update_of_not_mem _ (notMem_erase k keys), ← add_sum_erase keys _ hin, hk]; simp

end

end Frp
