import Mathlib.Data.List.Nodup
import Mathlib.Logic.Function.Basic

/-!
# A table of owners

`owner` gives the owner of a key and `own` the keys of an owner. The two agree
when keys are taken only while free and given back only by their owner.
-/

namespace Frp

open Function

variable {K O : Type*}

structure OwnedBy (owner : K → Option O) (own : O → List K) : Prop where
  mem : ∀ k o, owner k = some o ↔ k ∈ own o
  nodup : ∀ o, (own o).Nodup

namespace OwnedBy

variable {owner : K → Option O} {own : O → List K} {k : K} {o : O} {l : List K}

variable [DecidableEq O]

variable (h : OwnedBy owner own)
include h

theorem perm (hl : l.Perm (own o)) : OwnedBy owner (update own o l) := by
  refine ⟨fun k p => ?_, fun p => ?_⟩ <;> by_cases hp : p = o
  · subst hp; rw [update_self, hl.mem_iff]; exact h.mem k p
  · rw [update_of_ne hp]; exact h.mem k p
  · subst hp; rw [update_self]; exact hl.nodup_iff.mpr (h.nodup p)
  · rw [update_of_ne hp]; exact h.nodup p

variable [DecidableEq K]

theorem take (hk : owner k = none) (hl : l.Perm (k :: own o)) :
    OwnedBy (update owner k (some o)) (update own o l) := by
  have hfree : ∀ p, k ∉ own p := fun p hp => by rw [(h.mem k p).mpr hp] at hk; cases hk
  refine ⟨fun j p => ?_, fun p => ?_⟩ <;> by_cases hp : p = o
  · subst hp
    rw [update_self, hl.mem_iff, List.mem_cons, ← h.mem]
    by_cases hj : j = k
    · subst hj; simp
    · simp [hj]
  · rw [update_of_ne hp, ← h.mem]
    by_cases hj : j = k
    · subst hj; simp [hk, Ne.symm hp]
    · simp [hj]
  · subst hp
    rw [update_self]; exact hl.nodup_iff.mpr (List.nodup_cons.mpr ⟨hfree p, h.nodup p⟩)
  · rw [update_of_ne hp]; exact h.nodup p

theorem release (hl : (own o).Perm (k :: l)) : OwnedBy (update owner k none) (update own o l) := by
  have hk : owner k = some o := (h.mem k o).mpr (hl.mem_iff.mpr List.mem_cons_self)
  have hnd := List.nodup_cons.mp (hl.nodup_iff.mp (h.nodup o))
  refine ⟨fun j p => ?_, fun p => ?_⟩ <;> by_cases hp : p = o
  · subst hp
    rw [update_self]
    by_cases hj : j = k
    · subst hj; simp [hnd.1]
    · rw [update_of_ne hj, h.mem, hl.mem_iff, List.mem_cons]; simp [hj]
  · rw [update_of_ne hp, ← h.mem]
    by_cases hj : j = k
    · subst hj; simp [hk, Ne.symm hp]
    · simp [hj]
  · subst hp; rw [update_self]; exact hnd.2
  · rw [update_of_ne hp]; exact h.nodup p

theorem transfer {p : O} {l' : List K} (hne : p ≠ o) (hl : (own o).Perm (k :: l)) (hl' : l'.Perm (k :: own p)) :
    OwnedBy (update owner k (some p)) (update (update own o l) p l') := by
  have hfree : update owner k none k = none := update_self _ _ _
  have ht := (h.release hl).take hfree (show l'.Perm _ by rw [update_of_ne hne]; exact hl')
  rwa [update_idem] at ht

end OwnedBy

end Frp
