import Mathlib.Data.List.Infix
import Mathlib.Data.List.Nodup

/-!
# First match and longest match

Keys in strictly descending lexicographic order, of which the prefixes of a given
list are wanted. Prefixes of one list are ordered by length alike, so the first
that is found is the longest.
-/

namespace Frp

variable {α β : Type*}

theorem eq_of_prefix_of_length {a b p : List α} (ha : a <+: p) (hb : b <+: p) (h : a.length = b.length) : a = b :=
  (List.prefix_of_prefix_length_le ha hb h.le).eq_of_length h

variable [LT α] [Std.Irrefl fun x y : α => x < y]

theorem length_le_of_lt_prefix {a b p : List α} (ha : a <+: p) (hb : b <+: p) (h : a < b) : a.length ≤ b.length := by
  rcases List.prefix_or_prefix_of_prefix ha hb with hab | hba
  · exact hab.length_le
  · exact absurd h (List.not_lt.mpr hba.le)

variable {key : β → List α} {p : List α} {q : β → Bool} {l : List β}

theorem find?_longest (hm : ∀ b, q b = true ↔ key b <+: p) (hs : l.Pairwise fun a b => key b < key a) {b : β}
    (h : l.find? q = some b) : b ∈ l ∧ key b <+: p ∧ ∀ c ∈ l, key c <+: p → (key c).length ≤ (key b).length := by
  obtain ⟨hb, before, after, rfl, hbefore⟩ := List.find?_eq_some_iff_append.mp h
  refine ⟨by simp, (hm b).mp hb, fun c hc hcp => ?_⟩
  rcases List.mem_append.mp hc with hc | hc
  · have hno := hbefore c hc
    rw [(hm c).mpr hcp] at hno; cases hno
  · rcases List.mem_cons.mp hc with rfl | hc
    · exact Nat.le_refl _
    · have hlt := List.rel_of_pairwise_cons (List.pairwise_append.mp hs).2.1 hc
      exact length_le_of_lt_prefix hcp ((hm b).mp hb) hlt

theorem find?_eq_some_iff_longest (hm : ∀ b, q b = true ↔ key b <+: p)
    (hs : l.Pairwise fun a b => key b < key a) {b : β} :
    l.find? q = some b ↔
      b ∈ l ∧ key b <+: p ∧ ∀ c ∈ l, key c <+: p → (key c).length ≤ (key b).length := by
  refine ⟨find?_longest hm hs, fun ⟨hb, hbp, hmax⟩ => ?_⟩
  cases hf : l.find? q with
  | none => exact absurd ((hm b).mpr hbp) (List.find?_eq_none.mp hf b hb)
  | some c =>
    obtain ⟨hc, hcp, hcmax⟩ := find?_longest hm hs hf
    have hkey : key c = key b := eq_of_prefix_of_length hcp hbp (Nat.le_antisymm (hmax c hc hcp) (hcmax b hb hbp))
    have hnodup : (l.map key).Nodup := by
      refine List.pairwise_map.mpr (hs.imp fun hlt heq => ?_)
      rw [heq] at hlt; exact List.lt_irrefl _ hlt
    rw [List.inj_on_of_nodup_map hnodup hc hb hkey]

end Frp
