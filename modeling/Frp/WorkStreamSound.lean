import Frp.WorkStream

/-!
# What `Close` of a stream reaches

Without a limiter the calls go down to the pooled connection. With one, the
variable holds the limited stream itself: its close function calls its own
`Close`, which has been called already.
-/

namespace Frp

namespace StreamHeap

variable {h h' : StreamHeap}

theorem close_closes_le : ∀ (fuel : Nat) (h : StreamHeap) (ref : Nat) {h' : StreamHeap},
    h.close fuel ref = some h' → h.closes ≤ h'.closes := by
  intro fuel
  induction fuel with
  | zero => intro h ref h' hc; cases hc
  | succ fuel ih =>
    intro h ref h' hc
    unfold close at hc
    split at hc
    · cases hc
    · cases hc; exact Nat.le_succ _
    · exact ih h _ hc
    · exact ih h _ hc
    · exact ih h _ hc
    · exact ih h _ hc
    · cases hc; exact Nat.le_refl _
    · cases hc; exact Nat.le_refl _
    · have hle := ih _ _ hc
      exact hle
    · have hle := ih _ _ hc
      exact hle

theorem closeTop_closes_le (h : StreamHeap) : h.closes ≤ h.closeTop.closes := by
  unfold closeTop
  cases hc : h.close closeFuel h.top with
  | none => exact Nat.le_refl _
  | some => exact close_closes_le closeFuel h h.top hc

def closeTimes (h : StreamHeap) : Nat → StreamHeap
  | 0 => h
  | n + 1 => (h.closeTimes n).closeTop

end StreamHeap

namespace StreamSite

variable (site : StreamSite) {t : TransportConfig}

theorem close_counts (ht : t.limiter = false) (n : Nat) :
    ∃ h, { (site.stream t).closeTop with closes := n + 1 }.close closeFuel (site.stream t).closeTop.top = some h ∧
      ∃ m, h = { (site.stream t).closeTop with closes := m + 1 } := by
  obtain ⟨enc, comp, lim⟩ := t
  cases ht
  cases site with
  | udp | tcp => cases enc <;> cases comp <;> exact ⟨_, rfl, n + 1, rfl⟩
  | http => cases enc <;> cases comp <;> exact ⟨_, rfl, n, rfl⟩

theorem close_reaches (ht : t.limiter = false) : (site.stream t).closeTop.closes = 1 := by
  obtain ⟨enc, comp, lim⟩ := t
  cases ht
  cases site <;> cases enc <;> cases comp <;> rfl

theorem close_limited (ht : t.limiter = true) :
    (site.stream t).closeTop.closes = 0 ∧ (site.stream t).closeTop.closeTop = (site.stream t).closeTop := by
  obtain ⟨enc, comp, lim⟩ := t
  cases ht
  cases site <;> cases enc <;> cases comp <;> exact ⟨rfl, rfl⟩

theorem closeTimes_form (ht : t.limiter = false) (n : Nat) :
    ∃ m, (site.stream t).closeTimes (n + 1) = { (site.stream t).closeTop with closes := m + 1 } := by
  induction n with
  | zero =>
    refine ⟨0, ?_⟩
    rw [StreamHeap.mk.injEq]; exact ⟨rfl, rfl, rfl, site.close_reaches ht⟩
  | succ n ih =>
    obtain ⟨m, hm⟩ := ih
    obtain ⟨h, hc, k, hk⟩ := site.close_counts ht m
    refine ⟨k, ?_⟩
    show ((site.stream t).closeTimes (n + 1)).closeTop = _
    rw [hm, StreamHeap.closeTop, hc]; exact hk

theorem closeTimes_limited (ht : t.limiter = true) (n : Nat) :
    (site.stream t).closeTimes (n + 1) = (site.stream t).closeTop := by
  induction n with
  | zero => rfl
  | succ n ih =>
    show ((site.stream t).closeTimes (n + 1)).closeTop = _
    rw [ih, (site.close_limited ht).2]

theorem close_returns (t : TransportConfig) (n : Nat) :
    ∃ h, ((site.stream t).closeTimes n).close closeFuel ((site.stream t).closeTimes n).top = some h := by
  cases n with
  | zero =>
    obtain ⟨enc, comp, lim⟩ := t
    cases site <;> cases enc <;> cases comp <;> cases lim <;> exact ⟨_, rfl⟩
  | succ n =>
    cases ht : t.limiter with
    | false =>
      obtain ⟨m, hm⟩ := site.closeTimes_form ht n
      obtain ⟨h, hc, -⟩ := site.close_counts ht m
      rw [hm]; exact ⟨h, hc⟩
    | true =>
      rw [site.closeTimes_limited ht]
      obtain ⟨enc, comp, lim⟩ := t
      cases ht
      cases site <;> cases enc <;> cases comp <;> exact ⟨_, rfl⟩

theorem closeTimes_pos_iff (t : TransportConfig) (n : Nat) :
    0 < ((site.stream t).closeTimes (n + 1)).closes ↔ t.limiter = false := by
  cases ht : t.limiter with
  | false =>
    obtain ⟨m, hm⟩ := site.closeTimes_form ht n
    rw [hm]; simp
  | true => rw [site.closeTimes_limited ht, (site.close_limited ht).1]; simp

end StreamSite

end Frp
