import Mathlib.Data.List.Nodup
import Frp.Lts

/-!
# An exactly-once hand-off queue

A queue whose head is held until a consumer accepts it or rejects it for good. What was
accepted, held and queued is what was enqueued, in order, less the items rejected
(`Fifo.reach_exact`).
-/

namespace Frp

structure Fifo (α : Type*) where
  enqueued : List α := []
  accepted : List α := []
  rejected : List α := []
  held : List α := []
  queue : List α := []

namespace Fifo

variable {α : Type*}

inductive Act (α : Type*) where
  | enqueue (p : α)
  | take (p : α)
  | accept (p : α)
  | reject (p : α)

inductive Step : Fifo α → Act α → Fifo α → Prop
  | enqueue {q p} : p ∉ q.enqueued →
      Step q (.enqueue p) { q with enqueued := q.enqueued ++ [p], queue := q.queue ++ [p] }
  | take {q p rest} : q.held = [] → q.queue = p :: rest → Step q (.take p) { q with held := [p], queue := rest }
  | accept {q p} : q.held = [p] → Step q (.accept p) { q with held := [], accepted := q.accepted ++ [p] }
  | reject {q p} : q.held = [p] → Step q (.reject p) { q with held := [], rejected := p :: q.rejected }

def Empty (q : Fifo α) : Prop := q = {}

variable [DecidableEq α]

def Exact (q : Fifo α) : Prop :=
  q.accepted ++ q.held ++ q.queue = q.enqueued.filter fun p => decide (p ∉ q.rejected)

structure Inv (q : Fifo α) : Prop where
  exact : q.Exact
  single : q.held.length ≤ 1
  nodup : q.enqueued.Nodup
  known : ∀ p ∈ q.rejected, p ∈ q.enqueued

theorem filter_drop {l a b R : List α} {p : α} (hn : l.Nodup)
    (h : a ++ [p] ++ b = l.filter fun x => decide (x ∉ R)) :
    a ++ b = l.filter fun x => decide (x ∉ p :: R) := by
  have hnd : (a ++ [p] ++ b).Nodup := h ▸ hn.filter _
  simp only [List.append_assoc, List.singleton_append] at hnd
  have hpa : p ∉ a := fun hm => (List.nodup_append.mp hnd).2.2 p hm p (by simp) rfl
  have hpb : p ∉ b := (List.nodup_cons.mp (List.nodup_append.mp hnd).2.1).1
  have hf : (l.filter fun x => decide (x ∉ R)).filter (fun x => decide (x ≠ p)) = a ++ b := by
    rw [← h]
    simp only [List.filter_append, List.append_assoc, List.singleton_append]
    rw [List.filter_eq_self.mpr (fun x hx => by simpa using fun e : x = p => hpa (e ▸ hx)),
      List.filter_cons_of_neg (by simp),
      List.filter_eq_self.mpr (fun x hx => by simpa using fun e : x = p => hpb (e ▸ hx))]
  rw [← hf, List.filter_filter]
  apply List.filter_congr
  intro x _; simp [List.mem_cons, not_or]

theorem step_inv {q r : Fifo α} {e : Act α} (hi : q.Inv) (h : Step q e r) : r.Inv := by
  obtain ⟨hx, hs, hn, hk⟩ := hi
  cases h with
  | @enqueue p hp =>
    refine ⟨?_, hs, ?_, fun x hr => by simp [hk x hr]⟩
    · have hr : p ∉ q.rejected := fun h => hp (hk p h)
      unfold Exact at hx ⊢
      simp [← List.append_assoc, hx, List.filter_append, hr]
    · rw [List.nodup_append]
      exact ⟨hn, by simp, fun x hxm y hy e => by simp at hy; subst hy; exact hp (e ▸ hxm)⟩
  | take hh hq =>
    refine ⟨?_, by simp, hn, hk⟩
    unfold Exact at hx ⊢
    simpa [hh, hq] using hx
  | accept hh =>
    refine ⟨?_, by simp, hn, hk⟩
    unfold Exact at hx ⊢
    simpa [hh] using hx
  | @reject p hh =>
    unfold Exact at hx
    rw [hh] at hx
    refine ⟨?_, by simp, hn, ?_⟩
    · unfold Exact
      simpa using filter_drop hn hx
    · intro x hr
      rcases List.mem_cons.mp hr with rfl | hr
      · have : x ∈ q.accepted ++ [x] ++ q.queue := by simp
        rw [hx] at this; exact (List.mem_filter.mp this).1
      · exact hk x hr

theorem reach_exact {q : Fifo α} (h : Reach Empty Step q) : q.Exact ∧ q.held.length ≤ 1 := by
  have hi : q.Inv := by
    refine h.invariant ?_ fun s e t _ hi hst => step_inv hi hst
    rintro s rfl; exact ⟨by simp [Exact], by simp, by simp, by simp⟩
  exact ⟨hi.exact, hi.single⟩

end Fifo

end Frp
