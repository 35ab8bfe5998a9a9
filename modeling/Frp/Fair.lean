import Mathlib.Data.Nat.Init
import Mathlib.Tactic.ByContra
import Frp.Lts

/-!
# Fair runs

An infinite run is fair to a set of events if these do not stay possible for ever without
one of them happening. A rank that they lower and that nothing raises gives progress.
-/

namespace Frp

variable {σ ε : Type*} {step : σ → ε → σ → Prop}

structure Run (step : σ → ε → σ → Prop) where
  state : Nat → σ
  event : Nat → Option ε
  next : ∀ n, (event n = none ∧ state (n + 1) = state n) ∨ ∃ e, event n = some e ∧ step (state n) e (state (n + 1))

def Run.Fair (ρ : Run step) (mine : ε → Prop) : Prop :=
  ∀ n, (∀ m, n ≤ m → ∃ e t, mine e ∧ step (ρ.state m) e t) → ∃ m e, n ≤ m ∧ ρ.event m = some e ∧ mine e

theorem Run.always (ρ : Run step) {P : σ → Prop} (hs : ∀ s e t, P s → step s e t → P t) {n : Nat}
    (hn : P (ρ.state n)) : ∀ m, n ≤ m → P (ρ.state m) := by
  intro m hm
  induction m, hm using Nat.le_induction with
  | base => exact hn
  | succ m _ ih =>
    rcases ρ.next m with ⟨-, heq⟩ | ⟨e, -, hst⟩
    · rw [heq]; exact ih
    · exact hs _ e _ ih hst

variable {init : σ → Prop}

theorem Run.reach (ρ : Run step) (h0 : init (ρ.state 0)) (n : Nat) : Reach init step (ρ.state n) :=
  ρ.always (fun _ _ _ h hst => h.next hst) (.start h0) n (Nat.zero_le n)

variable {mine : ε → Prop}

theorem Run.Fair.reaches {ρ : Run step} (hf : ρ.Fair mine) {P G : σ → Prop} (rank : σ → Nat)
    (hs : ∀ s e t, P s → ¬ G s → step s e t → G t ∨ P t ∧ rank t ≤ rank s ∧ (mine e → rank t < rank s))
    (he : ∀ s, P s → ¬ G s → ∃ e t, mine e ∧ step s e t) : ∀ n, P (ρ.state n) → ∃ m, n ≤ m ∧ G (ρ.state m) := by
  suffices h : ∀ r n, rank (ρ.state n) ≤ r → P (ρ.state n) → ∃ m, n ≤ m ∧ G (ρ.state m) from
    fun n => h _ n (Nat.le_refl _)
  intro r
  induction r using Nat.strongRecOn with
  | ind r ih =>
    intro n hr hP
    by_contra hno
    have hgoal : ∀ m, n ≤ m → ¬ G (ρ.state m) := fun m hm hg => hno ⟨m, hm, hg⟩
    have hstay : ∀ m, n ≤ m → P (ρ.state m) ∧ rank (ρ.state m) ≤ r := by
      intro m hm
      induction m, hm using Nat.le_induction with
      | base => exact ⟨hP, hr⟩
      | succ m hm ihm =>
        rcases ρ.next m with ⟨-, heq⟩ | ⟨e, -, hst⟩
        · rw [heq]; exact ihm
        · rcases hs _ e _ ihm.1 (hgoal m hm) hst with hg | ⟨hP', hle, -⟩
          · exact absurd hg (hgoal (m + 1) (by omega))
          · exact ⟨hP', by omega⟩
    obtain ⟨m, e, hm, hev, hmine⟩ := hf n fun m hm => he _ (hstay m hm).1 (hgoal m hm)
    rcases ρ.next m with ⟨hnone, -⟩ | ⟨e', hev', hst⟩
    · rw [hev] at hnone; cases hnone
    · rw [hev] at hev'; cases hev'
      have hm' : n ≤ m + 1 := by omega
      rcases hs _ e _ (hstay m hm).1 (hgoal m hm) hst with hg | ⟨hP', -, hlt⟩
      · exact hgoal (m + 1) hm' hg
      · have hdrop := hlt hmine
        have hle := (hstay m hm).2
        obtain ⟨k, hk, hg⟩ := ih (rank (ρ.state (m + 1))) (by omega) (m + 1) (Nat.le_refl _) hP'
        exact hgoal k (by omega) hg

theorem Run.cut (ρ : Run step) (N : Nat) {o : Option ε} {t : σ}
    (h : (o = none ∧ t = ρ.state N) ∨ ∃ e, o = some e ∧ step (ρ.state N) e t) :
    ∃ ρ' : Run step, (∀ m, m ≤ N → ρ'.state m = ρ.state m) ∧ ∀ m, N < m → ρ'.state m = t := by
  refine ⟨⟨fun m => if m ≤ N then ρ.state m else t,
    fun m => if m < N then ρ.event m else if m = N then o else none, fun m => ?_⟩,
    fun m hm => if_pos hm, fun m hm => if_neg (by omega)⟩
  rcases Nat.lt_trichotomy m N with hlt | rfl | hgt
  · simpa only [if_pos hlt, if_pos (Nat.le_of_lt hlt), if_pos (Nat.succ_le_of_lt hlt)] using ρ.next m
  · simpa only [Nat.lt_irrefl, if_false, if_true, Nat.le_refl, Nat.not_succ_le_self] using h
  · exact .inl ⟨by rw [if_neg (by omega), if_neg (by omega)], by rw [if_neg (by omega), if_neg (by omega)]⟩

theorem Run.extend (ρ : Run step) (N : Nat) {t : σ} (h : Reach (· = ρ.state N) step t) :
    ∃ (ρ' : Run step) (M : Nat), N ≤ M ∧ (∀ m, m ≤ N → ρ'.state m = ρ.state m) ∧ ∀ m, M ≤ m → ρ'.state m = t := by
  induction h with
  | @start t ht =>
    obtain ⟨ρ', hold, hnew⟩ := ρ.cut N (.inl ⟨rfl, rfl⟩)
    refine ⟨ρ', N, Nat.le_refl N, hold, fun m hm => ?_⟩
    rcases Nat.lt_or_eq_of_le hm with hlt | rfl
    · rw [hnew m hlt, ht]
    · rw [hold N (Nat.le_refl N), ht]
  | @next s e t _ hst ih =>
    obtain ⟨ρ', M, hNM, hold, hM⟩ := ih
    obtain ⟨ρ'', hold', hnew⟩ := ρ'.cut M (.inr ⟨e, rfl, by rw [hM M (Nat.le_refl M)]; exact hst⟩)
    exact ⟨ρ'', M + 1, by omega, fun m hm => (hold' m (by omega)).trans (hold m hm), fun m hm => hnew m hm⟩

theorem Reach.exists_run {s : σ} (h : Reach init step s) :
    ∃ (ρ : Run step) (N : Nat), init (ρ.state 0) ∧ ∀ m, N ≤ m → ρ.state m = s := by
  induction h with
  | @start s hi => exact ⟨⟨fun _ => s, fun _ => none, fun _ => .inl ⟨rfl, rfl⟩⟩, 0, hi, fun _ _ => rfl⟩
  | @next s e t _ hst ih =>
    obtain ⟨ρ, N, h0, hN⟩ := ih
    obtain ⟨ρ', hold, hnew⟩ := ρ.cut N (.inr ⟨e, rfl, by rw [hN N (Nat.le_refl N)]; exact hst⟩)
    exact ⟨ρ', N + 1, by rw [hold 0 (Nat.zero_le N)]; exact h0, fun m hm => hnew m hm⟩

theorem Reach.exists_run_through {s t : σ} (h : Reach init step s) (h' : Reach (· = s) step t) :
    ∃ (ρ : Run step) (n N : Nat), init (ρ.state 0) ∧ n ≤ N ∧ ρ.state n = s ∧ ∀ m, N ≤ m → ρ.state m = t := by
  obtain ⟨ρ, n, h0, hn⟩ := h.exists_run
  have hs := hn n (Nat.le_refl n)
  obtain ⟨ρ', N, hnN, hold, hN⟩ := ρ.extend n (hs ▸ h')
  exact ⟨ρ', n, N, hold 0 (Nat.zero_le n) ▸ h0, hnN, (hold n (Nat.le_refl n)).trans hs, hN⟩

theorem Reach.exists_loop {s : σ} {e : ε} (h : Reach init step s) (hst : step s e s) :
    ∃ (ρ : Run step) (N : Nat), init (ρ.state 0) ∧ ∀ m, N ≤ m → ρ.state m = s ∧ ρ.event m = some e := by
  obtain ⟨ρ, N, h0, hN⟩ := h.exists_run
  refine ⟨⟨ρ.state, fun m => if m < N then ρ.event m else some e, fun m => ?_⟩, N, h0,
    fun m hm => ⟨hN m hm, if_neg (by omega)⟩⟩
  by_cases hm : m < N
  · simpa only [if_pos hm] using ρ.next m
  · refine .inr ⟨e, if_neg hm, ?_⟩
    rw [hN m (by omega), hN (m + 1) (by omega)]; exact hst

theorem Run.fair_of_rest {ρ : Run step} {s : σ} {N : Nat} (hN : ∀ m, N ≤ m → ρ.state m = s)
    (hno : ∀ e t, mine e → ¬ step s e t) : ρ.Fair mine := by
  intro n hn
  obtain ⟨e, t, he, hst⟩ := hn (max n N) (Nat.le_max_left n N)
  rw [hN _ (Nat.le_max_right n N)] at hst; exact absurd hst (hno e t he)

end Frp
