import Frp.Slots
import Mathlib.Data.List.Nodup

/-!
# Rosters

Items are started under a key at a stage `τ`. When a key is only given away while it is
free, every running item is in the roster (`Roster.Covered`), so that stopping all leaves
none but those started later (`Roster.Since`).
-/

namespace Frp

open Function

structure Roster (κ γ τ : Type*) where
  slot : κ → Option (Nat × γ) := fun _ => none
  startedAt : Nat → Option τ := fun _ => none
  stopped : Nat → Bool := fun _ => false
  next : Nat := 0

namespace Roster

variable {κ γ τ : Type*} {r : Roster κ γ τ} {P : τ → Prop}

def start [DecidableEq κ] (r : Roster κ γ τ) (k : κ) (c : γ) (t : τ) : Roster κ γ τ :=
  { r with
    slot := update r.slot k (some (r.next, c))
    startedAt := update r.startedAt r.next (some t)
    next := r.next + 1 }

def stop (r : Roster κ γ τ) (k : κ) : Roster κ γ τ :=
  match r.slot k with
  | none => r
  | some (i, _) => { r with stopped := update r.stopped i true }

def drop [DecidableEq κ] (r : Roster κ γ τ) (k : κ) : Roster κ γ τ := { r.stop k with slot := update r.slot k none }

def stopAll (r : Roster κ γ τ) (keys : List κ) : Roster κ γ τ := keys.foldl stop r

def clear (r : Roster κ γ τ) : Roster κ γ τ := { r with slot := fun _ => none }

def Running (r : Roster κ γ τ) (i : Nat) : Prop := r.startedAt i ≠ none ∧ r.stopped i = false

def Keys (r : Roster κ γ τ) (keys : List κ) : Prop := keys.Nodup ∧ ∀ k, r.slot k ≠ none ↔ k ∈ keys

structure Covered (r : Roster κ γ τ) : Prop where
  fresh : ∀ i, r.next ≤ i → r.startedAt i = none
  slot : ∀ i, r.Running i → ∃ k c, r.slot k = some (i, c)

def Since (r : Roster κ γ τ) (P : τ → Prop) : Prop := ∀ i t, r.startedAt i = some t → r.stopped i = false → P t

/-- From `r` to `r'` nothing is started, or one item, at the stage `t`. -/
def Starts (r r' : Roster κ γ τ) (t : τ) : Prop :=
  r'.startedAt = r.startedAt ∧ r'.next = r.next ∨
    r'.startedAt = update r.startedAt r.next (some t) ∧ r'.next = r.next + 1

/-! ## Stopping -/

theorem stop_slot (r : Roster κ γ τ) (k : κ) : (r.stop k).slot = r.slot := by
  unfold stop
  split <;> rfl

theorem stop_startedAt (r : Roster κ γ τ) (k : κ) : (r.stop k).startedAt = r.startedAt := by
  unfold stop
  split <;> rfl

theorem stop_next (r : Roster κ γ τ) (k : κ) : (r.stop k).next = r.next := by
  unfold stop
  split <;> rfl

variable {i : Nat}

theorem running_stop {k : κ} : (r.stop k).Running i ↔ r.Running i ∧ ∀ c, r.slot k ≠ some (i, c) := by
  unfold Running
  rw [stop_startedAt, and_assoc]
  apply and_congr_right
  intro _
  unfold stop
  cases hk : r.slot k with
  | none => simp
  | some x =>
    obtain ⟨j, c⟩ := x
    by_cases hij : i = j
    · subst hij; simp
    · simp [update_of_ne hij, Ne.symm hij]

theorem stopAll_slot (keys : List κ) : (r.stopAll keys).slot = r.slot := by
  unfold stopAll
  induction keys generalizing r with
  | nil => rfl
  | cons k keys ih => rw [List.foldl_cons, ih, stop_slot]

theorem stopAll_next (keys : List κ) : (r.stopAll keys).next = r.next := by
  unfold stopAll
  induction keys generalizing r with
  | nil => rfl
  | cons k keys ih => rw [List.foldl_cons, ih, stop_next]

theorem stopAll_startedAt (keys : List κ) : (r.stopAll keys).startedAt = r.startedAt := by
  unfold stopAll
  induction keys generalizing r with
  | nil => rfl
  | cons k keys ih => rw [List.foldl_cons, ih, stop_startedAt]

variable {keys : List κ}

theorem running_stopAll : (r.stopAll keys).Running i ↔ r.Running i ∧ ∀ k ∈ keys, ∀ c, r.slot k ≠ some (i, c) := by
  unfold stopAll
  induction keys generalizing r with
  | nil => simp
  | cons k keys ih => rw [List.foldl_cons, ih, running_stop, stop_slot, List.forall_mem_cons, and_assoc]

theorem Covered.not_running_stopAll (h : r.Covered) (hkeys : r.Keys keys) (i : Nat) :
    ¬ (r.stopAll keys).Running i := by
  rw [running_stopAll]
  intro hi
  obtain ⟨k, c, hk⟩ := h.slot i hi.1
  exact hi.2 k ((hkeys.2 k).mp (by simp [hk])) c hk

/-! ## The operations keep running items in the roster -/

theorem Covered.empty : (⟨fun _ => none, fun _ => none, fun _ => false, 0⟩ : Roster κ γ τ).Covered :=
  ⟨fun _ _ => rfl, fun _ hi => absurd rfl hi.1⟩

theorem Covered.start [DecidableEq κ] (h : r.Covered) {k : κ} (c : γ) (t : τ) (hk : r.slot k = none) :
    (r.start k c t).Covered := by
  refine ⟨fun i hi => ?_, fun i hi => ?_⟩
  · have hne : i ≠ r.next := Nat.ne_of_gt hi
    exact (update_of_ne hne _ _).trans (h.fresh i (Nat.le_of_succ_le hi))
  · rcases update_cases (· ≠ none) hi.1 with ⟨rfl, -⟩ | ⟨-, hstarted⟩
    · exact ⟨k, c, update_self ..⟩
    · obtain ⟨l, d, hl⟩ := h.slot i ⟨hstarted, hi.2⟩
      have hlk : l ≠ k := fun heq => by simp [heq, hk] at hl
      exact ⟨l, d, (update_of_ne hlk _ _).trans hl⟩

theorem Covered.drop [DecidableEq κ] (h : r.Covered) (k : κ) : (r.drop k).Covered := by
  refine ⟨fun i hi => ?_, fun i hi => ?_⟩
  · have hi : (r.stop k).next ≤ i := hi
    show (r.stop k).startedAt i = none
    rw [stop_next] at hi
    rw [stop_startedAt]; exact h.fresh i hi
  · have hi : (r.stop k).Running i := hi
    rw [running_stop] at hi
    obtain ⟨l, c, hl⟩ := h.slot i hi.1
    have hlk : l ≠ k := fun heq => hi.2 c (heq ▸ hl)
    exact ⟨l, c, (update_of_ne hlk _ _).trans hl⟩

theorem Covered.stopAll (h : r.Covered) (hkeys : r.Keys keys) : (r.stopAll keys).Covered := by
  refine ⟨fun i hi => ?_, fun i hi => absurd hi (h.not_running_stopAll hkeys i)⟩
  rw [stopAll_next] at hi
  rw [stopAll_startedAt]; exact h.fresh i hi

theorem Covered.clear_stopAll (h : r.Covered) (hkeys : r.Keys keys) : (r.stopAll keys).clear.Covered :=
  ⟨(h.stopAll hkeys).fresh, fun i hi => absurd hi (h.not_running_stopAll hkeys i)⟩

theorem Starts.refl (r : Roster κ γ τ) (t : τ) : r.Starts r t := .inl ⟨rfl, rfl⟩

theorem Starts.start [DecidableEq κ] (r : Roster κ γ τ) (k : κ) (c : γ) (t : τ) : r.Starts (r.start k c t) t :=
  .inr ⟨rfl, rfl⟩

theorem Starts.drop [DecidableEq κ] (r : Roster κ γ τ) (k : κ) (t : τ) : r.Starts (r.drop k) t :=
  .inl ⟨r.stop_startedAt k, r.stop_next k⟩

theorem Starts.stopAll (r : Roster κ γ τ) (keys : List κ) (t : τ) : r.Starts (r.stopAll keys) t :=
  .inl ⟨stopAll_startedAt keys, stopAll_next keys⟩

variable {r' : Roster κ γ τ}

theorem Starts.of_startedAt {t u : τ} (h : r.Starts r' t)
    (hi : r'.startedAt i = some u) : r.startedAt i = some u ∨ u = t ∧ r'.next ≠ r.next := by
  rcases h with ⟨hs, -⟩ | ⟨hs, hn⟩
  · exact .inl (hs ▸ hi)
  · rw [hs] at hi
    rcases update_cases (· = some u) hi with ⟨-, hi⟩ | ⟨-, hi⟩
    · exact .inr ⟨(Option.some.inj hi).symm, by omega⟩
    · exact .inl hi

theorem Starts.of_next {t : τ} (h : r.Starts r' t) (hn : r'.next ≠ r.next) : r'.startedAt r.next = some t := by
  rcases h with ⟨-, hn'⟩ | ⟨hs, -⟩
  · exact absurd hn' hn
  · rw [hs]; exact update_self ..

/-! ## What runs was started late -/

theorem Since.of_not_running (h : ∀ i, ¬ r.Running i) : r.Since P :=
  fun i _ hi hstopped => absurd ⟨by simp [hi], hstopped⟩ (h i)

theorem Since.start [DecidableEq κ] (h : r.Since P) {k : κ} {c : γ} {t : τ} (ht : P t) : (r.start k c t).Since P := by
  intro i u hi hstopped
  rcases update_cases (· = some u) hi with ⟨-, hi⟩ | ⟨-, hi⟩
  · cases hi; exact ht
  · exact h i u hi hstopped

theorem Since.drop [DecidableEq κ] (h : r.Since P) (k : κ) : (r.drop k).Since P := by
  intro i t hi hstopped
  have hi : (r.stop k).startedAt i = some t := hi
  have hrun : (r.stop k).Running i := ⟨by simp [hi], hstopped⟩
  rw [stop_startedAt] at hi; exact h i t hi (running_stop.mp hrun).1.2

end Roster

end Frp
