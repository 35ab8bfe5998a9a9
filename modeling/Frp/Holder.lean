import Frp.History

/-!
# A field that holds a resource

Resources are put into a field, and the field is emptied by closing what it holds. What is
overwritten stays open for ever.
-/

namespace Frp

inductive HoldOp (α : Type*)
  | put (a : α)
  | close

variable {α : Type*}

def heldAfter : List (HoldOp α) → Option α
  | [] => none
  | .put a :: _ => some a
  | .close :: _ => none

def puts : List (HoldOp α) → List α
  | [] => []
  | .put a :: log => a :: puts log
  | .close :: log => puts log

def ClosedIn : List (HoldOp α) → α → Prop
  | [], _ => False
  | .put _ :: log, a => ClosedIn log a
  | .close :: log, a => heldAfter log = some a ∨ ClosedIn log a

def HoldOp.IsPut (x : HoldOp α) : Prop := ∃ a, x = .put a

def Spaced (log : List (HoldOp α)) : Prop := BetweenEach HoldOp.IsPut (· = .close) log

def NoneLost (log : List (HoldOp α)) : Prop := ∀ a ∈ puts log, ¬ ClosedIn log a → heldAfter log = some a

variable {log : List (HoldOp α)} {a b : α}

theorem mem_puts_of_held (h : heldAfter log = some a) : a ∈ puts log := by
  cases log with
  | nil => cases h
  | cons x =>
    cases x with
    | put => cases h; exact List.mem_cons_self
    | close => cases h

theorem mem_puts_of_closedIn (h : ClosedIn log a) : a ∈ puts log := by
  induction log with
  | nil => cases h
  | cons x log ih =>
    cases x with
    | put => exact List.mem_cons_of_mem _ (ih h)
    | close =>
      show a ∈ puts log
      rcases h with h | h
      · exact mem_puts_of_held h
      · exact ih h

theorem not_closedIn_of_held (hn : (puts log).Nodup) (h : heldAfter log = some a) : ¬ ClosedIn log a := by
  cases log with
  | nil => cases h
  | cons x =>
    cases x with
    | put => cases h; exact fun hc => (List.nodup_cons.mp hn).1 (mem_puts_of_closedIn hc)
    | close => cases h

/-! ## Spaced histories -/

theorem not_isPut_close : ¬ (HoldOp.close : HoldOp α).IsPut := by
  intro h
  obtain ⟨a, h⟩ := h
  cases h

theorem heldAfter_eq_none : heldAfter log = none ↔ AfterEach HoldOp.IsPut (· = .close) log := by
  cases log with
  | nil => exact iff_of_true rfl afterEach_nil
  | cons x =>
    cases x with
    | put a => exact iff_of_false nofun (not_afterEach ⟨a, rfl⟩)
    | close => exact iff_of_true rfl ((afterEach_cons not_isPut_close).mpr (.inl rfl))

theorem spaced_close : Spaced (.close :: log) ↔ Spaced log := betweenEach_cons_of_not not_isPut_close

theorem spaced_put : Spaced (.put b :: log) ↔ Spaced log ∧ heldAfter log = none := by
  rw [heldAfter_eq_none]; exact betweenEach_cons ⟨b, rfl⟩

/-! ## What stays open -/

theorem noneLost_close : NoneLost (.close :: log) ↔ NoneLost log := by
  constructor
  · intro h a ha hc
    by_contra hheld
    have := h a ha fun hclosed => hclosed.elim hheld hc
    cases this
  · intro h a ha hc; exact absurd (Or.inl (h a ha fun hclosed => hc (.inr hclosed))) hc

theorem noneLost_put (hn : (puts (.put b :: log)).Nodup) :
    NoneLost (.put b :: log) ↔ ∀ a ∈ puts log, ClosedIn log a := by
  obtain ⟨hb, -⟩ := List.nodup_cons.mp hn
  constructor
  · intro h a ha
    by_contra hc
    have heq : some b = some a := h a (List.mem_cons_of_mem _ ha) hc
    cases heq; exact hb ha
  · intro h a ha hc
    rcases List.mem_cons.mp ha with rfl | ha
    · rfl
    · exact absurd (h a ha) hc

theorem allClosed_iff (hn : (puts log).Nodup) :
    (∀ a ∈ puts log, ClosedIn log a) ↔ NoneLost log ∧ heldAfter log = none := by
  constructor
  · intro h
    refine ⟨fun a ha hc => absurd (h a ha) hc, ?_⟩
    cases hheld : heldAfter log with
    | none => rfl
    | some a => exact absurd (h a (mem_puts_of_held hheld)) (not_closedIn_of_held hn hheld)
  · intro h a ha
    by_contra hc
    have := h.1 a ha hc
    rw [h.2] at this; cases this

theorem noneLost_iff_spaced (hn : (puts log).Nodup) : NoneLost log ↔ Spaced log := by
  induction log with
  | nil => exact iff_of_true (fun a ha => absurd ha List.not_mem_nil) betweenEach_nil
  | cons x log ih =>
    cases x with
    | put =>
      have htail : (puts log).Nodup := (List.nodup_cons.mp hn).2
      rw [noneLost_put hn, allClosed_iff htail, ih htail, spaced_put]
    | close => rw [noneLost_close, spaced_close, ih hn]

end Frp
