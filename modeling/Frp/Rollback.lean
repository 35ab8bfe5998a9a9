import Mathlib.Data.List.Basic

/-!
# Acquire all or give back

A loop acquires one resource after the other and stops at the first that is refused. Where
the oldest resource can be given back, nothing is held after giving back everything.
-/

namespace Frp

variable {S A R E : Type*}

def acquireAll (acquire : A → S → S × Except E R) : List A → List R → S → (S × List R) × Option E
  | [], held, s => ((s, held), none)
  | a :: as, held, s =>
    match acquire a s with
    | (s, .ok r) => acquireAll acquire as (held ++ [r]) s
    | (s, .error e) => ((s, held), some e)

def releaseAll (release : R → S → S) (held : List R) (s : S) : S := held.foldl (fun s r => release r s) s

structure Undoable (acquire : A → S → S × Except E R) (release : R → S → S) (Held : List R → S → Prop) : Prop where
  acquired : ∀ {held s a s' r}, Held held s → acquire a s = (s', .ok r) → Held (held ++ [r]) s'
  refused : ∀ {held s a s' e}, Held held s → acquire a s = (s', .error e) → Held held s'
  released : ∀ {r held s}, Held (r :: held) s → Held held (release r s)

namespace Undoable

variable {acquire : A → S → S × Except E R} {release : R → S → S} {Held : List R → S → Prop}

variable (h : Undoable acquire release Held)
include h

theorem acquireAll_held : ∀ (as : List A) {held : List R} {s : S}, Held held s →
    Held (acquireAll acquire as held s).1.2 (acquireAll acquire as held s).1.1 := by
  intro as
  induction as with
  | nil => intro held s hh; exact hh
  | cons a as ih =>
    intro held s hh
    unfold acquireAll
    split
    next s' r ha => exact ih (h.acquired hh ha)
    next s' e ha => exact h.refused hh ha

theorem releaseAll_held : ∀ (held : List R) {s : S}, Held held s → Held [] (releaseAll release held s) := by
  intro held
  induction held with
  | nil => intro s hh; exact hh
  | cons r held ih => intro s hh; exact ih (h.released hh)

theorem undone (as : List A) {s : S} (hs : Held [] s) :
    Held [] (releaseAll release (acquireAll acquire as [] s).1.2 (acquireAll acquire as [] s).1.1) :=
  h.releaseAll_held _ (h.acquireAll_held as hs)

end Undoable

end Frp
