import Mathlib.Logic.Function.Basic

/-!
# Locks held by program counters

`gate p` is the lock a thread holds at its program counter `p`. If every move of a thread
takes, keeps or gives back a lock as its counters say, a lock is held by one thread.
-/

namespace Frp

open Function

variable {T P L : Type*} [DecidableEq T] [DecidableEq L]

def Held (gate : P → Option L) (pc : T → P) (mus : L → Option T) : Prop :=
  ∀ t g, gate (pc t) = some g → mus g = some t

inductive MuMove (gate : P → Option L) (t : T) (p q : P) (mus : L → Option T) : (L → Option T) → Prop
  | keep : gate q = none ∨ gate q = gate p → MuMove gate t p q mus mus
  | acquire {g} : gate q = some g → mus g = none → MuMove gate t p q mus (update mus g (some t))
  | release {g} : gate p = some g → gate q = none → MuMove gate t p q mus (update mus g none)

namespace Held

variable {gate : P → Option L} {pc : T → P} {mus mus' : L → Option T}

omit [DecidableEq T] [DecidableEq L] in
theorem exclusive (h : Held gate pc mus) {t u : T} {g : L} (ht : gate (pc t) = some g) (hu : gate (pc u) = some g) :
    t = u :=
  Option.some.inj ((h t g ht).symm.trans (h u g hu))

theorem move (h : Held gate pc mus) {t : T} {q : P} (hm : MuMove gate t (pc t) q mus mus') :
    Held gate (update pc t q) mus' := by
  intro u g hu
  by_cases hut : u = t
  · subst hut
    rw [update_self] at hu
    cases hm with
    | keep hk =>
      rcases hk with hk | hk
      · rw [hk] at hu; cases hu
      · exact h u g (hk ▸ hu)
    | acquire hq => rw [hq] at hu; cases hu; simp
    | release _ hq => rw [hq] at hu; cases hu
  · rw [update_of_ne hut] at hu
    have hg := h u g hu
    cases hm with
    | keep => exact hg
    | @acquire g' _ hfree =>
      have hne : g ≠ g' := by rintro rfl; rw [hfree] at hg; cases hg
      rw [update_of_ne hne]; exact hg
    | @release g' hp =>
      have hne : g ≠ g' := by rintro rfl; exact hut (Option.some.inj (hg.symm.trans (h t g hp)))
      rw [update_of_ne hne]; exact hg

end Held

end Frp
