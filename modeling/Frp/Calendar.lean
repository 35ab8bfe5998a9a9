import Mathlib.Algebra.Order.Group.Nat
import Mathlib.Algebra.Ring.Int.Defs
import Mathlib.Algebra.Ring.Nat

/-!
# Calendar days

A time zone from some midnight on, as the number of hours of each of its calendar days,
and the instants of its days. Times are counted in nanoseconds from that midnight.
-/

namespace Frp

def hour : Nat := 3600 * 1000000000

structure Calendar where
  hours : Nat → Nat
  regular : ∀ d, hours d = 23 ∨ hours d = 24 ∨ hours d = 25

namespace Calendar

variable (cal : Calendar)

def midnight : Nat → Nat
  | 0 => 0
  | d + 1 => midnight d + hour * cal.hours d

structure Instant where
  day : Nat
  clock : Nat
  clock_lt : clock < hour * cal.hours day

def Instant.time {cal : Calendar} (i : cal.Instant) : Nat := cal.midnight i.day + i.clock

variable {cal}

theorem midnight_mono {a b : Nat} (h : a ≤ b) : cal.midnight a ≤ cal.midnight b := by
  induction h with
  | refl => exact Nat.le_refl _
  | step _ ih => exact Nat.le_trans ih (Nat.le_add_right _ _)

def Steady (cal : Calendar) (a b : Nat) : Prop :=
  (∀ d, a ≤ d → d < b → cal.hours d ≠ 23) ∧ cal.midnight b < cal.midnight a + 24 * hour * (b - a + 1)

theorem midnight_add_le {a b : Nat} (hab : a ≤ b) (h : ∀ d, a ≤ d → d < b → cal.hours d ≠ 23) :
    cal.midnight a + 24 * hour * (b - a) ≤ cal.midnight b := by
  induction hab with
  | refl => simp
  | @step b hab ih =>
    have hprev := ih fun d hd hlt => h d hd (Nat.lt_succ_of_lt hlt)
    have hlong : 24 ≤ cal.hours b := by
      have hr := cal.regular b
      have h23 := h b hab (Nat.lt_succ_self b)
      omega
    change cal.midnight a + 24 * hour * (b + 1 - a) ≤ cal.midnight b + hour * cal.hours b
    have hstep := Nat.mul_le_mul_left hour hlong
    unfold hour at hprev hstep ⊢
    omega

theorem Steady.elapsed {a b i j : Nat} (h : cal.Steady a b) (hi : a ≤ i) (hij : i ≤ j) (hj : j ≤ b) :
    (cal.midnight j - cal.midnight i) / (24 * hour) = j - i := by
  have h1 := midnight_add_le hi fun d hd hlt => h.1 d hd (by omega)
  have h2 := midnight_add_le hij fun d hd hlt => h.1 d (by omega) (by omega)
  have h3 := midnight_add_le hj fun d hd hlt => h.1 d (by omega) hlt
  have htotal := h.2
  apply Nat.div_eq_of_lt_le
  · unfold hour at h2 ⊢
    omega
  · unfold hour at h1 h2 h3 htotal ⊢
    omega

end Calendar

end Frp
