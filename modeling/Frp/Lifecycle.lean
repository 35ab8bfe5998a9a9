import Frp.Fair

/-!
# The life of a service

A service is started by calls of `run` and ended by calls of `close`. `Service.Sound`: only one
start succeeds, none after the end has begun, and in the end nothing is left but what producers
are about to close, or will once what they wait for comes.
-/

namespace Frp

inductive CallState
  | idle
  | pending
  | ok
  | failed
  deriving DecidableEq

structure Service (σ ε : Type*) where
  init : σ → Prop
  step : σ → ε → σ → Prop
  run : σ → Nat → CallState
  close : σ → Nat → CallState
  /-- How often the close channel has been closed. -/
  closes : σ → Nat
  socketOpen : σ → Prop
  alive : σ → Prop
  obtained : σ → Nat → Prop
  closed : σ → Nat → Prop
  /-- The resource is with the producer whose steps are `e`, which closes it. -/
  owes : σ → ε → Nat → Prop
  /-- The resource is with a goroutine that waits for `e`. -/
  waits : σ → ε → Nat → Prop := fun _ _ _ => False

namespace Service

variable {σ ε : Type*}

structure Over (S : Service σ ε) (s : σ) : Prop where
  closed : ∃ j, S.close s j = .ok
  runs : ∀ i, S.run s i ≠ .pending
  closes : ∀ j, S.close s j ≠ .pending

structure Sound (S : Service σ ε) : Prop where
  once : ∀ s, Reach S.init S.step s → S.closes s ≤ 1
  single : ∀ s, Reach S.init S.step s → ∀ i j, S.run s i = .ok → S.run s j = .ok → i = j
  late : ∀ s, Reach S.init S.step s → ∀ i j, S.close s j ≠ .idle → S.run s i = .idle →
    ∀ t, Reach (· = s) S.step t → S.run t i = .idle ∨ S.run t i = .failed
  ended : ∀ s, Reach S.init S.step s → S.Over s →
    ¬ S.socketOpen s ∧ ¬ S.alive s ∧ ∀ c, S.obtained s c → S.closed s c ∨ ∃ e, S.owes s e c ∨ S.waits s e c
  paid : ∀ ρ : Run S.step, S.init (ρ.state 0) → ∀ n e c, S.owes (ρ.state n) e c → ρ.Fair (· = e) →
    ∃ m, n ≤ m ∧ S.closed (ρ.state m) c
  woken : ∀ ρ : Run S.step, S.init (ρ.state 0) → ∀ n e c, S.waits (ρ.state n) e c →
    (∃ m, n ≤ m ∧ ρ.event m = some e) → ∃ m, n ≤ m ∧ (S.closed (ρ.state m) c ∨ ∃ e, S.owes (ρ.state m) e c)

end Service

end Frp
