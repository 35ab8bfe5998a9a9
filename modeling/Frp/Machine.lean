import Mathlib.Data.Prod.Basic

/-!
# The XUDP phase machine

`pkg/xudp/state/state.go`: one session generation at a time, one transport
epoch at a time inside it. A caller that names an older generation, or an older
transport, changes nothing.
-/

namespace Frp

inductive Phase where
  | init
  | natHolePrepare
  | punching
  | quicHandshake
  | p2pReady
  | relayConnect
  | relayReady
  | recovering
  | closed
  deriving DecidableEq, Repr

structure Machine where
  phase : Phase := .init
  generation : UInt64 := 0
  transportEpoch : UInt64 := 0
  deriving DecidableEq, Repr

namespace Machine

def newMachine : Machine := {}

def beginSession (m : Machine) : Machine × UInt64 :=
  ({ phase := .init, generation := m.generation + 1, transportEpoch := 0 }, m.generation + 1)

def beginTransport (m : Machine) (generation : UInt64) (phase : Phase) : Machine × Option UInt64 :=
  if generation ≠ m.generation then (m, none)
  else ({ m with phase := phase, transportEpoch := m.transportEpoch + 1 }, some (m.transportEpoch + 1))

def setPhase (m : Machine) (phase : Phase) : Machine := { m with phase := phase }

def setPhaseForGeneration (m : Machine) (generation : UInt64) (phase : Phase) : Machine × Bool :=
  if generation ≠ m.generation then (m, false) else (m.setPhase phase, true)

def setPhaseForTransport (m : Machine) (generation transportEpoch : UInt64) (phase : Phase) : Machine × Bool :=
  if generation ≠ m.generation ∨ transportEpoch ≠ m.transportEpoch then (m, false)
  else (m.setPhase phase, true)

def isCurrent (m : Machine) (generation transportEpoch : UInt64) : Bool :=
  generation == m.generation && transportEpoch == m.transportEpoch

def snapshot (m : Machine) : Phase × UInt64 × UInt64 := (m.phase, m.generation, m.transportEpoch)

def SameEpoch (m m' : Machine) : Prop := m'.generation = m.generation ∧ m'.transportEpoch = m.transportEpoch

variable {m : Machine} {g e : UInt64} {p : Phase}

theorem sameEpoch_refl : SameEpoch m m := ⟨rfl, rfl⟩

theorem SameEpoch.trans {m' m'' : Machine} (h : SameEpoch m m') (h' : SameEpoch m' m'') : SameEpoch m m'' :=
  ⟨h'.1.trans h.1, h'.2.trans h.2⟩

theorem setPhaseForGeneration_same : SameEpoch m (m.setPhaseForGeneration g p).1 := by
  unfold setPhaseForGeneration; split <;> exact ⟨rfl, rfl⟩

theorem setPhaseForTransport_same : SameEpoch m (m.setPhaseForTransport g e p).1 := by
  unfold setPhaseForTransport; split <;> exact ⟨rfl, rfl⟩

theorem beginTransport_some (h : (m.beginTransport g p).2 = some e) :
    g = m.generation ∧ (m.beginTransport g p).1.generation = g ∧ (m.beginTransport g p).1.transportEpoch = e := by
  unfold beginTransport at h ⊢
  split at h
  · cases h
  · rename_i hg
    obtain rfl := not_not.mp hg
    cases h; simp

theorem beginTransport_isSome : (m.beginTransport g p).2.isSome ↔ g = m.generation := by
  unfold beginTransport; split <;> simp_all

end Machine

end Frp
