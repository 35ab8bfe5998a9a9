import Frp.Lts
import Frp.Machine

/-!
# `IsCurrent` without the lock

`IsCurrent` of `pkg/xudp/state/state.go` loads the generation and the epoch one after the
other, while `BeginSession` and `BeginTransport` go on under the lock. One call of
`IsCurrent` is followed.
-/

namespace Frp

def Machine.storeEpoch (m : Machine) : Machine := { m with transportEpoch := 0 }

def Machine.addGeneration (m : Machine) : Machine := { m with phase := .init, generation := m.generation + 1 }

theorem Machine.beginSession_eq (m : Machine) : m.beginSession.1 = m.storeEpoch.addGeneration := rfl

inductive IsCurrentPc
  | idle
  | called (generation transportEpoch : UInt64)
  | loaded (generation transportEpoch : UInt64)
  | returned (generation transportEpoch : UInt64) (result : Bool)
  deriving DecidableEq

def IsCurrentPc.running : IsCurrentPc → Bool
  | called _ _ | loaded _ _ => true
  | idle | returned _ _ _ => false

/-- `inSession` is a call of `BeginSession` between its two writes. `seen` are the moments of the
call of `IsCurrent`, the latest first; `advanced` is set when the generation changes between its
loads, and `inside` when the epoch is loaded between those two writes. -/
structure MachineLoads where
  machine : Machine := .newMachine
  inSession : Bool := false
  call : IsCurrentPc := .idle
  seen : List (UInt64 × UInt64 × Bool) := []
  advanced : Bool := false
  inside : Bool := false

inductive MachineEvent
  | storeEpoch
  | addGeneration
  | beginTransport (generation : UInt64) (phase : Phase)
  | call (generation transportEpoch : UInt64)
  | load

namespace MachineLoads

def moment (s : MachineLoads) : UInt64 × UInt64 × Bool :=
  (s.machine.generation, s.machine.transportEpoch, s.inSession)

def set (s : MachineLoads) (m : Machine) (inSession : Bool) : MachineLoads :=
  { s with
    machine := m
    inSession := inSession
    seen := if s.call.running then (m.generation, m.transportEpoch, inSession) :: s.seen else s.seen }

end MachineLoads

inductive MachineStep : MachineLoads → MachineEvent → MachineLoads → Prop
  | storeEpoch {s} : s.inSession = false → MachineStep s .storeEpoch (s.set s.machine.storeEpoch true)
  | addGeneration {s} : s.inSession = true →
      MachineStep s .addGeneration
        { s.set s.machine.addGeneration false with advanced := s.advanced || s.call matches .loaded _ _ }
  | beginTransport {s} (generation : UInt64) (phase : Phase) : s.inSession = false →
      MachineStep s (.beginTransport generation phase) (s.set (s.machine.beginTransport generation phase).1 false)
  | call {s} (generation transportEpoch : UInt64) : s.call.running = false →
      MachineStep s (.call generation transportEpoch)
        { s with call := .called generation transportEpoch, seen := [s.moment], advanced := false, inside := false }
  | loadGeneration {s generation transportEpoch} : s.call = .called generation transportEpoch →
      generation = s.machine.generation → MachineStep s .load { s with call := .loaded generation transportEpoch }
  | otherGeneration {s generation transportEpoch} : s.call = .called generation transportEpoch →
      generation ≠ s.machine.generation →
      MachineStep s .load { s with call := .returned generation transportEpoch false }
  | loadEpoch {s generation transportEpoch} : s.call = .loaded generation transportEpoch →
      MachineStep s .load
        { s with
          call := .returned generation transportEpoch (transportEpoch == s.machine.transportEpoch)
          inside := s.inSession }

namespace MachineLoads

variable {s t : MachineLoads} {e : MachineEvent} {g x : UInt64}

def Reachable : MachineLoads → Prop := Reach (· = {}) MachineStep

structure Inv (s : MachineLoads) : Prop where
  seen : s.call.running = true → s.moment ∈ s.seen
  loaded : ∀ g x, s.call = .loaded g x → s.advanced = false → s.machine.generation = g
  returned : ∀ g x, s.call = .returned g x true → s.advanced = false → (g, x, s.inside) ∈ s.seen

theorem Inv.set (h : s.Inv) {m : Machine} (hm : m.generation = s.machine.generation) (b : Bool) : (s.set m b).Inv := by
  refine ⟨fun hr => ?_, fun g x hc ha => ?_, fun g x hc ha => ?_⟩
  · have hr' : s.call.running = true := hr
    simp only [MachineLoads.set, hr', if_true]; exact List.mem_cons_self
  · exact hm.trans (h.loaded g x hc ha)
  · have hc' : s.call = .returned g x true := hc
    simp only [MachineLoads.set, hc', IsCurrentPc.running]; exact h.returned g x hc' ha

theorem beginTransport_generation (m : Machine) (g : UInt64) (p : Phase) :
    (m.beginTransport g p).1.generation = m.generation := by
  unfold Machine.beginTransport
  split <;> rfl

theorem Inv.step (h : s.Inv) (hs : MachineStep s e t) : t.Inv := by
  cases hs with
  | storeEpoch => exact h.set (m := s.machine.storeEpoch) rfl true
  | addGeneration =>
    refine ⟨fun hr => ?_, fun g x hc ha => ?_, fun g x hc ha => ?_⟩
    · have hr' : s.call.running = true := hr
      simp only [MachineLoads.set, hr', if_true]; exact List.mem_cons_self
    · have hc' : s.call = .loaded g x := hc
      simp [hc'] at ha
    · have hc' : s.call = .returned g x true := hc
      simp only [MachineLoads.set, hc', IsCurrentPc.running, Bool.or_false] at ha ⊢
      exact h.returned g x hc' ha
  | beginTransport g p => exact h.set (beginTransport_generation s.machine g p) false
  | call g x =>
    refine ⟨fun _ => List.mem_cons_self, fun g x hc _ => ?_, fun g x hc _ => ?_⟩
    · cases hc
    · cases hc
  | loadGeneration hc heq =>
    refine ⟨fun _ => h.seen (hc ▸ rfl), fun g x hl _ => ?_, fun g x hl _ => ?_⟩
    · cases hl; exact heq.symm
    · cases hl
  | otherGeneration =>
    refine ⟨fun hr => ?_, fun g x hl _ => ?_, fun g x hl _ => ?_⟩
    · cases hr
    · cases hl
    · cases hl
  | @loadEpoch g x hc =>
    refine ⟨fun hr => ?_, fun g x hl _ => ?_, fun g' x' hl ha => ?_⟩
    · cases hr
    · cases hl
    · -- the generation has not changed since it was loaded
      obtain ⟨rfl, rfl, hx⟩ : g = g' ∧ x = x' ∧ (x == s.machine.transportEpoch) = true := by simpa using hl
      have hseen := h.seen (hc ▸ rfl)
      rw [moment, h.loaded g x hc ha, ← eq_of_beq hx] at hseen; exact hseen

theorem Reachable.inv (h : s.Reachable) : s.Inv :=
  h.invariant (fun _ hi => by subst hi; exact ⟨nofun, nofun, nofun⟩) fun _ _ _ _ hi hs => hi.step hs

end MachineLoads

/-- A pair that `IsCurrent` affirms was the machine's during the call, unless the epoch was loaded
inside a `BeginSession` or one advanced the generation between the loads. -/
theorem is_current_linearized {s : MachineLoads} (h : s.Reachable) {g x : UInt64} (hr : s.call = .returned g x true) :
    (g, x, false) ∈ s.seen ∨ s.inside = true ∧ (g, x, true) ∈ s.seen ∨ s.advanced = true := by
  cases ha : s.advanced with
  | true => exact .inr (.inr rfl)
  | false =>
    have hseen := h.inv.returned g x hr ha
    cases hb : s.inside with
    | false => exact .inl (hb ▸ hseen)
    | true => exact .inr (.inl ⟨rfl, hb ▸ hseen⟩)

theorem is_current_linearized_first :
    ∃ s : MachineLoads, s.Reachable ∧ s.call = .returned 1 1 true ∧ s.advanced = false ∧ (1, 1, false) ∈ s.seen := by
  have h6 := (.start rfl : MachineLoads.Reachable {})
    |>.next (.storeEpoch rfl)
    |>.next (.addGeneration rfl)
    |>.next (.beginTransport 1 .p2pReady rfl)
    |>.next (.call 1 1 rfl)
    |>.next (.loadGeneration rfl (by decide))
    |>.next (.loadEpoch rfl)
  refine ⟨_, h6, rfl, rfl, ?_⟩
  rcases is_current_linearized h6 rfl with h | h | h
  · exact h
  · cases h.1
  · cases h

/-- The second transport of the first session has been replaced when `IsCurrent` is asked about it;
between its loads a second session comes to its own second transport. -/
theorem is_current_torn :
    (∃ s t : MachineLoads, s.Reachable ∧ s.moment = (1, 2, false) ∧ Reach (· = s) MachineStep t ∧
      t.call = .returned 1 2 true ∧
      t.seen = [(2, 2, false), (2, 1, false), (2, 0, false), (1, 0, true), (1, 3, false)]) ∧
    ∃ s t : MachineLoads, s.Reachable ∧ s.moment = (1, 0, false) ∧ Reach (· = s) MachineStep t ∧
      t.call = .returned 1 0 true ∧ t.seen = [(1, 0, true), (1, 1, false)] := by
  have h0 : MachineLoads.Reachable {} := .start rfl
  have h1 := h0.next (.storeEpoch rfl)
  have h2 : MachineLoads.Reachable { machine := ⟨.init, 1, 0⟩ } := h1.next (.addGeneration rfl)
  constructor
  · have h3 := h2.next (.beginTransport 1 .relayReady rfl)
    have h4 : MachineLoads.Reachable { machine := ⟨.p2pReady, 1, 2⟩ } := h3.next (.beginTransport 1 .p2pReady rfl)
    have k0 : Reach (· = { machine := ⟨.p2pReady, 1, 2⟩ }) MachineStep _ := .start rfl
    have k1 := k0.next (.beginTransport 1 .relayReady rfl)
    have k2 := k1.next (.call 1 2 rfl)
    have k3 := k2.next (.loadGeneration rfl (by decide))
    have k4 := k3.next (.storeEpoch rfl)
    have k5 := k4.next (.addGeneration rfl)
    have k8 := k5
      |>.next (.beginTransport 2 .relayReady rfl)
      |>.next (.beginTransport 2 .p2pReady rfl)
      |>.next (.loadEpoch rfl)
    exact ⟨_, _, h4, by decide, k8, by decide, by decide⟩
  · have k0 : Reach (· = { machine := ⟨.init, 1, 0⟩ }) MachineStep _ := .start rfl
    have k5 := k0
      |>.next (.beginTransport 1 .relayReady rfl)
      |>.next (.call 1 0 rfl)
      |>.next (.storeEpoch rfl)
      |>.next (.loadGeneration rfl (by decide))
      |>.next (.loadEpoch rfl)
    exact ⟨_, _, h2, by decide, k5, by decide, by decide⟩

end Frp
