import Frp.VisitorSound

/-!
# The phase of the visitor's machine

The dispatcher alone writes the phase. It writes none while it waits for a P2P transport;
while the relay runs it writes `recovering` and back.
-/

namespace Frp

variable {α : Type*}

/-! ## Probes -/

def DialStage.probing : DialStage → Bool
  | .snapshot => true
  | .prepare r | .punch r | .handshake r | .dial r => r

theorem Machine.setPhaseForGeneration_phase (m : Machine) (p : Phase) :
    (m.setPhaseForGeneration m.generation p).1.phase = p := by
  simp [setPhaseForGeneration, setPhase]

theorem Machine.setPhaseForTransport_phase (m : Machine) (g e : UInt64) (p : Phase) :
    (m.setPhaseForTransport g e p).1.phase = m.phase ∨ (m.setPhaseForTransport g e p).1.phase = p := by
  unfold setPhaseForTransport
  split
  · exact .inl rfl
  · exact .inr rfl

theorem DialStep.probing {g : UInt64} {m m' : Machine} {st : DialStage} {o : DialOut} (h : DialStep g m st m' o)
    (hst : st.probing = true) (hm : m.phase = .recovering) :
    m'.phase = .recovering ∧ ∀ st', o = .more st' → st'.probing = true := by
  cases h with
  | snapshot =>
    refine ⟨hm, fun st' heq => ?_⟩
    cases heq; simp [DialStage.probing, Machine.snapshot, hm]
  | @prepare r hg | @punch r hg | @handshake r hg =>
    obtain rfl : r = true := hst
    refine ⟨?_, fun st' heq => ?_⟩
    · rw [hg]; exact m.setPhaseForGeneration_phase _
    · cases heq; rfl
  | prepareStale | preCheckErr | punchStale | makeHoleErr | handshakeStale | dialErr | dialOk =>
    exact ⟨hm, fun st' heq => by cases heq⟩

/-! ## The kind of a transport -/

theorem Transport.Move.kind {v : Visitor α} {t t' : Transport α} (h : t.Move v t') : t'.kind = t.kind := by
  cases h with
  | step hst => cases hst <;> rfl
  | _ => rfl

namespace Visitor

def kindAt (s : Visitor α) (k : Nat) : Option Kind := s.transports[k]?.map Transport.kind

variable {s s' : Visitor α}

theorem kindAt_step {e : Event α} (h : Step s e s') {k : Nat} {x : Kind} (hk : s.kindAt k = some x) :
    s'.kindAt k = some x := by
  obtain ⟨t, ht, rfl⟩ := Option.map_eq_some_iff.mp hk
  obtain ⟨t', ht', hmove⟩ := h.transport_kept ht
  exact Option.map_eq_some_iff.mpr ⟨t', ht', hmove.kind⟩

theorem kindAt_activate (s : Visitor α) (kind : Kind) (ph : Phase) (e : UInt64) (pend : Option (Packet α)) :
    (s.activate kind ph e pend).kindAt s.transports.length = some kind := by
  simp [kindAt, activate]

def Phased (s : Visitor α) : Prop :=
  match s.session with
  | .runP2P k | .runRecovered k => s.kindAt k = some .p2p ∧ s.machine.phase = .p2pReady
  | .probe k _ st => s.kindAt k = some .relay ∧ s.machine.phase = .recovering ∧ st.probing = true
  | .relaySelect k _ | .joinClosing k | .cancelRelay k | .joinRelay k =>
    s.kindAt k = some .relay ∧ (s.machine.phase = .relayReady ∨ s.machine.phase = .recovering)
  | _ => True

theorem Phased.keep {e : Event α} (h : s.Phased) (hst : Step s e s') (hs : s'.session = s.session)
    (hm : s'.machine = s.machine) : s'.Phased := by
  unfold Phased at h ⊢
  rw [hs, hm]
  cases hp : s.session <;> simp only [hp] at h ⊢
  case runP2P | runRecovered | probe | relaySelect | joinClosing | cancelRelay | joinRelay =>
    exact ⟨kindAt_step hst h.1, h.2⟩

theorem beginTransport_phase {m : Machine} {g e : UInt64} {p : Phase} (h : (m.beginTransport g p).2 = some e) :
    (m.beginTransport g p).1.phase = p := by
  obtain ⟨rfl, -⟩ := Machine.beginTransport_some h
  simp [Machine.beginTransport]

end Visitor

open Visitor in
theorem Step.phased {s s' : Visitor α} {e : Event α} (hst : Step s e s') (hi : s.Inv) (h : s.Phased) : s'.Phased := by
  cases hst with
  | enqueue hq => exact h.keep (.enqueue hq) rfl rfl
  | full => exact h
  | written hr => exact h.keep (.written hr) rfl rfl
  | @transport k t e t' ht hst =>
    have hstep := Step.transport ht hst
    cases e <;> exact h.keep hstep rfl rfl
  | closeStart hc => exact h.keep (.closeStart hc) rfl rfl
  | closeCh hc => exact h.keep (.closeCh hc) rfl rfl
  | activateP2P _ he | activateRecovered _ _ he =>
    exact ⟨kindAt_activate s .p2p .p2pReady _ _, beginTransport_phase he⟩
  | activateRelay _ he => exact ⟨kindAt_activate s .relay .relayReady _ _, .inl (beginTransport_phase he)⟩
  | relayClosing hs hc ht =>
    have hstep := Step.relayClosing hs hc ht
    unfold Phased at h
    rw [hs] at h; exact ⟨kindAt_step hstep h.1, h.2⟩
  | probeReady hs =>
    have hg : s.generation = s.machine.generation := hi.generation (by rw [hs]; trivial)
    unfold Phased at h
    rw [hs] at h
    refine ⟨h.1, ?_, rfl⟩
    rw [hg]; exact s.machine.setPhaseForGeneration_phase _
  | probeMore hs hd =>
    unfold Phased at h
    rw [hs] at h
    obtain ⟨hphase, hmore⟩ := hd.probing h.2.2 h.2.1
    exact ⟨h.1, hphase, hmore _ rfl⟩
  | probeFailed hs hd =>
    unfold Phased at h
    rw [hs] at h
    obtain ⟨hphase, -⟩ := hd.probing h.2.2 h.2.1
    refine ⟨h.1, ?_⟩
    rcases Machine.setPhaseForTransport_phase _ s.generation _ .relayReady with hp | hp
    · exact .inr (hp.trans hphase)
    · exact .inl hp
  | probeConn hs hd =>
    unfold Phased at h
    rw [hs] at h; exact ⟨h.1, .inr (hd.probing h.2.2 h.2.1).1⟩
  | cancelRelay hs ht =>
    have hstep := Step.cancelRelay hs ht
    unfold Phased at h
    rw [hs] at h; exact ⟨kindAt_step hstep h.1, h.2⟩
  | _ => trivial

theorem Visitor.Reachable.phased {s : Visitor α} (h : s.Reachable) : s.Phased := by
  refine h.invariant ?_ fun _ _ _ hr hp hst => hst.phased (Visitor.Reachable.inv hr) hp
  intro s hs
  rw [hs]
  trivial

/-- While the sender of a P2P transport is alive the phase is `p2pReady`, while that of a relay
transport is it is `relayReady` or `recovering`. -/
theorem visitor_phase_true {s : Visitor α} (h : s.Reachable) {k : Nat} {t : Transport α}
    (ht : s.transports[k]? = some t) (hl : t.senderLive) :
    (t.kind = .p2p → s.machine.phase = .p2pReady) ∧
    (t.kind = .relay → s.machine.phase = .relayReady ∨ s.machine.phase = .recovering) ∧
    s.machine.generation = t.generation ∧ s.machine.transportEpoch = t.epoch := by
  have hi := h.inv
  have hj : t.main ≠ .joined := by
    intro hj
    have hok := hi.ok k t ht
    unfold Transport.Ok at hok
    rw [hj] at hok; exact hok (.inr hl)
  have hc := hi.single k t ht hj
  obtain ⟨-, hg, he⟩ := hi.epoch k t ht hj
  have hphase := h.phased
  unfold Visitor.Phased at hphase
  have hkind : s.kindAt k = some t.kind := by simp [Visitor.kindAt, ht]
  -- the dispatcher waits for this transport, so it is at one of the places that have one
  cases hp : s.session <;> rw [hp] at hc hphase <;> cases hc
  case runP2P | runRecovered =>
    have hk : t.kind = .p2p := Option.some.inj (hkind.symm.trans hphase.1)
    refine ⟨fun _ => hphase.2, fun hr => ?_, hg.symm, he.symm⟩
    rw [hk] at hr; cases hr
  case probe =>
    have hk : t.kind = .relay := Option.some.inj (hkind.symm.trans hphase.1)
    refine ⟨fun hr => ?_, fun _ => .inr hphase.2.1, hg.symm, he.symm⟩
    rw [hk] at hr; cases hr
  case relaySelect | joinClosing | cancelRelay | joinRelay =>
    have hk : t.kind = .relay := Option.some.inj (hkind.symm.trans hphase.1)
    refine ⟨fun hr => ?_, fun _ => hphase.2, hg.symm, he.symm⟩
    rw [hk] at hr; cases hr

theorem visitor_phase_true_relay : ∃ (s : Visitor Nat) (t : Transport Nat), s.Reachable ∧ s.transports[0]? = some t ∧
    t.senderLive ∧ t.kind = .relay ∧ (s.machine.phase = .relayReady ∨ s.machine.phase = .recovering) ∧
    s.machine.transportEpoch = t.epoch := by
  obtain ⟨s, h, -, -, -, t, hts, hkind, hmain, -⟩ := relay_run
  have ht : s.transports[0]? = some t := by rw [hts]; rfl
  have h' := h.next (.transport ht (.spawnSender hmain))
  have ht' : (s.transports.set 0 { t with main := .selecting, sender := .selecting })[0]? = some _ :=
    (getElem?_set_iff ht).mpr (.inl ⟨rfl, rfl⟩)
  have hl : Transport.senderLive { t with main := .selecting, sender := .selecting } := ⟨by simp, by simp⟩
  obtain ⟨-, hrelay, -, hepoch⟩ := visitor_phase_true h' ht' hl
  exact ⟨_, _, h', ht', hl, hkind, hrelay hkind, hepoch⟩

end Frp
