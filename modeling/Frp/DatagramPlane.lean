import Frp.UdpBinarySound
import Frp.VisitorSound

/-!
# Datagrams of a P2P transport

The first worker of `forwardP2PQUICDatagram` in the client, and the reader of
`runActiveTransport` over `p2pActiveTransport.ReceivePacket` in the visitor.
-/

namespace Frp

open Function

def Decodable (datagram : Str) : Prop := ∃ p, decodeUDPPacketBinary datagram = .ok p

def decodings (datagrams : List Str) : List UDPPacket :=
  datagrams.filterMap fun d => (decodeUDPPacketBinary d).toOption

open Visitor

theorem decodings_snoc_ok {ds : List Str} {d : Str} {p : UDPPacket} (h : decodeUDPPacketBinary d = .ok p) :
    decodings (ds ++ [d]) = decodings ds ++ [p] := by
  simp [decodings, h, Except.toOption]

theorem decodings_snoc_error {ds : List Str} {d : Str} {e : Fault UDPError} (h : decodeUDPPacketBinary d = .error e) :
    decodings (ds ++ [d]) = decodings ds := by
  simp [decodings, h, Except.toOption]

/-! ## The client -/

inductive P2PWorkerPc
  | receiving
  | putting (pkt : UDPPacket)
  | returned

/-- The first worker of `forwardP2PQUICDatagram`; `failed` once `ReceiveDatagram` has returned an error. -/
structure P2PWorker where
  pc : P2PWorkerPc := .receiving
  readCh : List UDPPacket := []
  ctxDone : Bool := false
  failed : Bool := false
  received : List Str := []
  passed : List UDPPacket := []

inductive P2PWorkerEvent
  | datagram (data : Str)
  | receiveError
  | put
  | done
  | forwarded
  | cancel

inductive P2PWorkerStep : P2PWorker → P2PWorkerEvent → P2PWorker → Prop
  | receive {s data pkt} : s.pc = .receiving → decodeUDPPacketBinary data = .ok pkt →
      P2PWorkerStep s (.datagram data) { s with received := s.received ++ [data], pc := .putting pkt }
  | skip {s data e} : s.pc = .receiving → decodeUDPPacketBinary data = .error e →
      P2PWorkerStep s (.datagram data) { s with received := s.received ++ [data] }
  | receiveError {s} : s.pc = .receiving → P2PWorkerStep s .receiveError { s with failed := true, pc := .returned }
  | put {s pkt} : s.pc = .putting pkt → s.readCh.length < chanCap →
      P2PWorkerStep s .put { s with readCh := s.readCh ++ [pkt], passed := s.passed ++ [pkt], pc := .receiving }
  | done {s pkt} : s.pc = .putting pkt → s.ctxDone = true → P2PWorkerStep s .done { s with pc := .returned }
  -- the managed forwarder, and the end of any worker of the connection
  | forwarded {s pkt rest} : s.readCh = pkt :: rest → P2PWorkerStep s .forwarded { s with readCh := rest }
  | cancel {s} : P2PWorkerStep s .cancel { s with ctxDone := true }

def P2PWorkerPc.inHand : P2PWorkerPc → List UDPPacket
  | putting pkt => [pkt]
  | _ => []

structure P2PWorker.Inv (s : P2PWorker) : Prop where
  passed : s.pc ≠ .returned → s.passed ++ s.pc.inHand = decodings s.received
  returned : s.pc = .returned → s.failed = true ∨ s.ctxDone = true

theorem P2PWorkerStep.inv {s s' : P2PWorker} {e : P2PWorkerEvent} (hst : P2PWorkerStep s e s') (h : s.Inv) :
    s'.Inv := by
  cases hst with
  | receive hpc hd =>
    refine ⟨fun _ => ?_, fun hr => by cases hr⟩
    have hp := h.passed (by rw [hpc]; simp)
    rw [hpc] at hp; simpa [decodings_snoc_ok hd, P2PWorkerPc.inHand] using hp
  | skip hpc hd =>
    refine ⟨fun hr => ?_, h.returned⟩
    rw [decodings_snoc_error hd]; exact h.passed hr
  | receiveError => exact ⟨fun hr => absurd rfl hr, fun _ => .inl rfl⟩
  | put hpc =>
    refine ⟨fun _ => ?_, fun hr => by cases hr⟩
    have hp := h.passed (by rw [hpc]; simp)
    rw [hpc] at hp; simpa [P2PWorkerPc.inHand] using hp
  | done hpc hctx => exact ⟨fun hr => absurd rfl hr, fun _ => .inr hctx⟩
  | forwarded => exact ⟨h.passed, h.returned⟩
  | cancel => exact ⟨h.passed, fun _ => .inr rfl⟩

theorem P2PWorker.reach_inv {s : P2PWorker} (h : Reach (· = {}) P2PWorkerStep s) : s.Inv := by
  refine h.invariant ?_ fun _ _ _ _ hi hst => hst.inv hi
  intro s h0
  subst h0; exact ⟨fun _ => rfl, fun hr => by cases hr⟩

/-! ## The visitor -/

/-- What the reader of each P2P transport got and put on `readCh`. A transport is `broken` when its
reader ended, or dropped a packet, for another reason than a datagram. -/
structure DatagramVisitor where
  visitor : Visitor UDPPacket := {}
  received : Nat → List Str := fun _ => []
  passed : Nat → List UDPPacket := fun _ => []
  broken : Nat → Prop := fun _ => False

def ReaderPc.inHand : ReaderPc UDPPacket → List UDPPacket
  | .gotGen p | .gotEpoch p | .putting p => [p.body]
  | _ => []

def ReaderPc.received (addr : Nat) (data : Str) : ReaderPc UDPPacket :=
  match decodeUDPPacketBinary data with
  | .ok pkt => .gotGen ⟨addr, pkt⟩
  | .error _ => .done

def Transport.breaks (t t' : Transport UDPPacket) (e : Effect UDPPacket) : Prop :=
  t'.reader = .done ∧ t.reader ≠ .done ∨ e = .silent ∧ (∃ p, t.reader = .putting p) ∧ t'.reader = .loadGen

namespace DatagramVisitor

def datagram (s : DatagramVisitor) (k : Nat) (t : Transport UDPPacket) (addr : Nat) (data : Str) : DatagramVisitor :=
  { s with
    visitor := s.visitor.setTransport k { t with reader := .received addr data }
    received := update s.received k (s.received k ++ [data]) }

def moved (s : DatagramVisitor) (k : Nat) (t t' : Transport UDPPacket) (e : Effect UDPPacket) : DatagramVisitor :=
  { s with
    visitor := (s.visitor.apply e).setTransport k t'
    passed := match e with
      | .put p => update s.passed k (s.passed k ++ [p.body])
      | _ => s.passed
    broken := fun j => s.broken j ∨ j = k ∧ t.breaks t' e }

end DatagramVisitor

inductive DatagramStep : DatagramVisitor → Event UDPPacket → DatagramVisitor → Prop
  | datagram {s k t} (addr : Nat) (data : Str) : s.visitor.transports[k]? = some t → t.kind = .p2p →
      t.reader = .receiving → DatagramStep s (.transport k .silent) (s.datagram k t addr data)
  -- the packets of a P2P transport come from datagrams only
  | transport {s k t e t'} : s.visitor.transports[k]? = some t → TStep s.visitor t e t' →
      (t.kind = .p2p → t.reader = .receiving → ∀ p, t'.reader ≠ .gotGen p) →
      DatagramStep s (.transport k e) (s.moved k t t' e)
  | other {s ev v'} : (∀ k e, ev ≠ .transport k e) → Step s.visitor ev v' → DatagramStep s ev { s with visitor := v' }

theorem DatagramStep.step {s s' : DatagramVisitor} {ev : Event UDPPacket} (h : DatagramStep s ev s') :
    Step s.visitor ev s'.visitor := by
  cases h with
  | datagram addr data ht hk hr =>
    refine .transport ht ?_
    unfold ReaderPc.received
    cases decodeUDPPacketBinary data with
    | ok => exact .receive hr
    | error => exact .receiveErr hr
  | transport ht hst => exact .transport ht hst
  | other _ hst => exact hst

structure ReaderPc.Passes (r : ReaderPc UDPPacket) (received : List Str) (passed : List UDPPacket) : Prop where
  passed : passed ++ r.inHand = decodings received
  ended : r = .done ↔ ∃ d ∈ received, ¬ Decodable d

namespace ReaderPc.Passes

variable {r r' : ReaderPc UDPPacket} {received : List Str} {passed passed' : List UDPPacket}

theorem move (h : r.Passes received passed) (hin : passed' ++ r'.inHand = passed ++ r.inHand) (hr : r ≠ .done)
    (hr' : r' ≠ .done) : r'.Passes received passed' where
  passed := hin.trans h.passed
  ended := ⟨fun hd => absurd hd hr', fun hd => absurd (h.ended.mpr hd) hr⟩

theorem datagram (h : ReaderPc.receiving.Passes received passed) (addr : Nat) (data : Str) :
    (ReaderPc.received addr data).Passes (received ++ [data]) passed := by
  have hp := h.passed
  have hall : ¬ ∃ d ∈ received, ¬ Decodable d := fun hd => by cases h.ended.mpr hd
  unfold ReaderPc.received
  cases hd : decodeUDPPacketBinary data with
  | ok pkt =>
    refine ⟨?_, fun hr => (by cases hr), ?_⟩
    · rw [decodings_snoc_ok hd, ← hp]; simp [inHand]
    · rintro ⟨d, hmem, hd'⟩
      rcases List.mem_append.mp hmem with hmem | hmem
      · exact absurd ⟨d, hmem, hd'⟩ hall
      · obtain rfl := List.mem_singleton.mp hmem
        exact absurd ⟨pkt, hd⟩ hd'
  | error =>
    refine ⟨?_, ⟨fun _ => ⟨data, by simp, ?_⟩, fun _ => rfl⟩⟩
    · rw [decodings_snoc_error hd, ← hp]; rfl
    · rintro ⟨pkt, hpkt⟩
      rw [hd] at hpkt; cases hpkt

end ReaderPc.Passes

section
variable {v v' : Visitor UDPPacket} {t t' : Transport UDPPacket} {e : Effect UDPPacket} {received : List Str}
  {passed : List UDPPacket}

theorem TStep.passes (hst : TStep v t e t') (hok : t.Ok) (hn : t.reader = .receiving → ∀ p, t'.reader ≠ .gotGen p)
    (hb : ¬ t.breaks t' e) (h : t.reader.Passes received passed) :
    t'.reader.Passes received (match e with | .put p => passed ++ [p.body] | _ => passed) := by
  cases hst with
  | spawnReader hm =>
    unfold Transport.Ok at hok
    simp only [hm] at hok; exact h.move (hok.1 ▸ rfl) (by rw [hok.1]; simp) (by simp)
  | rGen hr | rEpoch hr | gotGen hr | gotEpoch hr => exact h.move (hr ▸ rfl) (by rw [hr]; simp) (by simp)
  | rGenStale hr | rEpochStale hr | receiveErr hr | gotGenStale hr | gotEpochStale hr =>
    exact absurd (.inl ⟨rfl, by rw [hr]; simp⟩) hb
  | receive hr => exact absurd rfl (hn hr _)
  | put hr => exact h.move (by rw [hr]; simp [ReaderPc.inHand]) (by rw [hr]; simp) (by simp)
  | putCtx hr => exact absurd (.inr ⟨rfl, ⟨_, hr⟩, rfl⟩) hb
  | _ => exact h

theorem TStep.kind_eq (hst : TStep v t e t') : t'.kind = t.kind := by
  cases hst <;> rfl

theorem Step.reader_kept {ev : Event UDPPacket} (hst : Step v ev v') (hev : ∀ k e, ev ≠ .transport k e) {k : Nat}
    (ht' : v'.transports[k]? = some t') :
    (∃ t, v.transports[k]? = some t ∧ t'.reader = t.reader ∧ t'.kind = t.kind) ∨
      v.transports.length ≤ k ∧ t'.reader = .off := by
  have hset : ∀ {j : Nat} {x x' : Transport UDPPacket}, v.transports[j]? = some x →
      (v.transports.set j x')[k]? = some t' → x'.reader = x.reader → x'.kind = x.kind →
      ∃ t, v.transports[k]? = some t ∧ t'.reader = t.reader ∧ t'.kind = t.kind := by
    intro j x x' hx h hr hk
    rcases (getElem?_set_iff hx).mp h with ⟨rfl, rfl⟩ | ⟨-, h⟩
    · exact ⟨x, hx, hr, hk⟩
    · exact ⟨t', h, rfl, rfl⟩
  cases hst with
  | transport => exact absurd rfl (hev _ _)
  | activateP2P | activateRelay | activateRecovered =>
    rcases getElem?_append_singleton_iff.mp ht' with ⟨-, ht'⟩ | ⟨rfl, rfl⟩
    · exact .inl ⟨t', ht', rfl, rfl⟩
    · exact .inr ⟨Nat.le_refl _, rfl⟩
  | relayClosing _ _ ht | cancelRelay _ ht | p2pEnded _ ht | joinClosing _ ht | relayEnded _ ht | joinRelay _ ht
  | recoveredEnded _ ht => exact .inl (hset ht ht' rfl rfl)
  | _ => exact .inl ⟨t', ht', rfl, rfl⟩

end

namespace DatagramVisitor

structure Inv (s : DatagramVisitor) : Prop where
  visitor : s.visitor.Inv
  fresh : ∀ k, s.visitor.transports.length ≤ k → s.received k = [] ∧ s.passed k = []
  passes : ∀ k t, s.visitor.transports[k]? = some t → t.kind = .p2p → ¬ s.broken k →
    t.reader.Passes (s.received k) (s.passed k)

theorem Inv.init : Inv {} where
  visitor := Visitor.Reachable.inv (.start rfl)
  fresh _ _ := ⟨rfl, rfl⟩
  passes k t ht := by simp at ht

end DatagramVisitor

attribute [local simp] DatagramVisitor.datagram DatagramVisitor.moved

theorem DatagramStep.inv {s s' : DatagramVisitor} {ev : Event UDPPacket} (hst : DatagramStep s ev s') (h : s.Inv) :
    s'.Inv := by
  have hv := hst.step.inv h.visitor
  cases hst with
  | @datagram k t addr data ht hkind hr =>
    have hk := (List.getElem?_eq_some_iff.mp ht).1
    refine ⟨hv, ?_, ?_⟩
    · intro j hj
      have hj : s.visitor.transports.length ≤ j := by simpa [setTransport] using hj
      simp only [DatagramVisitor.datagram, update_of_ne (show j ≠ k by omega)]; exact h.fresh j hj
    · intro j u hu hukind hb
      rcases (getElem?_set_iff ht).mp hu with ⟨rfl, rfl⟩ | ⟨hne, hu⟩
      · simp only [DatagramVisitor.datagram, update_self]
        have hp := h.passes j t ht hkind hb
        rw [hr] at hp; exact hp.datagram addr data
      · simp only [DatagramVisitor.datagram, update_of_ne hne]; exact h.passes j u hu hukind hb
  | @transport k t e t' ht htst hn =>
    have hk := (List.getElem?_eq_some_iff.mp ht).1
    have hother : ∀ j, j ≠ k → (s.moved k t t' e).passed j = s.passed j := by
      intro j hj
      cases e <;> first | rfl | exact update_of_ne hj ..
    refine ⟨hv, ?_, ?_⟩
    · intro j hj
      have hj : s.visitor.transports.length ≤ j := by
        simpa [setTransport, apply_transports] using hj
      rw [hother j (by omega)]; exact h.fresh j hj
    · intro j u hu hukind hb
      simp only [DatagramVisitor.moved, setTransport, apply_transports] at hu
      rcases (getElem?_set_iff ht).mp hu with ⟨rfl, rfl⟩ | ⟨hne, hu⟩
      · have hkind := htst.kind_eq.symm.trans hukind
        have hp := htst.passes (h.visitor.ok j t ht) (hn hkind) (fun hbr => hb (.inr ⟨rfl, hbr⟩))
          (h.passes j t ht hkind fun hbr => hb (.inl hbr))
        cases e with
        | put => simp only [DatagramVisitor.moved, update_self]; exact hp
        | _ => exact hp
      · rw [hother j hne]; exact h.passes j u hu hukind fun hbr => hb (.inl hbr)
  | @other _ v' hev hst =>
    refine ⟨hv, ?_, ?_⟩
    · intro k hk
      refine h.fresh k (Nat.le_of_not_lt fun hlt => ?_)
      obtain ⟨t', ht', -⟩ := hst.transport_kept (List.getElem?_eq_getElem hlt)
      exact absurd (List.getElem?_eq_some_iff.mp ht').1 (Nat.not_lt.mpr hk)
    · intro k t' ht' hkind hb
      rcases hst.reader_kept hev ht' with ⟨t, ht, hr, hk⟩ | ⟨hlen, hoff⟩
      · rw [hr]; exact h.passes k t ht (hk ▸ hkind) hb
      · obtain ⟨hrec, hpas⟩ := h.fresh k hlen
        rw [hoff, hrec, hpas]; exact ⟨rfl, by simp⟩

theorem DatagramVisitor.reach_inv {s : DatagramVisitor} (h : Reach (· = {}) DatagramStep s) : s.Inv :=
  h.invariant (fun _ h0 => h0 ▸ Inv.init) fun _ _ _ _ hi hst => hst.inv hi

/-- While the transport works, both ends pass on the decodings of what they receive; the client skips
the other datagrams, while the visitor's reader ends at the first of them. -/
theorem p2p_datagrams_passed (s : P2PWorker) (v : DatagramVisitor) (k : Nat) (t : Transport UDPPacket) :
    (Reach (· = {}) P2PWorkerStep s → s.failed = false → s.ctxDone = false →
      s.passed ++ s.pc.inHand = decodings s.received ∧ s.pc ≠ .returned) ∧
    (Reach (· = {}) DatagramStep v → v.visitor.transports[k]? = some t → t.kind = .p2p → ¬ v.broken k →
      v.passed k ++ t.reader.inHand = decodings (v.received k) ∧
        (t.reader ≠ .done ↔ ∀ d ∈ v.received k, Decodable d)) := by
  refine ⟨fun h hf hc => ?_, fun h ht hkind hb => ?_⟩
  · have hi := P2PWorker.reach_inv h
    have hrun : s.pc ≠ .returned := by
      intro hr
      rcases hi.returned hr with h | h
      · rw [hf] at h; cases h
      · rw [hc] at h; cases h
    exact ⟨hi.passed hrun, hrun⟩
  · obtain ⟨hp, hend⟩ := (DatagramVisitor.reach_inv h).passes k t ht hkind hb
    refine ⟨hp, ?_⟩
    rw [ne_eq, hend]; simp

theorem p2p_activated : ∃ s t p, Reach (· = {}) DatagramStep s ∧ s.visitor.closing = .running ∧
    s.visitor.transports = [t] ∧ t.kind = .p2p ∧ t.main = .register ∧ t.reader = .off ∧ t.sender = .off ∧
    t.pending = some p ∧ ¬ s.broken 0 ∧ s.received 0 = [] := by
  have h := (.start rfl : Reach (· = {}) DatagramStep {})
    |>.next (.other (by simp) (@Step.enqueue UDPPacket _ ⟨[], none, none⟩ (by decide)))
    |>.next (.other (by simp) (.first rfl rfl))
    |>.next (.other (by simp) (.beginSession rfl))
    |>.next (.other (by simp) (.topDial rfl (by decide)))
    |>.next (.other (by simp) (.dialMore rfl .snapshot))
    |>.next (.other (by simp) (.dialMore rfl (.prepare rfl)))
    |>.next (.other (by simp) (.dialMore rfl (.punch rfl)))
    |>.next (.other (by simp) (.dialMore rfl (.handshake rfl)))
    |>.next (.other (by simp) (.dialConn rfl .dialOk))
    |>.next (.other (by simp) (.activateP2P rfl rfl))
  exact ⟨_, _, _, h, rfl, rfl, rfl, rfl, rfl, rfl, rfl, id, rfl⟩

theorem p2p_datagrams_passed_skip :
    (∃ s, Reach (· = {}) P2PWorkerStep s ∧ s.received = [[], sampleBody] ∧
      s.passed ++ s.pc.inHand = decodings s.received ∧ s.pc ≠ .returned) ∧
    ∃ v t, Reach (· = {}) DatagramStep v ∧ v.visitor.transports = [t] ∧ t.reader ≠ .done := by
  have h := (.start rfl : Reach (· = {}) P2PWorkerStep {})
    |>.next (.skip rfl (show decodeUDPPacketBinary [] = .error _ from rfl))
    |>.next (.receive rfl (decodeUDPPacketBinary_encode (p := samplePacket) rfl).2)
    |>.next (.put rfl (by decide))
  obtain ⟨v, t, -, hv, -, ht, hkind, -, -, -, -, hb, hrec⟩ := p2p_activated
  obtain ⟨hworker, hvisitor⟩ := p2p_datagrams_passed _ v 0 t
  have hreads := (hvisitor hv (ht ▸ rfl) hkind hb).2
  rw [hrec] at hreads; exact ⟨⟨_, h, rfl, hworker h rfl rfl⟩, v, t, hv, ht, hreads.mpr (by simp)⟩

theorem p2p_empty_datagram : ¬ Decodable [] ∧
    ∃ s t, Reach (· = {}) DatagramStep s ∧ s.visitor.closing = .running ∧ s.visitor.transports = [t] ∧
      t.kind = .p2p ∧ ¬ s.broken 0 ∧ s.received 0 = [[]] ∧ t.reader = .done ∧ t.closed = true := by
  have hbad : ¬ Decodable [] := by
    intro h
    obtain ⟨p, hp⟩ := h
    cases hp
  have hdone : ReaderPc.received 0 [] = .done := rfl
  refine ⟨hbad, ?_⟩
  obtain ⟨s, t, p, h, hrun, ht, hkind, hm, hr, hs, hp, hb, hrec⟩ := p2p_activated
  have hepoch : t.genOk s.visitor ∧ t.epochOk s.visitor := by
    have := (DatagramVisitor.reach_inv h).visitor.epoch 0 t (ht ▸ rfl) (by rw [hm]; simp)
    exact this.2
  obtain ⟨hgen, hepoch⟩ := hepoch
  obtain ⟨v, received, passed, broken⟩ := s
  cases v
  cases t
  subst hrun ht hkind hm hr hs hp
  have h := h
    |>.next (.transport (k := 0) rfl (.register rfl rfl) (by simp))
    |>.next (.transport (k := 0) rfl (.firstGen rfl hgen) (by simp))
    |>.next (.transport (k := 0) rfl (.firstEpoch rfl hepoch) (by simp))
    |>.next (.transport (k := 0) rfl (.firstOk rfl rfl) (by simp))
    |>.next (.transport (k := 0) rfl (.sentGen rfl hgen) (by simp))
    |>.next (.transport (k := 0) rfl (.sentEpoch rfl hepoch) (by simp))
    |>.next (.transport (k := 0) rfl (.spawnReader rfl) (by simp))
    |>.next (.transport (k := 0) rfl (.spawnSender rfl) (by simp))
    |>.next (.transport (k := 0) rfl (.rGen rfl hgen) (by simp))
    |>.next (.transport (k := 0) rfl (.rEpoch rfl hepoch) (by simp))
    |>.next (.datagram (k := 0) 0 [] rfl rfl rfl)
    |>.next (.transport (k := 0) rfl (.wake rfl (.inl (.inr (.inl rfl)))) (by simp [hdone]))
  refine ⟨_, _, h, rfl, rfl, rfl, ?_, ?_, rfl, rfl⟩
  · simp [Transport.breaks, Transport.closeTransport, hdone, hb]
  · simp [hrec]

end Frp
