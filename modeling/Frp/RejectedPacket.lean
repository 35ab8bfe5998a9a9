import Frp.BridgeSound
import Frp.UdpFleet
import Frp.VisitorSound

/-!
# Packets their encoding rejects

`WriteMsg` and `SendPacket` return the error of an encoder and that of a connection in one
value. The server's sender gives the packet back after either.
-/

namespace Frp

section
variable [JSON] [V1Codec]

def Encoding.rejects (c : Encoding) (p : UDPPacket) : Bool := (c.writeMsg [] (.udpPacket p)).2.isSome

/-! ## The server -/

/-- The server's steps with packets in place of numbers: a write of a rejected packet does not succeed. -/
def UDPCodedStep (c : Encoding) (payload : Nat → UDPPacket) (t : TransportConfig) (s : UDPWorld) (e : UDPEvent)
    (s' : UDPWorld) : Prop :=
  UDPStep t s e s' ∧ ∀ p, s.sender = .writing p → s'.written = s.written ++ [p] → c.rejects (payload p) = false

end

open UDPWorld Transport Encoding Visitor.Reachable

section
variable {t : TransportConfig} {s s' : UDPWorld} {e : UDPEvent}

theorem UDPStep.sendCh_le (hst : UDPStep t s e s') (he : e ≠ .user) : s'.sendCh.length ≤ s.sendCh.length := by
  cases hst with
  | @closeOld old | @shutdownConn old => cases old <;> exact Nat.le_refl _
  | pick _ hq => rw [hq]; exact Nat.le_succ _
  | enqueue | respond | forwardEnds => exact absurd rfl he
  | _ => exact Nat.le_refl _

theorem UDPStep.written_or (hst : UDPStep t s e s') :
    s'.written = s.written ∨ ∃ p, s.sender = .writing p ∧ s'.written = s.written ++ [p] := by
  cases hst with
  | @closeOld old | @shutdownConn old => cases old <;> exact .inl rfl
  | write hs => exact .inr ⟨_, hs, rfl⟩
  | _ => exact .inl rfl

theorem UDPStep.held_kept (hst : UDPStep t s e s') (h : s.Inv t) {p : Nat} (hp : s.held = [p])
    (hw : s'.written = s.written) : s'.held = [p] := by
  by_cases he : e = .user
  · subst he
    cases hst <;> exact hp
  · have hq := hst.packets_kept h he
    simp only [packets, hw, hp, List.append_assoc, List.append_cancel_left_eq] at hq
    have hlen := s'.held_length_le
    cases hs : s'.held with
    | nil =>
      rw [hs] at hq
      have hle := hst.sendCh_le he
      rw [show s'.sendCh = p :: s.sendCh from hq] at hle; exact absurd hle (by simp)
    | cons q rest =>
      rw [hs] at hq hlen
      have hrest : rest = [] := List.length_eq_zero_iff.mp (Nat.le_zero.mp (Nat.le_of_succ_le_succ hlen))
      subst hrest
      simp at hq
      rw [hq.1]

end

section
variable [JSON] [V1Codec]

theorem UDPCodedStep.keeps {c : Encoding} {payload : Nat → UDPPacket} {t : TransportConfig} {s s' : UDPWorld}
    {e : UDPEvent} (hst : UDPCodedStep c payload t s e s') (h : s.Inv t) {p : Nat} (hp : s.held = [p])
    (hrej : c.rejects (payload p) = true) : s'.held = [p] ∧ s'.written = s.written := by
  have hw : s'.written = s.written := by
    rcases hst.1.written_or with hw | ⟨q, hs, hw⟩
    · exact hw
    -- the packet that is written is the held one
    · have hrun := h.running_of_sender (by rw [hs]; simp [UDPSenderPc.alive])
      rw [held_of_running hrun, hs] at hp; cases hp
      have hacc := hst.2 p hs hw
      rw [hrej] at hacc; cases hacc
  exact ⟨hst.1.held_kept h hp hw, hw⟩

/-! ## The visitor -/

inductive SendResult
  | accepted
  | tooLarge
  | failed
  deriving DecidableEq

def conservativeXUDPDatagramPayloadLimit : Nat := 1150

def Kind.sendPacket (c : Encoding) : Kind → UDPPacket → Option SendResult
  | .p2p, p =>
    match encodeUDPPacketBinary (some p) with
    | .error _ => some .failed
    | .ok body => if body.length > conservativeXUDPDatagramPayloadLimit then some .tooLarge else none
  | .relay, p => if c.rejects p then some .failed else none

theorem Kind.sendPacket_ne_accepted (c : Encoding) (k : Kind) (p : UDPPacket) : k.sendPacket c p ≠ some .accepted := by
  unfold sendPacket
  cases k with
  | p2p =>
    cases h : encodeUDPPacketBinary (some p) with
    | error => simp [h]
    | ok => simp only [h]; split <;> simp
  | relay => simp only; split <;> simp

end

def Transport.attempts {α : Type*} (t : Transport α) (p : Packet α) : Prop :=
  t.main = .sendFirst ∧ t.pending = some p ∨ t.sender = .sending p

structure Attempt {α : Type*} (v : Visitor α) (ev : Event α) (v' : Visitor α) (t : Transport α) (p : Packet α)
    (r : SendResult) : Prop where
  attempts : t.attempts p
  step : ∃ k e, ev = .transport k e ∧ v.transports[k]? = some t ∧
    match r with
    | .accepted => e = .accept p
    | .tooLarge => e = .reject p
    | .failed => e = .silent ∧ ∀ t', v'.transports[k]? = some t' → ¬ t'.attempts p

def CodedStep [JSON] [V1Codec] (c : Encoding) (v : Visitor UDPPacket) (ev : Event UDPPacket) (v' : Visitor UDPPacket) :
    Prop :=
  Step v ev v' ∧ ∀ t p r, Attempt v ev v' t p r →
    match t.kind.sendPacket c p.body with
    | some x => r = x
    | none => t.kind = .relay → r ≠ .tooLarge

section
variable {α : Type*} {v v' : Visitor α} {t t' : Transport α} {p : Packet α} {k : Nat} {e : Effect α}

theorem Transport.Ok.held_of_attempts (hi : t.Ok) (h : t.attempts p) : t.held = [p] ∧ t.main ≠ .joined := by
  rcases h with ⟨hm, hp⟩ | hs
  · unfold Transport.Ok at hi
    simp only [hm] at hi
    simp [held, hm, hp, hi, SenderPc.held]
  · obtain ⟨hm, hp, hh⟩ := hi.sender_main (by simp [senderLive, hs])
    rcases hm with hm | hm | hm <;> simp [held, hm, hp, hh, hs, SenderPc.held]

theorem TStep.attempts_of_accept (h : TStep v t (.accept p) t') : t.attempts p := by
  cases h with
  | firstOk hm hp => exact .inl ⟨hm, hp⟩
  | sendOk hs => exact .inr hs

theorem TStep.attempts_of_reject (h : TStep v t (.reject p) t') : t.attempts p := by
  cases h with
  | firstTooLarge hm hp => exact .inl ⟨hm, hp⟩
  | sendTooLarge hs => exact .inr hs

theorem Visitor.Inv.held_attempted (hi : v.Inv) (ht : v.transports[k]? = some t) (ha : t.attempts p)
    (hst : TStep v t e t') : v.held = [p] ∧ ((v.apply e).setTransport k t').held = t'.held := by
  have hok := hi.ok k t ht
  obtain ⟨hheld, hj⟩ := hok.held_of_attempts ha
  have hc := hi.single k t ht hj
  refine ⟨(hi.held_some hc ht).trans hheld, ?_⟩
  have hi' := (Step.transport ht hst).inv hi
  have hses : ((v.apply e).setTransport k t').session = v.session := by cases e <;> rfl
  refine hi'.held_some (hses ▸ hc) ?_
  rw [Visitor.setTransport, Visitor.apply_transports]
  exact List.getElem?_set_self (List.getElem?_eq_some_iff.mp ht).1

theorem Step.accepted_or {ev : Event α} (h : Step v ev v') :
    v'.accepted = v.accepted ∧ v'.rejected = v.rejected ∨ ∃ t p r, Attempt v ev v' t p r ∧ r ≠ .failed := by
  cases h with
  | @transport k t e t' ht hst =>
    cases e with
    | silent | take | put => exact .inl ⟨rfl, rfl⟩
    | accept p => exact .inr ⟨t, p, .accepted, ⟨hst.attempts_of_accept, k, _, rfl, ht, rfl⟩, by simp⟩
    | reject p => exact .inr ⟨t, p, .tooLarge, ⟨hst.attempts_of_reject, k, _, rfl, ht, rfl⟩, by simp⟩
  | _ => exact .inl ⟨rfl, rfl⟩

end

section
variable [JSON] [V1Codec] {c : Encoding} {v v' : Visitor UDPPacket} {ev : Event UDPPacket} {p : Packet UDPPacket}

theorem CodedStep.attempt_held (hst : CodedStep c v ev v') (hi : v.Inv) {t : Transport UDPPacket} {r x : SendResult}
    (ha : Attempt v ev v' t p r) (hx : t.kind.sendPacket c p.body = some x) :
    v'.held = (if x = .failed then [p] else []) ∧ v'.accepted = v.accepted := by
  have hr := hst.2 t p r ha
  rw [hx] at hr
  subst hr
  obtain ⟨hat, k, e, rfl, ht, he⟩ := ha
  obtain ⟨hstep, -⟩ := hst
  cases hstep with
  | @transport _ u _ t' hu htst =>
    rw [ht] at hu; cases hu
    obtain ⟨hheld, hheld'⟩ := hi.held_attempted ht hat htst
    have hmv := htst.moves (hi.ok k t ht)
    rw [((hi.ok k t ht).held_of_attempts hat).1] at hmv
    cases r with
    | accepted => exact absurd hx (Kind.sendPacket_ne_accepted c t.kind p.body)
    | tooLarge => subst he; exact ⟨hheld'.trans hmv.2, rfl⟩
    | failed =>
      obtain ⟨rfl, -⟩ := he
      exact ⟨hheld'.trans hmv, rfl⟩

theorem CodedStep.keeps (hst : CodedStep c v ev v') (hi : v.Inv) (hrun : v.closing = .running) (hp : v.held = [p])
    (hrej : ∀ k : Kind, k.sendPacket c p.body = some .failed) :
    v'.held = [p] ∧ v'.accepted = v.accepted ∧ v'.rejected = v.rejected := by
  have hsame : v'.accepted = v.accepted ∧ v'.rejected = v.rejected := by
    rcases hst.1.accepted_or with h | ⟨t, q, r, ha, hr⟩
    · exact h
    · obtain ⟨hat, k, e, rfl, ht, -⟩ := id ha
      have hq : q = p := by
        obtain ⟨hstep, -⟩ := hst
        cases hstep with
        | transport hu htst =>
          rw [ht] at hu; cases hu
          have hheld := (hi.held_attempted ht hat htst).1
          rw [hp] at hheld; cases hheld
          rfl
      have hres := hst.2 t q r ha
      rw [hq, hrej t.kind] at hres; exact absurd hres hr
  refine ⟨?_, hsame⟩
  rcases hst.1.simulates hi hrun with hf | ⟨d, hd⟩
  · exact (congrArg Fifo.held hf).trans hp
  · generalize hg : v'.fifo = f at hd
    have hheld : v'.held = f.held := congrArg Fifo.held hg
    have hacc : v'.accepted = f.accepted := congrArg Fifo.accepted hg
    have hrejd : v'.rejected = f.rejected := congrArg Fifo.rejected hg
    rw [hheld]
    cases hd with
    | enqueue => exact hp
    | take hh => exact absurd (hp.symm.trans hh) (by simp)
    | accept => exact absurd (hsame.1.symm.trans hacc) (by simp [Visitor.fifo])
    | reject => exact absurd (hsame.2.symm.trans hrejd) (by simp [Visitor.fifo])

end

attribute [local simp] Transport.attempts Visitor.setTransport Visitor.apply Visitor.activate

section
variable [JSON] [V1Codec]

/-- A packet the encoding rejects stays pending for ever; only the P2P transport of the visitor
drops one, which is too large for a datagram. -/
theorem rejected_packet_pending (c : Encoding) (payload : Nat → UDPPacket) (t : TransportConfig) :
    (∀ s s' p, Reach (· = UDPWorld.init) (UDPCodedStep c payload t) s → s.held = [p] → c.rejects (payload p) = true →
      Reach (· = s) (UDPCodedStep c payload t) s' → s'.held = [p] ∧ s'.written = s.written) ∧
    (∀ v ev v' tr p r x, Reach Visitor.Init (CodedStep c) v → CodedStep c v ev v' → Attempt v ev v' tr p r →
      tr.kind.sendPacket c p.body = some x → v'.held = (if x = .failed then [p] else []) ∧ v'.accepted = v.accepted) ∧
    ∀ v v' p, Reach Visitor.Init (CodedStep c) v → v.held = [p] →
      (∀ k : Kind, k.sendPacket c p.body = some .failed) → Reach (· = v) (CodedStep c) v' → v'.closing = .running →
      v'.held = [p] ∧ v'.accepted = v.accepted := by
  have hinv : ∀ v, Reach Visitor.Init (CodedStep c) v → v.Inv := fun v h =>
    inv (h.mono fun _ _ _ hst => hst.1)
  refine ⟨fun s s' p hs hp hrej h => ?_, fun v ev v' tr p r x hv hst ha hx => hst.attempt_held (hinv v hv) ha hx, ?_⟩
  · have hi : s.Inv t := hs.invariant (fun _ h0 => h0 ▸ UDPWorld.Inv.init t) fun _ _ _ _ hi hst => hst.1.inv hi
    have hall : s'.Inv t ∧ s'.held = [p] ∧ s'.written = s.written := by
      refine h.invariant (I := fun s' => s'.Inv t ∧ s'.held = [p] ∧ s'.written = s.written) ?_ ?_
      · intro _ h0
        subst h0; exact ⟨hi, hp, rfl⟩
      · intro _ _ _ _ ⟨hi, hp, hw⟩ hst
        obtain ⟨hp', hw'⟩ := hst.keeps hi hp hrej
        exact ⟨hst.1.inv hi, hp', hw'.trans hw⟩
    exact hall.2
  · intro v v' p hv hp hrej h
    have hall : v'.Inv ∧ (v'.closing = .running → v'.held = [p] ∧ v'.accepted = v.accepted) := by
      refine h.invariant
        (I := fun v' => v'.Inv ∧ (v'.closing = .running → v'.held = [p] ∧ v'.accepted = v.accepted)) ?_ ?_
      · intro _ h0
        subst h0; exact ⟨hinv _ hv, fun _ => ⟨hp, rfl⟩⟩
      · intro _ _ _ _ ⟨hi, ih⟩ hst
        refine ⟨hst.1.inv hi, fun hrun => ?_⟩
        have hold := hst.1.running hrun
        obtain ⟨hp, hacc⟩ := ih hold
        obtain ⟨hp', hacc', -⟩ := hst.keeps hi hold hp hrej
        exact ⟨hp', hacc'.trans hacc⟩
    exact hall.2

/-! ## A datagram from a link-local address -/

variable {payload : Nat → UDPPacket} {c : Encoding} {t : TransportConfig}

theorem UDPCodedStep.of_unwritten {s s' : UDPWorld}
    {e : UDPEvent} (hst : UDPStep t s e s') (hw : s'.written = s.written) : UDPCodedStep c payload t s e s' := by
  refine ⟨hst, fun p _ hp => ?_⟩
  rw [hw] at hp; simp at hp

theorem CodedStep.of_unsent {v v' : Visitor UDPPacket} {ev : Event UDPPacket} (hst : Step v ev v')
    (hacc : v'.accepted = v.accepted) (hrej : v'.rejected = v.rejected)
    (hbody : ∀ t ∈ v.transports, ∀ p, t.attempts p → t.kind.sendPacket c p.body = some .failed) :
    CodedStep c v ev v' := by
  refine ⟨hst, fun t p r ha => ?_⟩
  obtain ⟨hat, k, e, rfl, ht, he⟩ := ha
  rw [hbody t (List.mem_of_getElem? ht) p hat]
  cases hst with
  | transport =>
    cases r with
    | failed => rfl
    | accepted => subst he; simp at hacc
    | tooLarge => subst he; simp at hrej

theorem UDPWorld.coded_of_unwritten {s : UDPWorld}
    (h : Reach (· = init) (UDPStep t) s) (hw : s.written = []) : Reach (· = init) (UDPCodedStep c payload t) s := by
  induction h with
  | start h0 => exact .start h0
  | next _ hst ih =>
    have hold := hst.unwritten hw
    exact (ih hold).next (.of_unwritten hst (hw.trans hold.symm))

theorem coded_server_run (c : Encoding) (payload : Nat → UDPPacket) :
    ∃ s, Reach (· = init) (UDPCodedStep c payload ⟨false, false, false⟩) s ∧ s.disp = .starting ∧ s.gen = 1 ∧
      s.pendingPacket = some 0 ∧ s.sendCh = [1] := by
  obtain ⟨s, h, hd, hg, hp, hq, hw, -⟩ := reconnected 0 1
  exact ⟨s, coded_of_unwritten h hw, hd, hg, hp, hq⟩

theorem coded_visitor_first (c : Encoding) (b b' : UDPPacket) :
    ∃ v t, Reach Visitor.Init (CodedStep c) v ∧ v.closing = .running ∧ v.sendCh = [⟨1, b'⟩] ∧ v.session = .runP2P 0 ∧
      v.transports = [t] ∧ t.kind = .p2p ∧ t.main = .sendFirst ∧ t.pending = some ⟨0, b⟩ ∧ t.sender = .off := by
  have h := (.start rfl : Reach Visitor.Init (CodedStep c) {})
    |>.next (.of_unsent (@Step.enqueue UDPPacket _ b (by decide)) rfl rfl (by simp))
    |>.next (.of_unsent (@Step.enqueue UDPPacket _ b' (by simp [chanCap])) rfl rfl (by simp))
    |>.next (.of_unsent (.first rfl rfl) rfl rfl (by simp))
    |>.next (.of_unsent (.beginSession rfl) rfl rfl (by simp))
    |>.next (.of_unsent (.topDial rfl (by simp)) rfl rfl (by simp))
    |>.next (.of_unsent (.dialMore rfl .snapshot) rfl rfl (by simp))
    |>.next (.of_unsent (.dialMore rfl (.prepare rfl)) rfl rfl (by simp))
    |>.next (.of_unsent (.dialMore rfl (.punch rfl)) rfl rfl (by simp))
    |>.next (.of_unsent (.dialMore rfl (.handshake rfl)) rfl rfl (by simp))
    |>.next (.of_unsent (.dialConn rfl .dialOk) rfl rfl (by simp))
    |>.next (.of_unsent (.activateP2P rfl rfl) rfl rfl (by simp))
    |>.next (.of_unsent (.transport (k := 0) rfl (.register rfl rfl)) rfl rfl
      (by simp))
    |>.next (.of_unsent (.transport (k := 0) rfl (.firstGen rfl rfl)) rfl rfl
      (by simp [afterRegister]))
    |>.next (.of_unsent (.transport (k := 0) rfl (.firstEpoch rfl rfl)) rfl rfl
      (by simp))
  exact ⟨_, _, h, rfl, rfl, rfl, rfl, rfl, rfl, rfl, rfl⟩

theorem coded_visitor_run (c : Encoding) (b b' : UDPPacket) (hb : ∀ k : Kind, k.sendPacket c b = some .failed) :
    ∃ v, Reach Visitor.Init (CodedStep c) v ∧ v.closing = .running ∧ v.sendCh = [⟨1, b'⟩] ∧
      ∃ t u, v.transports = [t, u] ∧ t.kind = .p2p ∧ t.main = .joined ∧ u.kind = .relay ∧ u.pending = some ⟨0, b⟩ := by
  obtain ⟨v, t, h, hrun, hq, hses, ht, hkind, hm, hp, hs⟩ := coded_visitor_first c b b'
  have hidle : ∀ t : Transport UDPPacket, t.main ≠ .sendFirst → t.sender = .off →
      ∀ p, t.attempts p → t.kind.sendPacket c p.body = some .failed := by
    intro t hm hs p hp; simp [hm, hs] at hp
  have hfail : ∀ t' ∈ v.transports, ∀ p, t'.attempts p → t'.kind.sendPacket c p.body = some .failed := by
    rw [ht]
    refine List.forall_mem_singleton.mpr fun p hat => ?_
    obtain ⟨-, hp'⟩ : t.main = .sendFirst ∧ t.pending = some p := by simpa [hs] using hat
    cases hp.symm.trans hp'
    exact hb t.kind
  cases v
  cases t
  subst hrun hq hses ht hkind hm hp hs
  have hopen : ClosePc.running ≠ .closed := by decide
  have h := h
    |>.next (.of_unsent (.transport (k := 0) rfl (.firstErr rfl rfl)) rfl rfl hfail)
    |>.next (.of_unsent (.p2pEnded rfl rfl rfl) rfl rfl
      (List.forall_mem_singleton.mpr (hidle _ (by simp [ret]) rfl)))
    |>.next (.of_unsent (.afterRelay rfl hopen) rfl rfl
      (List.forall_mem_singleton.mpr (hidle _ (by simp) rfl)))
  have hgen := (inv (h.mono fun _ _ _ hst => hst.1)).generation trivial
  have h := h.next (.of_unsent (.relayPhase rfl hgen) rfl rfl
    (List.forall_mem_singleton.mpr (hidle _ (by simp) rfl)))
  have hgen := (inv (h.mono fun _ _ _ hst => hst.1)).generation trivial
  obtain ⟨e, he⟩ := Option.isSome_iff_exists.mp (Machine.beginTransport_isSome.mpr hgen)
  have h := h.next (.of_unsent (.activateRelay rfl he) rfl rfl
    (List.forall_mem_singleton.mpr (hidle _ (by simp) rfl)))
  exact ⟨_, h, rfl, rfl, _, _, rfl, rfl, rfl, rfl, rfl⟩

end

theorem encode_frameLimit {content : Str} {remote : UDPAddr} {addr : BinaryUDPAddr}
    (hc : content.length ≤ maxUDPPayloadSize) (ha : validateBinaryUDPAddr remote = .ok addr)
    (hl : 2 + (1 + 2 + content.length + 0 + binaryUDPAddrLen addr) > defaultMaxFramePayloadSize) :
    encodeUDPPacketBinary (some ⟨content, none, some remote⟩) =
      .fail (.frameLimit (2 + (1 + 2 + content.length + 0 + binaryUDPAddrLen addr))) := by
  simp only [encodeUDPPacketBinary, encodeLocalAddr, ha, Checked.wrap, bind, Except.bind]
  rw [if_neg (Nat.not_lt.mpr hc), if_pos hl]

def linkLocalPacket : UDPPacket :=
  ⟨List.replicate 65507 0, none, some ⟨[0xfe, 0x80] ++ List.replicate 13 0 ++ [1], 40000, lit "wlan0"⟩⟩

theorem linkLocalPacket_encode : ∃ e, encodeUDPPacketBinary (some linkLocalPacket) = .error e := by
  have haddr : validateBinaryUDPAddr ⟨[0xfe, 0x80] ++ List.replicate 13 0 ++ [1], 40000, lit "wlan0"⟩ =
      .ok ⟨6, [0xfe, 0x80] ++ List.replicate 13 0 ++ [1], 40000, lit "wlan0"⟩ := by rfl
  have hlen : binaryUDPAddrLen ⟨6, [0xfe, 0x80] ++ List.replicate 13 0 ++ [1], 40000, lit "wlan0"⟩ = 25 := by decide
  refine ⟨_, encode_frameLimit ?_ haddr ?_⟩
  · rw [List.length_replicate]; exact Nat.le_refl _
  · rw [List.length_replicate, hlen]; decide

section
variable [JSON] [V1Codec]

theorem rejected_of_encode {p : UDPPacket} (h : ∃ e, encodeUDPPacketBinary (some p) = .error e) :
    rejects .v2Binary p = true ∧ ∀ k : Kind, k.sendPacket .v2Binary p = some .failed := by
  obtain ⟨e, he⟩ := h
  have hrej : rejects .v2Binary p = true := by
    simp [rejects, writeMsg, V2BinaryUDPPacketReadWriter.writeMsg,
      V2BinaryUDPPacketReadWriter.writePacket, he]
  refine ⟨hrej, fun k => ?_⟩
  cases k with
  | p2p => simp [Kind.sendPacket, he]
  | relay => simp [Kind.sendPacket, hrej]

end

section
attribute [local instance] JSON.samples V1Codec.framed

theorem rejected_packet_kept :
    Encoding.rejects .v2Binary linkLocalPacket = true ∧
      (∃ s, Reach (· = UDPWorld.init) (UDPCodedStep .v2Binary (fun _ => linkLocalPacket) ⟨false, false, false⟩) s ∧
        s.disp = .starting ∧ s.gen = 1 ∧ s.pendingPacket = some 0 ∧ s.sendCh = [1]) ∧
      ∃ v, Reach Visitor.Init (CodedStep .v2Binary) v ∧ v.closing = .running ∧ v.sendCh = [⟨1, ⟨[], none, none⟩⟩] ∧
        ∃ t u, v.transports = [t, u] ∧ t.kind = .p2p ∧ t.main = .joined ∧ u.kind = .relay ∧
          u.pending = some ⟨0, linkLocalPacket⟩ :=
  have hrej := rejected_of_encode linkLocalPacket_encode
  ⟨hrej.1, coded_server_run .v2Binary _, coded_visitor_run .v2Binary linkLocalPacket ⟨[], none, none⟩ hrej.2⟩

theorem rejected_packet_pending_link_local :
    ∃ s, Reach (· = UDPWorld.init) (UDPCodedStep .v2Binary (fun _ => linkLocalPacket) ⟨false, false, false⟩) s ∧
      s.sendCh = [1] ∧ ∀ s', Reach (· = s)
        (UDPCodedStep .v2Binary (fun _ => linkLocalPacket) ⟨false, false, false⟩) s' →
        s'.held = [0] ∧ s'.written = s.written := by
  obtain ⟨s, h, hd, -, hp, hq⟩ := coded_server_run .v2Binary fun _ => linkLocalPacket
  have hheld : s.held = [0] := by simp [UDPWorld.held, hd, UDPDispatcherPc.running, hp]
  have hrej := (rejected_of_encode linkLocalPacket_encode).1
  exact ⟨s, h, hq, fun s' h' => (rejected_packet_pending .v2Binary _ _).1 s s' 0 h hheld hrej h'⟩

end

end Frp
