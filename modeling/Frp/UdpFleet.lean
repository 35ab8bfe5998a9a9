import Frp.Slots
import Frp.UdpProxySound

/-!
# The workers of all connections

`UDPWorld` has the reader and the sender of the latest work connection. Here the workers of
the earlier ones stay beside it, with a record of what was enqueued and of whose reader sent
the token in `reconnectCh`.
-/

namespace Frp

structure UDPWorkers where
  reader : UDPReaderPc := .exited
  sender : UDPSenderPc := .exited none
  ctxDone : Bool := false

/-- `serving` is the connection whose workers are in `world`. -/
structure UDPFleet where
  world : UDPWorld := .init
  serving : Nat := 0
  earlier : Nat → UDPWorkers := fun _ => {}
  enqueued : List Nat := []
  token : Option Nat := none

namespace UDPFleet

def workers (s : UDPFleet) : UDPWorkers := ⟨s.world.reader, s.world.sender, s.world.ctxDone⟩

def sender (s : UDPFleet) (g : Nat) : UDPSenderPc := if g = s.serving then s.world.sender else (s.earlier g).sender

def seenBy (s : UDPFleet) (g : Nat) : UDPWorld :=
  { s.world with
    gen := g, reader := (s.earlier g).reader, sender := (s.earlier g).sender, ctxDone := (s.earlier g).ctxDone }

def observe (s : UDPFleet) (g : Nat) (e : UDPEvent) (w : UDPWorld) : UDPFleet :=
  { s with
    world := w
    enqueued := if e = .user then s.enqueued ++ w.sendCh.drop s.world.sendCh.length else s.enqueued
    token := if s.world.reconnectCh = false ∧ w.reconnectCh = true then some g else s.token }

def observeEarlier (s : UDPFleet) (g : Nat) (e : UDPEvent) (w : UDPWorld) : UDPFleet :=
  { s.observe g e
      { w with gen := s.world.gen, reader := s.world.reader, sender := s.world.sender, ctxDone := s.world.ctxDone } with
    earlier := Function.update s.earlier g ⟨w.reader, w.sender, w.ctxDone⟩ }

end UDPFleet

open UDPFleet in
inductive UDPFleetStep (t : TransportConfig) : UDPFleet → UDPEvent → UDPFleet → Prop
  | start {s w} : s.world.disp = .starting → UDPStep t s.world .dispatcher w →
      UDPFleetStep t s .dispatcher
        { s.observe s.serving .dispatcher w with
          serving := s.world.gen, earlier := Function.update s.earlier s.serving s.workers }
  | step {s e w} : s.world.disp ≠ .starting ∨ e ≠ .dispatcher → UDPStep t s.world e w →
      UDPFleetStep t s e (s.observe s.serving e w)
  -- a worker changes nothing of the dispatcher
  | earlier {s e w} (g : Nat) : g ≠ s.serving → e = .reader ∨ e = .sender ∨ e = .network →
      UDPStep t (s.seenBy g) e w → w.disp = s.world.disp → UDPFleetStep t s e (s.observeEarlier g e w)

/-! ## The packets -/

def UDPSenderPc.held : UDPSenderPc → List Nat
  | picking => []
  | checking p | writing p | closing p => [p]
  | exited r => r.toList

def UDPSenderPc.alive (p : UDPSenderPc) : Prop := ∀ r, p ≠ .exited r

def UDPWorld.held (s : UDPWorld) : List Nat :=
  if s.disp.running then s.sender.held else s.pendingPacket.toList

attribute [local simp] UDPSenderPc.held

namespace UDPWorld

variable {t : TransportConfig} {s s' : UDPWorld}

theorem held_length_le (s : UDPWorld) : s.held.length ≤ 1 := by
  unfold held
  split
  · cases h : s.sender with
    | exited r => cases r <;> simp
    | _ => simp
  · cases s.pendingPacket <;> simp

theorem held_of_running (h : s.disp.running = true) : s.held = s.sender.held := if_pos h

theorem held_of_idle (h : s.disp.running = false) : s.held = s.pendingPacket.toList := by
  unfold held
  rw [h]; rfl

theorem Inv.running_of_sender (h : s.Inv t) (hs : s.sender.alive) : s.disp.running = true := by
  by_contra hd
  obtain ⟨r, hr⟩ := (h.idle (by simpa using hd)).2
  exact hs r hr

def packets (s : UDPWorld) : List Nat := s.written ++ s.held ++ s.sendCh

theorem packets_of_sender (h : s.Inv t) (hs : s.sender.alive) (hd : s'.disp = s.disp)
    (heq : s'.written ++ s'.sender.held ++ s'.sendCh = s.written ++ s.sender.held ++ s.sendCh) :
    s'.packets = s.packets := by
  have hr := h.running_of_sender hs
  rw [packets, packets, held_of_running hr, held_of_running (by rw [hd]; exact hr), heq]

theorem packets_same (hw : s'.written = s.written) (hq : s'.sendCh = s.sendCh) (hs : s'.sender = s.sender)
    (hp : s'.pendingPacket = s.pendingPacket) (hd : s'.disp.running = s.disp.running) : s'.packets = s.packets := by
  rw [packets, packets, held, held, hw, hq, hs, hp, hd]

end UDPWorld

open UDPWorld

section
variable {t : TransportConfig} {s s' : UDPWorld} {e : UDPEvent}

theorem UDPStep.packets_user (hst : UDPStep t s .user s') :
    s'.packets = s.packets ++ s'.sendCh.drop s.sendCh.length := by
  cases hst with
  | enqueue => rw [List.drop_left]; exact (List.append_assoc ..).symm
  | respond | forwardEnds =>
    rw [List.drop_length, List.append_nil]; exact packets_same rfl rfl rfl rfl rfl

def UDPWorld.TokenPlace (s : UDPWorld) : Prop :=
  s.reconnectCh = true → s.disp.running = true ∨ s.done = true ∧ (s.disp = .top ∨ s.disp = .exited)

theorem UDPWorld.TokenPlace.empty (h : s.TokenPlace) (hr : s.disp.running = false)
    (hd : s.done = false ∨ s.disp ≠ .top ∧ s.disp ≠ .exited) : s.reconnectCh = false := by
  by_contra htok
  rcases h (by simpa using htok) with hrun | ⟨hdone, hpos⟩
  · rw [hr] at hrun; cases hrun
  · rcases hd with hd | hd
    · rw [hd] at hdone; cases hdone
    · exact hpos.elim hd.1 hd.2

theorem UDPWorld.TokenPlace.of_empty (h : s.reconnectCh = false) : s.TokenPlace := by
  intro htok
  rw [h] at htok; cases htok

namespace UDPStep

variable (hst : UDPStep t s e s')
include hst

theorem packets_kept (h : s.Inv t) (he : e ≠ .user) : s'.packets = s.packets := by
  cases hst with
  | slept hd | retried hd | sleepDone hd | topDone hd | request hd | requestDone hd | requestFailed hd | requestGot hd
  | retryDone hd | encryptionError hd | build hd | codecError hd | replaceClosed hd | replace hd | reconnect hd
  | selectDone hd | cancel hd | closeConn hd => exact packets_same rfl rfl rfl rfl (hd ▸ rfl)
  | @closeOld old hd => cases old <;> exact packets_same rfl rfl rfl rfl (hd ▸ rfl)
  | start hd =>
    have hidle : s.held = s.pendingPacket.toList := held_of_idle (hd ▸ rfl)
    simp only [packets, hidle]
    cases s.pendingPacket <;> rfl
  | @join shuttingDown result hd hr hs =>
    have hrun : s.held = s.sender.held := held_of_running (hd ▸ rfl)
    simp only [packets, hrun, hs]
    cases shuttingDown <;> rfl
  | ping | receive | readError | readClosed | deliver | deliverDone | leave | readerClose | notify | notifyDone
  | shutdown | shutdownUDP => exact packets_same rfl rfl rfl rfl rfl
  | @shutdownConn workConn => cases workConn <;> exact packets_same rfl rfl rfl rfl rfl
  | pick hs hq => exact packets_of_sender h (by simp [hs, UDPSenderPc.alive]) rfl (by simp [hs, hq])
  | pickDone hs | checkDone hs | check hs | write hs | writeError hs | writeClosed hs | senderClose hs =>
    exact packets_of_sender h (by simp [hs, UDPSenderPc.alive]) rfl (by simp [hs, closeStream])
  | enqueue | respond | forwardEnds => exact absurd rfl he

theorem unwritten (hw : s'.written = []) : s.written = [] := by
  cases hst with
  | write => simp at hw
  | @closeOld old | @shutdownConn old => cases old <;> exact hw
  | _ => exact hw

/-! ## The token -/

theorem tokenPlace (hi : s.Inv t) (h : s.TokenPlace) : s'.TokenPlace := by
  cases hst with
  | slept hd | retried hd | sleepDone hd | requestDone hd | requestFailed hd | requestGot hd | retryDone hd
  | encryptionError hd | build hd | codecError hd | replaceClosed hd | replace hd | start hd =>
    exact .of_empty (h.empty (hd ▸ rfl) (.inr (by simp [hd])))
  | @closeOld old hd =>
    have hempty := h.empty (hd ▸ rfl) (.inr (by simp [hd]))
    cases old <;> exact .of_empty hempty
  | topDone hd hdone => exact fun _ => .inr ⟨hdone, .inr rfl⟩
  | request hd hdone => exact .of_empty (h.empty (hd ▸ rfl) (.inl hdone))
  | reconnect => exact .of_empty rfl
  | selectDone | cancel | closeConn => exact fun _ => .inl rfl
  | @join shuttingDown result hd =>
    intro htok
    have hdone := hi.done_of_token (by rw [hd]; simp) htok
    cases shuttingDown
    · exact .inr ⟨hdone, .inl rfl⟩
    · exact .inr ⟨hdone, .inr rfl⟩
  | notify hr => exact fun _ => .inl (hi.running_of_reader (by rw [hr]; simp))
  | shutdown => exact fun htok => (h htok).imp_right fun hp => ⟨rfl, hp.2⟩
  | @shutdownConn workConn => cases workConn <;> exact h
  | _ => exact h

theorem token_sent (hi : s.Inv t) (h : s.reconnectCh = false)
    (h' : s'.reconnectCh = true) : e = .reader ∧ s.disp.running = true := by
  cases hst with
  | notify hr => exact ⟨rfl, hi.running_of_reader (by rw [hr]; simp)⟩
  | reconnect => cases h'
  | @closeOld old | @shutdownConn old => cases old <;> exact absurd (h.symm.trans h') (by simp)
  | _ => exact absurd (h.symm.trans h') (by simp)

theorem token_taken (h : s.reconnectCh = true) (h' : s'.reconnectCh = false) : s.disp = .selecting := by
  cases hst with
  | reconnect hd => exact hd
  | notify _ hempty => exact absurd (hempty.symm.trans h) (by simp)
  | @closeOld old | @shutdownConn old => cases old <;> exact absurd (h.symm.trans h') (by simp)
  | _ => exact absurd (h.symm.trans h') (by simp)

theorem not_joined (he : e = .reader ∨ e = .sender ∨ e = .network) (hd : s'.disp = s.disp) : ¬ s.Joined := by
  intro ⟨hr, r, hs⟩
  cases hst with
  | slept h | retried h | requestFailed h | requestGot h => rw [h] at hd; cases hd
  | ping h | receive _ h | readError h | readClosed h | deliver h | deliverDone h | leave h | readerClose h | notify h
  | notifyDone h => rw [hr] at h; cases h
  | pick h | pickDone h | checkDone h | check h | write h | writeError h | writeClosed h | senderClose h =>
    rw [hs] at h; cases h
  | _ => simp at he

theorem running_kept (hd : s.disp ≠ .starting ∨ e ≠ .dispatcher)
    (h : s'.disp.running = true) : s.disp.running = true ∧ s'.gen = s.gen := by
  cases hst with
  | @closeOld old => cases old <;> cases h
  | @shutdownConn old => cases old <;> exact ⟨h, rfl⟩
  | start hp => simp [hp] at hd
  | @join b => cases b <;> cases h
  | reconnect hp | selectDone hp | cancel hp | closeConn hp => exact ⟨by rw [hp]; rfl, rfl⟩
  | ping | enqueue | respond | forwardEnds | shutdown | shutdownUDP | receive | readError | readClosed | deliver
  | deliverDone | leave | readerClose | notify | notifyDone | pick | pickDone | checkDone | check | write | writeError
  | writeClosed | senderClose => exact ⟨h, rfl⟩
  | _ => cases h

end UDPStep

end

/-! ## All connections -/

def UDPWorkers.Ended (w : UDPWorkers) : Prop := w.reader = .exited ∧ ∃ r, w.sender = .exited r

namespace UDPFleet

variable {t : TransportConfig} {s : UDPFleet} {e : UDPEvent}

structure Inv (t : TransportConfig) (s : UDPFleet) : Prop where
  world : s.world.Inv t
  place : s.world.TokenPlace
  ended : ∀ g, (s.earlier g).Ended
  serving : s.world.disp.running = true → s.serving = s.world.gen
  token : s.world.reconnectCh = true → s.token = some s.serving
  packets : s.world.packets = s.enqueued

theorem Inv.init (t : TransportConfig) : ({} : UDPFleet).Inv t where
  world := UDPWorld.Inv.init t
  place := .of_empty rfl
  ended _ := ⟨rfl, none, rfl⟩
  serving h := by cases h
  token h := by cases h
  packets := rfl

variable {w : UDPWorld}

theorem Inv.not_earlier (h : s.Inv t) {g : Nat} (he : e = .reader ∨ e = .sender ∨ e = .network)
    (hst : UDPStep t (s.seenBy g) e w) (hd : w.disp = s.world.disp) : False :=
  hst.not_joined he hd (h.ended g)

theorem Inv.observe_packets (h : s.Inv t) (g : Nat) (hst : UDPStep t s.world e w) :
    w.packets = (s.observe g e w).enqueued := by
  by_cases he : e = .user
  · subst he; simp [observe, hst.packets_user, h.packets]
  · simp [observe, he, hst.packets_kept h.world he, h.packets]

theorem Inv.observe_token (h : s.Inv t) (htok : w.reconnectCh = true) :
    (s.observe s.serving e w).token = some s.serving := by
  unfold observe
  by_cases hold : s.world.reconnectCh = true
  · simp [hold, h.token hold]
  · simp [hold, htok]

end UDPFleet

open UDPFleet

variable {t : TransportConfig} {s s' : UDPFleet} {e : UDPEvent}

theorem UDPFleetStep.inv (hst : UDPFleetStep t s e s') (h : s.Inv t) : s'.Inv t := by
  cases hst with
  | @start w hd hw =>
    have hempty : w.reconnectCh = false := by
      have hold := h.place.empty (hd ▸ rfl) (.inr (by simp [hd]))
      by_contra htok
      have hrun := (hw.token_sent h.world hold (by simpa using htok)).1
      cases hrun
    refine ⟨hw.inv h.world, hw.tokenPlace h.world h.place, ?_, ?_, ?_, h.observe_packets s.serving hw⟩
    · intro g; exact update_keeps UDPWorkers.Ended (h.ended g) fun _ => h.world.idle (hd ▸ rfl)
    · intro hrun
      cases hw with
      | start => rfl
      | _ => simp_all
    · intro htok; exact absurd (hempty.symm.trans htok) (by simp)
  | @step _ w hd hw =>
    refine ⟨hw.inv h.world, hw.tokenPlace h.world h.place, h.ended, ?_, h.observe_token, h.observe_packets s.serving hw⟩
    intro hrun
    obtain ⟨hrun, hgen⟩ := hw.running_kept hd hrun
    exact (h.serving hrun).trans hgen.symm
  | earlier g _ he hw hd => exact (h.not_earlier he hw hd).elim

theorem UDPFleet.reach_inv (h : Reach (· = {}) (UDPFleetStep t) s) : s.Inv t :=
  h.invariant (fun _ h0 => h0 ▸ Inv.init t) fun _ _ _ _ hi hst => hst.inv hi

theorem UDPFleet.Inv.sender_alive (h : s.Inv t) {g : Nat} (ha : (s.sender g).alive) : g = s.serving := by
  by_contra hg
  obtain ⟨_, r, hr⟩ := h.ended g
  unfold UDPFleet.sender at ha
  rw [if_neg hg] at ha; exact ha r hr

/-- What was written, what is held and what is in the channel are the packets in their order; there is
one sender, and a token comes from the reader of the present connection. -/
theorem udp_proxy_fifo (h : Reach (· = {}) (UDPFleetStep t) s) :
    s.world.written ++ s.world.held ++ s.world.sendCh = s.enqueued ∧ s.world.held.length ≤ 1 ∧
      (∀ g g', (s.sender g).alive → (s.sender g').alive → g = g') ∧
      ∀ e s', UDPFleetStep t s e s' → s.world.reconnectCh = true → s'.world.reconnectCh = false →
        s.world.disp = .selecting ∧ s.token = some s.world.gen := by
  have hi := reach_inv h
  refine ⟨hi.packets, s.world.held_length_le, fun g g' hg hg' => ?_, fun e s' hst htok htok' => ?_⟩
  · exact (hi.sender_alive hg).trans (hi.sender_alive hg').symm
  · have hsel : s.world.disp = .selecting := by
      cases hst with
      | start _ hw | step _ hw => exact hw.token_taken htok htok'
      | earlier g _ he hw hd => exact (hi.not_earlier he hw hd).elim
    refine ⟨hsel, ?_⟩
    rw [hi.token htok, hi.serving (hsel ▸ rfl)]

theorem UDPFleet.of_world {w : UDPWorld} (h : Reach (· = UDPWorld.init) (UDPStep t) w) :
    ∃ s, Reach (· = {}) (UDPFleetStep t) s ∧ s.world = w := by
  induction h with
  | start h0 => exact ⟨{}, .start rfl, h0.symm⟩
  | @next w e w' _ hst ih =>
    obtain ⟨s, hs, rfl⟩ := ih
    by_cases hd : s.world.disp = .starting ∧ e = .dispatcher
    · obtain ⟨hd, rfl⟩ := hd
      exact ⟨_, hs.next (.start hd hst), rfl⟩
    · exact ⟨_, hs.next (.step (not_and_or.mp hd) hst), rfl⟩

theorem udp_proxy_fifo_reconnect :
    ∃ s, Reach (· = {}) (UDPFleetStep ⟨false, false, false⟩) s ∧ s.world.gen = 1 ∧ s.enqueued = [7, 8] ∧
      s.world.written = [7] ∧ s.world.written ++ s.world.held ++ s.world.sendCh = s.enqueued := by
  obtain ⟨w, h, hd, hg, hp, hq, hw, hdone, hopen⟩ := UDPWorld.reconnected 7 8
  cases w
  subst hd hg hp hq hw hdone
  have h := h
    |>.next (.start rfl)
    |>.next (.check rfl rfl rfl)
    |>.next (.write rfl hopen)
  obtain ⟨s, hs, hworld⟩ := UDPFleet.of_world h
  have hfifo := (udp_proxy_fifo hs).1
  refine ⟨s, hs, by rw [hworld], ?_, by rw [hworld]; rfl, hfifo⟩
  rw [← hfifo, hworld]; rfl

end Frp
