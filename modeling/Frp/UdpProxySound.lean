import Frp.UdpProxy
import Frp.WorkStreamSound

/-!
# The join of the reader and the sender

Without a limiter the connection is closed when the dispatcher waits for its two workers,
and each of them has a way to its end that nothing can take away.
-/

namespace Frp

open Function UDPDispatcherPc UDPEvent

/-! ## Where the dispatcher is -/

namespace UDPDispatcherPc

def running : UDPDispatcherPc → Bool
  | selecting | cancelling _ | closing _ | joining _ => true
  | _ => false

def ending : UDPDispatcherPc → Bool
  | cancelling _ | closing _ | joining _ => true
  | _ => false

def cancelled : UDPDispatcherPc → Bool
  | closing _ | joining _ => true
  | _ => false

def hasStream : UDPDispatcherPc → Bool
  | wrapped | replaced _ | starting | selecting | cancelling _ | closing _ | joining _ => true
  | _ => false

variable {p : UDPDispatcherPc}

theorem running_of_ending (h : p.ending = true) : p.running = true := by
  cases p <;> first | rfl | cases h

theorem ending_of_cancelled (h : p.cancelled = true) : p.ending = true := by
  cases p <;> first | rfl | cases h

theorem selecting_of_running (h : p.running = true) (he : p.ending ≠ true) : p = selecting := by
  cases p <;> first | rfl | exact absurd rfl he | cases h

end UDPDispatcherPc

namespace UDPWorld

variable {t : TransportConfig} {s s' : UDPWorld}

@[simp] theorem closeStream_reader (s : UDPWorld) (g : Nat) : (s.closeStream g).reader = s.reader := rfl

@[simp] theorem closeStream_sender (s : UDPWorld) (g : Nat) : (s.closeStream g).sender = s.sender := rfl

theorem connClosed_closeStream {g : Nat} (h : s.connClosed g = true) (g' : Nat) :
    (s.closeStream g').connClosed g = true := by
  unfold connClosed closeStream at *
  by_cases hg : g = g'
  · subst hg
    have hle := (s.streams g).closeTop_closes_le
    simp only [decide_eq_true_eq] at h ⊢
    rw [update_self]; omega
  · simpa [update_of_ne hg] using h

def Streams (t : TransportConfig) (s : UDPWorld) : Prop :=
  ∀ g < s.next, ∃ n, s.streams g = (udpPayloadConn t).closeTimes n

theorem Streams.closeStream (h : s.Streams t) (g : Nat) : (s.closeStream g).Streams t := by
  intro g' hg'
  obtain ⟨n, hn⟩ := h g' hg'
  by_cases hg : g' = g
  · subst hg
    refine ⟨n + 1, ?_⟩
    show update s.streams g' (s.streams g').closeTop g' = _
    rw [update_self, hn]; rfl
  · refine ⟨n, ?_⟩
    show update s.streams g (s.streams g).closeTop g' = _
    rw [update_of_ne hg, hn]

theorem Streams.connClosed_self (h : s.Streams t) (ht : t.limiter = false) {g : Nat} (hg : g < s.next) :
    (s.closeStream g).connClosed g = true := by
  obtain ⟨n, hn⟩ := h g hg
  have hpos := (StreamSite.closeTimes_pos_iff .udp t n).mpr ht
  unfold connClosed UDPWorld.closeStream
  simp only [update_self, decide_eq_true_eq, hn]; exact hpos

structure Inv (t : TransportConfig) (s : UDPWorld) : Prop where
  streams : s.Streams t
  gen : s.disp.hasStream = true → s.gen < s.next
  idle : s.disp.running = false → s.reader = .exited ∧ ∃ r, s.sender = .exited r
  token : s.reconnectCh = true → s.done = true ∨ s.disp = .selecting ∧ s.reader = .exited
  ended : s.disp.ending = true → s.done = true ∨ s.reader = .exited
  cancelled : s.disp.cancelled = true → s.ctxDone = true
  closed : t.limiter = false → ∀ b, s.disp = .joining b → s.connClosed s.gen = true

theorem Inv.init (t : TransportConfig) : UDPWorld.init.Inv t where
  streams g hg := by cases hg
  gen h := by cases h
  idle _ := ⟨rfl, none, rfl⟩
  token h := by cases h
  ended h := by cases h
  cancelled h := by cases h
  closed _ b h := by cases h

namespace Inv

variable (h : s.Inv t)
include h

theorem done_of_token (hd : s.disp ≠ .selecting) (htok : s.reconnectCh = true) : s.done = true :=
  (h.token htok).resolve_right fun hsel => hd hsel.1

theorem running_of_reader (hr : s.reader ≠ .exited) : s.disp.running = true := by
  by_contra hd
  exact hr (h.idle (by simpa using hd)).1

theorem outside (hold : s.disp.running = false) (hnew : s'.disp.running = false)
    (hstreams : s'.Streams t) (hg : s'.disp.hasStream = true → s'.gen < s'.next) (hr : s'.reader = s.reader)
    (hs : s'.sender = s.sender) (htoken : s'.reconnectCh = s.reconnectCh) (hdone : s'.done = s.done) : s'.Inv t := by
  have hnot : s'.disp.ending = true → False := by
    intro hb
    rw [running_of_ending hb] at hnew; cases hnew
  refine ⟨hstreams, hg, ?_, ?_, fun he => (hnot he).elim,
    fun hc => (hnot (ending_of_cancelled hc)).elim, ?_⟩
  · intro _
    rw [hr, hs]; exact h.idle hold
  · intro htok
    rw [htoken] at htok
    refine .inl (hdone ▸ h.done_of_token (fun hsel => ?_) htok)
    rw [hsel] at hold; cases hold
  · intro _ b hb
    rw [hb] at hnew; cases hnew

variable (hd : s'.disp = s.disp) (hg : s'.gen = s.gen) (hn : s'.next = s.next) (hc : s'.ctxDone = s.ctxDone)
  (hstreams : s'.Streams t) (hclosed : s.connClosed s.gen = true → s'.connClosed s.gen = true)
include hd hg hn hc hstreams hclosed

theorem worker (idle : s.disp.running = false → s'.reader = .exited ∧ ∃ r, s'.sender = .exited r)
    (token : s'.reconnectCh = true → s'.done = true ∨ s.disp = .selecting ∧ s'.reader = .exited)
    (ended : s.disp.ending = true → s'.done = true ∨ s'.reader = .exited) : s'.Inv t where
  streams := hstreams
  gen := by rw [hd, hg, hn]; exact h.gen
  idle := by rw [hd]; exact idle
  token := by rw [hd]; exact token
  ended := by rw [hd]; exact ended
  cancelled := by rw [hd, hc]; exact h.cancelled
  closed ht b hb := by rw [hg]; exact hclosed (h.closed ht b (hd ▸ hb))

theorem byReader (hr : s.reader ≠ .exited) (hdone : s'.done = s.done)
    (htoken : s'.reconnectCh = s.reconnectCh ∨ s.disp = .selecting ∧ s'.reader = .exited ∨ s.done = true) :
    s'.Inv t := by
  have hrun := h.running_of_reader hr
  refine h.worker hd hg hn hc hstreams hclosed ?_ ?_ ?_
  · intro hstop
    rw [hrun] at hstop; cases hstop
  · intro htok
    rw [hdone]
    rcases htoken with heq | hsel | hdn
    · rw [heq] at htok; exact .inl ((h.token htok).resolve_right fun hsel => hr hsel.2)
    · exact .inr hsel
    · exact .inl hdn
  · intro hend
    rw [hdone]; exact .inl ((h.ended hend).resolve_right hr)

theorem keep (hr : s'.reader = s.reader) (htoken : s'.reconnectCh = s.reconnectCh)
    (hdone : s.done = true → s'.done = true) (hs : s'.sender = s.sender ∨ ∀ r, s.sender ≠ .exited r) : s'.Inv t := by
  refine h.worker hd hg hn hc hstreams hclosed ?_ ?_ ?_
  · intro hstop
    obtain ⟨hre, r, hse⟩ := h.idle hstop
    refine ⟨hr ▸ hre, ?_⟩
    rcases hs with hs | hs
    · exact ⟨r, hs ▸ hse⟩
    · exact absurd hse (hs r)
  · rw [htoken, hr]; exact fun htok => (h.token htok).imp_left hdone
  · rw [hr]; exact fun hend => (h.ended hend).imp_left hdone

end Inv

end UDPWorld

open UDPWorld

variable {t : TransportConfig}

theorem UDPStep.inv {s s' : UDPWorld} {e : UDPEvent} (h : s.Inv t) (hst : UDPStep t s e s') : s'.Inv t := by
  cases hst with
  | slept hd | retried hd | sleepDone hd | topDone hd | request hd | requestDone hd | requestFailed hd
  | requestGot hd | retryDone hd | encryptionError hd =>
    exact h.outside (hd ▸ rfl) rfl h.streams (by simp [hasStream]) rfl rfl rfl rfl
  | build hd =>
    refine h.outside (hd ▸ rfl) rfl ?_ (fun _ => Nat.lt_succ_self _) rfl rfl rfl rfl
    intro g hg
    by_cases hgn : g = s.next
    · subst hgn; exact ⟨0, update_self _ _ _⟩
    · obtain ⟨n, hn⟩ := h.streams g (by change g < s.next + 1 at hg; omega)
      exact ⟨n, (update_of_ne hgn _ _).trans hn⟩
  | codecError hd | replaceClosed hd =>
    exact h.outside (hd ▸ rfl) rfl (h.streams.closeStream _) (by simp [hasStream]) rfl rfl rfl rfl
  | replace hd =>
    exact h.outside (hd ▸ rfl) rfl h.streams (fun _ => h.gen (hd ▸ rfl)) rfl rfl rfl rfl
  | @closeOld old hd =>
    have hg := h.gen (hd ▸ rfl)
    cases old with
    | none => exact h.outside (hd ▸ rfl) rfl h.streams (fun _ => hg) rfl rfl rfl rfl
    | some g => exact h.outside (hd ▸ rfl) rfl (h.streams.closeStream g) (fun _ => hg) rfl rfl rfl rfl
  | start hd =>
    exact ⟨h.streams, fun _ => h.gen (hd ▸ rfl), fun hr => (by cases hr),
      fun htok => .inl (h.done_of_token (by rw [hd]; simp) htok),
      fun he => (by cases he), fun hc => (by cases hc), fun _ b hb => (by cases hb)⟩
  | reconnect hd htok =>
    refine ⟨h.streams, fun _ => h.gen (hd ▸ rfl), fun hr => (by cases hr), fun ht => (by cases ht), fun _ => ?_,
      fun hc => (by cases hc), fun _ b hb => (by cases hb)⟩
    exact (h.token htok).imp_right fun hsel => hsel.2
  | selectDone hd hdone =>
    exact ⟨h.streams, fun _ => h.gen (hd ▸ rfl), fun hr => (by cases hr), fun _ => .inl hdone,
      fun _ => .inl hdone, fun hc => (by cases hc), fun _ b hb => by cases hb⟩
  | cancel hd =>
    exact ⟨h.streams, fun _ => h.gen (hd ▸ rfl), fun hr => (by cases hr),
      fun htok => .inl (h.done_of_token (by rw [hd]; simp) htok),
      fun _ => h.ended (hd ▸ rfl), fun _ => rfl, fun _ b hb => (by cases hb)⟩
  | closeConn hd =>
    have hg := h.gen (hd ▸ rfl)
    exact ⟨h.streams.closeStream _, fun _ => hg, fun hr => (by cases hr),
      fun htok => .inl (h.done_of_token (by rw [hd]; simp) htok), fun _ => h.ended (hd ▸ rfl),
      fun _ => h.cancelled (hd ▸ rfl), fun ht _ _ => h.streams.connClosed_self ht hg⟩
  | @join shuttingDown result hd hr hs =>
    have hnot : s.reconnectCh = true → s.done = true := h.done_of_token (by rw [hd]; simp)
    cases shuttingDown <;>
      exact ⟨h.streams, fun hg => (by cases hg), fun _ => ⟨hr, result, hs⟩, fun htok => .inl (hnot htok),
        fun he => (by cases he), fun hc => (by cases hc), fun _ b hb => by cases hb⟩
  | ping => exact h
  | receive _ hr | readError hr | readClosed hr | deliver hr | deliverDone hr | notifyDone hr =>
    exact h.byReader rfl rfl rfl rfl h.streams id (by rw [hr]; simp) rfl (.inl rfl)
  | leave hr | readerClose hr =>
    exact h.byReader rfl rfl rfl rfl (h.streams.closeStream _) (fun hc => connClosed_closeStream hc _)
      (by rw [hr]; simp) rfl (.inl rfl)
  | notify hr =>
    have hne : s.reader ≠ .exited := by rw [hr]; simp
    refine h.byReader rfl rfl rfl rfl h.streams id hne rfl ?_
    by_cases hend : s.disp.ending = true
    · exact .inr (.inr ((h.ended hend).resolve_right hne))
    · exact .inr (.inl ⟨selecting_of_running (h.running_of_reader hne) hend, rfl⟩)
  | pick hs | pickDone hs | checkDone hs | check hs | write hs | writeError hs | writeClosed hs =>
    exact h.keep rfl rfl rfl rfl h.streams id rfl rfl id (.inr (by rw [hs]; simp))
  | senderClose hs =>
    exact h.keep rfl rfl rfl rfl (h.streams.closeStream _) (fun hc => connClosed_closeStream hc _) rfl rfl id
      (.inr (by rw [hs]; simp))
  | enqueue | respond | forwardEnds | shutdownUDP =>
    exact h.keep rfl rfl rfl rfl h.streams id rfl rfl id (.inl rfl)
  | shutdown => exact h.keep rfl rfl rfl rfl h.streams id rfl rfl (fun _ => rfl) (.inl rfl)
  | @shutdownConn workConn =>
    cases workConn with
    | none => exact h.keep rfl rfl rfl rfl h.streams id rfl rfl id (.inl rfl)
    | some g =>
      exact h.keep rfl rfl rfl rfl (h.streams.closeStream g) (fun hc => connClosed_closeStream hc g) rfl rfl id
        (.inl rfl)

theorem UDPWorld.inv_always (ρ : Run (UDPStep t)) (h0 : ρ.state 0 = UDPWorld.init) (n : Nat) : (ρ.state n).Inv t :=
  ρ.always (fun _ _ _ h hst => hst.inv h) (h0 ▸ Inv.init t) n (Nat.zero_le n)

/-! ## Progress of the workers -/

def UDPReaderPc.rank : UDPReaderPc → Nat
  | exited => 0
  | leaving | notifying => 1
  | closing => 2
  | reading => 3
  | delivering _ => 4

def UDPSenderPc.rank : UDPSenderPc → Nat
  | exited _ => 0
  | closing _ | checking _ => 1
  | picking | writing _ => 2

def UDPWorld.Joined (s : UDPWorld) : Prop := s.reader = .exited ∧ ∃ r, s.sender = .exited r

def UDPEvent.worker (e : UDPEvent) : Prop := e = .reader ∨ e = .sender

section
variable {t : TransportConfig} {s s' : UDPWorld} {e : UDPEvent}

theorem UDPStep.joined_stays (he : e ≠ .dispatcher) (hst : UDPStep t s e s') (h : s.Joined) : s'.Joined := by
  obtain ⟨hr, r, hs⟩ := h
  cases hst with
  | slept | retried | requestFailed | requestGot | ping | enqueue | respond | forwardEnds | shutdown | shutdownUDP =>
    exact ⟨hr, r, hs⟩
  | @shutdownConn workConn => cases workConn <;> exact ⟨hr, r, hs⟩
  | receive _ hp | readError hp | readClosed hp | deliver hp | deliverDone hp | leave hp | readerClose hp | notify hp
  | notifyDone hp => rw [hr] at hp; cases hp
  | pick hp | pickDone hp | checkDone hp | check hp | write hp | writeError hp | writeClosed hp | senderClose hp =>
    rw [hs] at hp; cases hp
  | _ => exact absurd rfl he

theorem UDPStep.disp_stays (he : e ≠ .dispatcher) (hst : UDPStep t s e s') (h : s.disp.running = true) :
    s'.disp = s.disp := by
  cases hst with
  | slept hd | retried hd | requestFailed hd | requestGot hd => rw [hd] at h; cases h
  | @shutdownConn workConn => cases workConn <;> rfl
  | ping | enqueue | respond | forwardEnds | shutdown | shutdownUDP | receive | readError | readClosed | deliver
  | deliverDone | leave | readerClose | notify | notifyDone | pick | pickDone | checkDone | check | write | writeError
  | writeClosed | senderClose => rfl
  | _ => exact absurd rfl he

theorem UDPStep.join_rank (ht : t.limiter = false) (hi : s.Inv t) {b : Bool} (hd : s.disp = .joining b)
    (hj : ¬ s.Joined) (hst : UDPStep t s e s') :
    s'.disp = .joining b ∧ s'.reader.rank + s'.sender.rank ≤ s.reader.rank + s.sender.rank ∧
      (e.worker → s'.reader.rank + s'.sender.rank < s.reader.rank + s.sender.rank) := by
  have hclosed := hi.closed ht b hd
  have hctx := hi.cancelled (hd ▸ rfl)
  cases hst with
  | ping _ ho | receive _ _ ho | readError _ ho | write _ ho | writeError _ ho => rw [hclosed] at ho; cases ho
  | check _ hc => rw [hctx] at hc; cases hc
  | readClosed hp | deliver hp | deliverDone hp | leave hp | readerClose hp | notify hp | notifyDone hp =>
    rw [hp]
    exact ⟨hd, by simp only [UDPReaderPc.rank, closeStream_sender]; omega,
      fun _ => by simp only [UDPReaderPc.rank, closeStream_sender]; omega⟩
  | pick hp | pickDone hp | checkDone hp | writeClosed hp | senderClose hp =>
    rw [hp]
    exact ⟨hd, by simp only [UDPSenderPc.rank, closeStream_reader]; omega,
      fun _ => by simp only [UDPSenderPc.rank, closeStream_reader]; omega⟩
  | enqueue | respond | forwardEnds | shutdown | shutdownUDP =>
    exact ⟨hd, Nat.le_refl _, fun h => by rcases h with h | h <;> cases h⟩
  | @shutdownConn workConn =>
    cases workConn <;> exact ⟨hd, Nat.le_refl _, fun h => by rcases h with h | h <;> cases h⟩
  | join _ hr hs => exact absurd ⟨hr, _, hs⟩ hj
  | slept hp | retried hp | sleepDone hp | topDone hp | request hp | requestDone hp | requestFailed hp | requestGot hp
  | retryDone hp | encryptionError hp | build hp | codecError hp | replaceClosed hp | replace hp | closeOld hp
  | start hp | reconnect hp | selectDone hp | cancel hp | closeConn hp => rw [hd] at hp; cases hp

theorem UDPWorld.Inv.worker_enabled (ht : t.limiter = false) (hi : s.Inv t) {b : Bool} (hd : s.disp = .joining b)
    (hj : ¬ s.Joined) : ∃ e s', e.worker ∧ UDPStep t s e s' := by
  have hclosed := hi.closed ht b hd
  have hctx := hi.cancelled (hd ▸ rfl)
  have hend := hi.ended (hd ▸ rfl)
  cases hr : s.reader with
  | reading => exact ⟨.reader, _, .inl rfl, .readClosed hr hclosed⟩
  | delivering =>
    exact ⟨.reader, _, .inl rfl, .deliverDone hr (hend.resolve_right (by rw [hr]; simp))⟩
  | closing => exact ⟨.reader, _, .inl rfl, .readerClose hr⟩
  | notifying => exact ⟨.reader, _, .inl rfl, .notifyDone hr (hend.resolve_right (by rw [hr]; simp))⟩
  | leaving => exact ⟨.reader, _, .inl rfl, .leave hr⟩
  | exited =>
    cases hs : s.sender with
    | picking => exact ⟨.sender, _, .inr rfl, .pickDone hs (.inl hctx)⟩
    | checking => exact ⟨.sender, _, .inr rfl, .checkDone hs (.inl hctx)⟩
    | writing => exact ⟨.sender, _, .inr rfl, .writeClosed hs hclosed⟩
    | closing => exact ⟨.sender, _, .inr rfl, .senderClose hs⟩
    | exited r => exact absurd ⟨hr, r, hs⟩ hj

/-! ## Progress of the dispatcher -/

def UDPDispatcherPc.rank : UDPDispatcherPc → Nat
  | exited => 0
  | top => 1
  | sleeping | retrying | joining _ => 2
  | closing _ => 3
  | cancelling _ => 4
  | selecting => 5
  | starting => 6
  | replaced _ => 7
  | wrapped => 8
  | building => 9
  | requesting => 10

attribute [local simp] UDPDispatcherPc.rank

theorem UDPStep.disp_rank (hdone : s.done = true) (hst : UDPStep t s e s') :
    s'.done = true ∧ (s'.disp = s.disp ∧ e ≠ .dispatcher ∨ s'.disp.rank < s.disp.rank) := by
  cases hst with
  | request _ hd | requestFailed _ hd | requestGot _ hd | replace _ hd => rw [hdone] at hd; cases hd
  | slept hd | retried hd | sleepDone hd | topDone hd | requestDone hd | retryDone hd | encryptionError hd | build hd
  | codecError hd | replaceClosed hd | start hd | reconnect hd | selectDone hd | cancel hd | closeConn hd =>
    exact ⟨hdone, .inr (by rw [hd]; simp)⟩
  | @closeOld old hd => cases old <;> exact ⟨hdone, .inr (by rw [hd]; simp)⟩
  | @join b _ hd => cases b <;> exact ⟨hdone, .inr (by rw [hd]; simp)⟩
  | ping | enqueue | respond | forwardEnds | shutdownUDP | receive | readError | readClosed | deliver
  | deliverDone | leave | readerClose | notify | notifyDone | pick | pickDone | checkDone | check | write | writeError
  | writeClosed | senderClose => exact ⟨hdone, .inl ⟨rfl, by simp⟩⟩
  | shutdown => exact ⟨rfl, .inl ⟨rfl, by simp⟩⟩
  | @shutdownConn workConn => cases workConn <;> exact ⟨hdone, .inl ⟨rfl, by simp⟩⟩

theorem UDPStep.ending_next (he : s.disp.ending = true) (hj : ¬ ∃ b, s.disp = .joining b)
    (hst : UDPStep t s .dispatcher s') :
    (∃ b, s'.disp = .joining b) ∨ s'.disp.ending = true ∧ s'.disp.rank < s.disp.rank := by
  cases hst with
  | cancel hd => exact .inr ⟨rfl, by rw [hd]; simp⟩
  | closeConn => exact .inl ⟨_, rfl⟩
  | join hd => exact absurd ⟨_, hd⟩ hj
  | sleepDone hd | topDone hd | request hd | requestDone hd | retryDone hd | encryptionError hd | build hd
  | codecError hd | replaceClosed hd | replace hd | closeOld hd | start hd | reconnect hd | selectDone hd =>
    rw [hd] at he; cases he

theorem UDPWorld.disp_enabled (t : TransportConfig) (hdone : s.done = true) (hd : s.disp ≠ .exited)
    (hj : ∀ b, s.disp = .joining b → s.Joined) : ∃ s', UDPStep t s .dispatcher s' := by
  cases hp : s.disp with
  | sleeping => exact ⟨_, .sleepDone hp hdone⟩
  | top => exact ⟨_, .topDone hp hdone⟩
  | requesting => exact ⟨_, .requestDone hp hdone⟩
  | retrying => exact ⟨_, .retryDone hp hdone⟩
  | building => exact ⟨_, .build hp⟩
  | wrapped => exact ⟨_, .replaceClosed hp hdone⟩
  | replaced => exact ⟨_, .closeOld hp⟩
  | starting => exact ⟨_, .start hp⟩
  | selecting => exact ⟨_, .selectDone hp hdone⟩
  | cancelling => exact ⟨_, .cancel hp⟩
  | closing => exact ⟨_, .closeConn hp⟩
  | joining b =>
    obtain ⟨hr, r, hs⟩ := hj b hp
    exact ⟨_, .join hp hr hs⟩
  | exited => exact absurd hp hd

/-! ## Where nobody can go on -/

theorem UDPStep.dispatcher_from (hst : UDPStep t s .dispatcher s') :
    s.disp ≠ .exited ∧ ∀ b, s.disp = .joining b → s.Joined := by
  cases hst with
  | join hd hr hs => exact ⟨by rw [hd]; simp, fun _ _ => ⟨hr, _, hs⟩⟩
  | sleepDone hd | topDone hd | request hd | requestDone hd | retryDone hd | encryptionError hd | build hd
  | codecError hd | replaceClosed hd | replace hd | closeOld hd | start hd | reconnect hd | selectDone hd
  | cancel hd | closeConn hd => exact ⟨by rw [hd]; simp, fun b hb => by rw [hd] at hb; cases hb⟩

theorem UDPStep.worker_from (he : e.worker) (hst : UDPStep t s e s') :
    s.reader ≠ .exited ∨ (∀ r, s.sender ≠ .exited r) ∧ ∀ p, s.sender = .writing p → s.connClosed s.gen = true := by
  cases hst with
  | readClosed hp | deliver hp | deliverDone hp | leave hp | readerClose hp | notify hp | notifyDone hp =>
    exact .inl (by rw [hp]; simp)
  | writeClosed hp hc => exact .inr ⟨by rw [hp]; simp, fun _ _ => hc⟩
  | pick hp | pickDone hp | checkDone hp | check hp | senderClose hp =>
    exact .inr ⟨by rw [hp]; simp, fun p hw => by rw [hp] at hw; cases hw⟩
  | _ => rcases he with he | he <;> cases he

end

/-! ## Fair runs -/

section
variable {t : TransportConfig} {ρ : Run (UDPStep t)} {n : Nat}

theorem UDPWorld.join_finishes (ht : t.limiter = false) (h0 : ρ.state 0 = UDPWorld.init)
    (hw : ρ.Fair worker) {b : Bool} (hd : (ρ.state n).disp = .joining b) :
    ∃ m, n ≤ m ∧ (ρ.state m).disp = .joining b ∧ (ρ.state m).Joined := by
  refine hw.reaches (P := fun s => s.Inv t ∧ s.disp = .joining b) (G := fun s => s.disp = .joining b ∧ s.Joined)
    (fun s => s.reader.rank + s.sender.rank) ?_ ?_ n ⟨UDPWorld.inv_always ρ h0 n, hd⟩
  · intro s e s' hP hng hst
    obtain ⟨hd', hle, hlt⟩ := hst.join_rank ht hP.1 hP.2 fun hj => hng ⟨hP.2, hj⟩
    exact .inr ⟨⟨hst.inv hP.1, hd'⟩, hle, hlt⟩
  · intro s hP hng; exact hP.1.worker_enabled ht hP.2 fun hj => hng ⟨hP.2, hj⟩

theorem UDPWorld.ending_joins (hf : ρ.Fair (· = .dispatcher)) (hd : (ρ.state n).disp.ending = true) :
    ∃ m b, n ≤ m ∧ (ρ.state m).disp = .joining b := by
  have hreach : ∃ m, n ≤ m ∧ ∃ b, (ρ.state m).disp = .joining b := by
    refine hf.reaches (P := fun s => s.disp.ending = true) (G := fun s => ∃ b, s.disp = .joining b)
      (fun s => s.disp.rank) ?_ ?_ n hd
    · intro s e s' hP hng hst
      by_cases he : e = .dispatcher
      · subst he
        rcases hst.ending_next hP hng with hjoin | ⟨hend, hlt⟩
        · exact .inl hjoin
        · exact .inr ⟨hend, Nat.le_of_lt hlt, fun _ => hlt⟩
      · have hsame := hst.disp_stays he (running_of_ending hP)
        exact .inr ⟨hsame ▸ hP, Nat.le_of_eq (by rw [hsame]), fun h => absurd h he⟩
    · intro s hP hng
      cases hp : s.disp with
      | cancelling => exact ⟨_, _, rfl, .cancel hp⟩
      | closing => exact ⟨_, _, rfl, .closeConn hp⟩
      | joining b => exact absurd ⟨b, hp⟩ hng
      | _ => rw [hp] at hP; cases hP
  obtain ⟨m, hm, b, hb⟩ := hreach
  exact ⟨m, b, hm, hb⟩

theorem UDPWorld.done_always (hdone : (ρ.state n).done = true) : ∀ m, n ≤ m → (ρ.state m).done = true :=
  ρ.always (fun _ _ _ h hst => (hst.disp_rank h).1) hdone

theorem UDPWorld.disp_advances (hf : ρ.Fair (· = .dispatcher)) (hdone : (ρ.state n).done = true)
    (hd : (ρ.state n).disp ≠ .exited) (hj : ∀ b, (ρ.state n).disp = .joining b → (ρ.state n).Joined) :
    ∃ m, n ≤ m ∧ (ρ.state m).disp.rank < (ρ.state n).disp.rank := by
  generalize hp : (ρ.state n).disp = p at hd hj
  refine hf.reaches (P := fun s => s.done = true ∧ s.disp = p ∧ ∀ b, p = .joining b → s.Joined)
    (G := fun s => s.disp.rank < p.rank) (fun _ => 0) ?_ ?_ n ⟨hdone, hp, hj⟩
  · intro s e s' hP _ hst
    obtain ⟨hdone', hmove⟩ := hst.disp_rank hP.1
    rcases hmove with ⟨hsame, he⟩ | hlt
    · exact .inr ⟨⟨hdone', hsame.trans hP.2.1, fun b hb => hst.joined_stays he (hP.2.2 b hb)⟩, Nat.le_refl _,
        fun h => absurd h he⟩
    · exact .inl (hP.2.1 ▸ hlt)
  · intro s hP _
    obtain ⟨s', hst⟩ := UDPWorld.disp_enabled t hP.1 (hP.2.1 ▸ hd) fun b hb => hP.2.2 b (hP.2.1 ▸ hb)
    exact ⟨.dispatcher, s', rfl, hst⟩

theorem UDPWorld.close_finishes (ht : t.limiter = false) (h0 : ρ.state 0 = UDPWorld.init)
    (hf : ρ.Fair (· = .dispatcher)) (hw : ρ.Fair worker) :
    ∀ (r n : Nat), (ρ.state n).disp.rank ≤ r → (ρ.state n).done = true →
      ∃ m, n ≤ m ∧ (ρ.state m).disp = .exited ∧ (ρ.state m).Joined := by
  intro r
  induction r using Nat.strongRecOn with
  | ind r ih =>
    intro n hr hdone
    by_cases hd : (ρ.state n).disp = .exited
    · exact ⟨n, Nat.le_refl n, hd, (UDPWorld.inv_always ρ h0 n).idle (hd ▸ rfl)⟩
    · -- past the join, if there is one, the dispatcher has a smaller rank
      have hnext : ∃ m, n ≤ m ∧ (ρ.state m).disp.rank < (ρ.state n).disp.rank := by
        by_cases hj : ∃ b, (ρ.state n).disp = .joining b
        · obtain ⟨b, hb⟩ := hj
          obtain ⟨m, hm, hbm, hjm⟩ := UDPWorld.join_finishes ht h0 hw hb
          obtain ⟨k, hk, hlt⟩ := UDPWorld.disp_advances hf (UDPWorld.done_always hdone m hm) (by rw [hbm]; simp)
            fun _ _ => hjm
          exact ⟨k, Nat.le_trans hm hk, by rw [hb, ← hbm]; exact hlt⟩
        · exact UDPWorld.disp_advances hf hdone hd fun b hb => absurd ⟨b, hb⟩ hj
      obtain ⟨m, hm, hlt⟩ := hnext
      obtain ⟨k, hk, hgoal⟩ := ih (ρ.state m).disp.rank (by omega) m (Nat.le_refl _) (UDPWorld.done_always hdone m hm)
      exact ⟨k, Nat.le_trans hm hk, hgoal⟩

end

/-- The pooled connection is closed exactly if there is no limiter. Without one, a fair run finishes
the join of a reconnect, and after the start of a shutdown ends the dispatcher with its workers. -/
theorem close_reaches_work_conn_iff (t : TransportConfig) :
    (∀ (site : StreamSite) (n : Nat),
      (∃ h, ((site.stream t).closeTimes n).close closeFuel ((site.stream t).closeTimes n).top = some h) ∧
      (0 < ((site.stream t).closeTimes (n + 1)).closes ↔ t.limiter = false)) ∧
    (t.limiter = false → ∀ ρ : Run (UDPStep t), ρ.state 0 = UDPWorld.init → ρ.Fair (· = .dispatcher) →
      ρ.Fair UDPEvent.worker → ∀ n,
        ((ρ.state n).disp.ending = true → ∃ m, n ≤ m ∧ (ρ.state m).Joined) ∧
        ((ρ.state n).done = true → ∃ m, n ≤ m ∧ (ρ.state m).disp = .exited ∧ (ρ.state m).Joined)) := by
  refine ⟨fun site n => ⟨site.close_returns t n, site.closeTimes_pos_iff t n⟩, ?_⟩
  intro ht ρ h0 hf hw n
  constructor
  · intro hend
    obtain ⟨m, b, hm, hb⟩ := UDPWorld.ending_joins hf hend
    obtain ⟨k, hk, -, hjoined⟩ := UDPWorld.join_finishes ht h0 hw hb
    exact ⟨k, Nat.le_trans hm hk, hjoined⟩
  · exact UDPWorld.close_finishes ht h0 hf hw _ n (Nat.le_refl _)

theorem UDPWorld.closed_busy : ∃ s t, Reach (· = UDPWorld.init) (UDPStep ⟨true, true, false⟩) s ∧
    Reach (· = s) (UDPStep ⟨true, true, false⟩) t ∧ s.done = true ∧ s.reader = .reading ∧ s.sender = .writing 7 ∧
    t.disp = .exited ∧ t.reader = .exited ∧ t.sender = .exited (some 7) := by
  have h := (.start rfl : Reach (· = UDPWorld.init) (UDPStep ⟨true, true, false⟩) _)
    |>.next (.slept rfl)
    |>.next (.request rfl rfl)
    |>.next (.requestGot rfl rfl)
    |>.next (.build rfl)
    |>.next (.replace rfl rfl)
    |>.next (.closeOld rfl)
    |>.next (.start rfl)
    |>.next (.enqueue 7 rfl rfl (by decide))
    |>.next (.pick rfl rfl)
    |>.next (.check rfl rfl rfl)
    |>.next (.shutdown rfl)
  have h' := h.here.next (.shutdownConn rfl)
  have h' := h'
    |>.next (.readClosed rfl rfl)
    |>.next (.readerClose rfl)
    |>.next (.notifyDone rfl rfl)
    |>.next (.writeClosed rfl rfl)
    |>.next (.senderClose rfl)
    |>.next (.selectDone rfl rfl)
    |>.next (.cancel rfl)
    |>.next (.closeConn rfl)
    |>.next (.join rfl rfl rfl)
  exact ⟨_, _, h, h', rfl, rfl, rfl, rfl, rfl, rfl⟩

theorem close_reaches_work_conn_busy : ∃ (ρ : Run (UDPStep ⟨true, true, false⟩)) (n : Nat),
    ρ.state 0 = UDPWorld.init ∧ ρ.Fair (· = .dispatcher) ∧ ρ.Fair UDPEvent.worker ∧ (ρ.state n).done = true ∧
      (ρ.state n).reader = .reading ∧ (ρ.state n).sender = .writing 7 ∧
      ∃ m, n ≤ m ∧ (ρ.state m).disp = .exited ∧ (ρ.state m).Joined := by
  obtain ⟨s, t, hs, ht, hdone, hreader, hsender, hd, hr, hx⟩ := UDPWorld.closed_busy
  obtain ⟨ρ, n, N, h0, -, hat, hN⟩ := hs.exists_run_through ht
  have hf : ρ.Fair (· = .dispatcher) := by
    refine Run.fair_of_rest hN ?_
    rintro _ u rfl hst; exact hst.dispatcher_from.1 hd
  have hw : ρ.Fair worker := by
    refine Run.fair_of_rest hN fun e u he hst => ?_
    rcases hst.worker_from he with hbusy | ⟨hbusy, -⟩
    · exact hbusy hr
    · exact hbusy _ hx
  exact ⟨ρ, n, h0, hf, hw, hat ▸ hdone, hat ▸ hreader, hat ▸ hsender,
    ((close_reaches_work_conn_iff ⟨true, true, false⟩).2 rfl ρ h0 hf hw n).2 (hat ▸ hdone)⟩

theorem UDPWorld.reconnected (p q : Nat) : ∃ s, Reach (· = UDPWorld.init) (UDPStep ⟨false, false, false⟩) s ∧
    s.disp = .starting ∧ s.gen = 1 ∧ s.pendingPacket = some p ∧ s.sendCh = [q] ∧ s.written = [] ∧ s.done = false ∧
    s.connClosed s.gen = false := by
  have h := (.start rfl : Reach (· = UDPWorld.init) (UDPStep ⟨false, false, false⟩) _)
    |>.next (.slept rfl)
    |>.next (.request rfl rfl)
    |>.next (.requestGot rfl rfl)
    |>.next (.build rfl)
    |>.next (.replace rfl rfl)
    |>.next (.closeOld rfl)
    |>.next (.start rfl)
    |>.next (.enqueue p rfl rfl (by decide))
    |>.next (.enqueue q rfl rfl (show 1 < udpChannelCap by decide))
    |>.next (.pick rfl rfl)
    |>.next (.check rfl rfl rfl)
    |>.next (.writeError rfl rfl)
    |>.next (.senderClose rfl)
    |>.next (.readClosed rfl rfl)
    |>.next (.readerClose rfl)
    |>.next (.notify rfl rfl)
    |>.next (.reconnect rfl rfl)
    |>.next (.cancel rfl)
    |>.next (.closeConn rfl)
    |>.next (.join rfl rfl rfl)
    |>.next (.request rfl rfl)
    |>.next (.requestGot rfl rfl)
    |>.next (.build rfl)
    |>.next (.replace rfl rfl)
    |>.next (.closeOld rfl)
  exact ⟨_, h, rfl, rfl, rfl, rfl, rfl, rfl, rfl⟩

theorem limited_stream_not_closed :
    (∀ site : StreamSite, (site.stream ⟨false, false, true⟩).closeTop.closes = 0) ∧
    ∃ s, Reach (· = UDPWorld.init) (UDPStep ⟨false, false, true⟩) s ∧ s.disp = .joining false ∧
      s.sender = .writing 7 ∧
      ∀ e s', UDPStep ⟨false, false, true⟩ s e s' → e ≠ .dispatcher ∧ ¬ e.worker := by
  refine ⟨fun site => by cases site <;> rfl, ?_⟩
  have h := (.start rfl : Reach (· = UDPWorld.init) (UDPStep ⟨false, false, true⟩) _)
    |>.next (.slept rfl)
    |>.next (.request rfl rfl)
    |>.next (.requestGot rfl rfl)
    |>.next (.build rfl)
    |>.next (.replace rfl rfl)
    |>.next (.closeOld rfl)
    |>.next (.start rfl)
    |>.next (.enqueue 7 rfl rfl (by decide))
    |>.next (.pick rfl rfl)
    |>.next (.check rfl rfl rfl)
    |>.next (.readError rfl rfl)
    |>.next (.readerClose rfl)
    |>.next (.notify rfl rfl)
    |>.next (.reconnect rfl rfl)
    |>.next (.cancel rfl)
    |>.next (.closeConn rfl)
  refine ⟨_, h, rfl, rfl, ?_⟩
  intro e s' hst
  refine ⟨fun he => ?_, fun he => ?_⟩
  · subst he
    obtain ⟨-, r, hs⟩ := hst.dispatcher_from.2 false rfl
    cases hs
  · rcases hst.worker_from he with hr | ⟨-, hw⟩
    · exact hr rfl
    · cases hw 7 rfl

end Frp
