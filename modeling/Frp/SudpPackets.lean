import Frp.SudpVisitorSound

/-!
# The packets of the SUDP visitor

Packets are followed from `sendCh` to `pendingPacket`, to the first packet of a worker and
to `WriteMsg`. Every packet that is done with has one fate.
-/

namespace Frp

def sudpChannelCap : Nat := 1024

inductive SudpFate
  | written
  | failed
  | codec
  | closed
  deriving DecidableEq

inductive SudpSenderPc
  | idle
  | first (p : Nat)
  | selecting
  | writing (p : Nat)

/-- `calls` are the packets `WriteMsg` was called with. -/
structure SudpPackets where
  visitor : SudpVisitor := {}
  sendCh : List Nat := []
  pending : Option Nat := none
  sender : SudpSenderPc := .idle
  enqueued : List Nat := []
  calls : List Nat := []
  fates : List (Nat × SudpFate) := []

namespace SudpDispatcherPc

def asks : SudpDispatcherPc → Bool
  | waiting _ | took _ _ | cancelling _ _ | recycling _ | retrying | serving _ => true
  | _ => false

def sends : SudpDispatcherPc → Bool
  | working _ w => w.go .sender = .running
  | _ => false

def gives : SudpDispatcherPc → Bool
  | cancelling _ _ | recycling _ | leaving => true
  | _ => false

end SudpDispatcherPc

def SudpVisitor.PacketMove (v v' : SudpVisitor) : Prop :=
  v.dispatcher = .selecting ∧ v'.dispatcher.asks = true ∨
    (∃ c, v.dispatcher = .serving c) ∧ v'.dispatcher.asks = false ∨
    v.dispatcher.sends = true ∧ v'.dispatcher.sends = false ∨ v.dispatcher = .leaving ∧ v'.dispatcher = .ended

def SudpVisitor.endSender (v : SudpVisitor) (c : Nat) (w : SudpWorker) : SudpVisitor :=
  { v with dispatcher := .working c { w.set .sender .closing with stop := true } }

inductive SudpPacketEvent
  | visitor (e : SudpEvent)
  | enqueue
  | sender

inductive SudpPacketStep : SudpPackets → SudpPacketEvent → SudpPackets → Prop
  | enqueue {s} : s.sendCh.length < sudpChannelCap →
      SudpPacketStep s .enqueue
        { s with sendCh := s.sendCh ++ [s.enqueued.length], enqueued := s.enqueued ++ [s.enqueued.length] }
  -- dispatcher
  | packet {s p rest} : s.visitor.dispatcher = .selecting → s.sendCh = p :: rest →
      SudpPacketStep s (.visitor .dispatcher)
        { s with visitor := s.visitor.request, sendCh := rest, pending := some p }
  | worker {s p} (c : Nat) : s.visitor.dispatcher = .serving c → s.pending = some p →
      SudpPacketStep s (.visitor .dispatcher)
        { s with visitor := { s.visitor with dispatcher := .working c {} }, pending := none, sender := .first p }
  | codec {s p} (c : Nat) : s.visitor.dispatcher = .serving c → s.pending = some p →
      SudpPacketStep s (.visitor .dispatcher)
        { s with
          visitor := { s.visitor with dispatcher := .finishing c, conns := s.visitor.conns.close c }
          pending := none
          fates := s.fates ++ [(p, .codec)] }
  | drop {s} : s.visitor.dispatcher = .leaving →
      SudpPacketStep s (.visitor .dispatcher)
        { s with
          visitor := { s.visitor with dispatcher := .ended, workers := s.visitor.workers - 1 }
          pending := none
          fates := s.fates ++ s.pending.toList.map fun p => (p, .closed) }
  -- the sender of the worker
  | first {s p} : s.sender = .first p →
      SudpPacketStep s .sender { s with sender := .writing p, calls := s.calls ++ [p] }
  | take {s p rest} : s.sender = .selecting → s.sendCh = p :: rest →
      SudpPacketStep s .sender { s with sendCh := rest, sender := .writing p, calls := s.calls ++ [p] }
  | write {s p} : s.sender = .writing p →
      SudpPacketStep s .sender { s with sender := .selecting, fates := s.fates ++ [(p, .written)] }
  | writeFails {s p} (c : Nat) (w : SudpWorker) : s.sender = .writing p → s.visitor.dispatcher = .working c w →
      w.go .sender = .running →
      SudpPacketStep s (.visitor (.go .sender))
        { s with visitor := s.visitor.endSender c w, sender := .idle, fates := s.fates ++ [(p, .failed)] }
  | stop {s} (c : Nat) (w : SudpWorker) : s.sender = .selecting → s.visitor.dispatcher = .working c w →
      w.go .sender = .running → w.stop = true ∨ s.visitor.closeReady →
      SudpPacketStep s (.visitor (.go .sender)) { s with visitor := s.visitor.endSender c w, sender := .idle }
  | other {s e v'} : SudpStep s.visitor e v' → ¬ s.visitor.PacketMove v' →
      SudpPacketStep s (.visitor e) { s with visitor := v' }

open SudpVisitor

attribute [local simp] SudpDispatcherPc.sends SudpDispatcherPc.asks

section
variable {v v' : SudpVisitor} {e : SudpEvent}

/-! ## The visitor's part -/

theorem SudpPacketStep.visitor_step {s s' : SudpPackets} {ev : SudpPacketEvent} (hst : SudpPacketStep s ev s') :
    s'.visitor = s.visitor ∨ ∃ e, SudpStep s.visitor e s'.visitor := by
  cases hst with
  | enqueue | first | take | write => exact .inl rfl
  | packet hd => exact .inr ⟨_, .packet hd⟩
  | worker c hd => exact .inr ⟨_, .worker c hd⟩
  | codec c hd => exact .inr ⟨_, .workerFails c hd⟩
  | drop hd => exact .inr ⟨_, .dispatcherDone hd⟩
  | writeFails c w _ hd hw | stop c w _ hd hw => exact .inr ⟨_, .goEnds c w .sender hd (by simp) hw⟩
  | other hst => exact .inr ⟨_, hst⟩

theorem SudpStep.closes_le (hst : SudpStep v e v') : v.closes ≤ v'.closes := by
  cases hst with
  | failStartup | closeFirst => exact Nat.le_succ _
  | _ => exact Nat.le_refl _

theorem SudpStep.gives (hst : SudpStep v e v') (h : v.dispatcher.gives = true → v.closeReady)
    (h' : v'.dispatcher.gives = true) : v'.closeReady := by
  refine Nat.lt_of_lt_of_le ?_ hst.closes_le
  cases hst with
  | selectClosed _ hc | waitClosed _ _ hc | tookClosed _ _ _ hc | retryClosed _ hc | checkClosed _ hc => exact hc
  | cancel _ _ _ hd | recycle _ _ hd | recycled hd => exact h (hd ▸ rfl)
  | commit | spawnDispatcher | packet | take | tookError | tookConn | retry | workerFails | worker | watch | goEnds
  | goCloses | workerDone | finish | checkOpen | dispatcherDone => cases h'
  | _ => exact h h'

theorem SudpWorker.sender_set (w : SudpWorker) {g : SudpGo} (hg : g ≠ .sender) (p : SudpGoPc) :
    (w.set g p).go .sender = w.go .sender := Function.update_of_ne (Ne.symm hg) ..

theorem SudpStep.plain (hst : SudpStep v e v') (hg : v.Group) (hm : ¬ v.PacketMove v') :
    (v'.dispatcher.asks = true → v.dispatcher.asks = true) ∧
      (v.dispatcher.asks = true ∨ v.dispatcher = .leaving → v'.dispatcher.asks = true ∨ v'.dispatcher = .leaving) ∧
      v'.dispatcher.sends = v.dispatcher.sends := by
  cases hst with
  | commit c hp hl => rw [(hg.before (.inr hl)).1]; simp
  | spawnDispatcher hp => rw [(hg.spawning _ hp).1]; simp
  | packet hd => exact absurd (.inl ⟨hd, rfl⟩) hm
  | workerFails c hd | worker c hd => exact absurd (.inr (.inl ⟨⟨c, hd⟩, rfl⟩)) hm
  | dispatcherDone hd => exact absurd (.inr (.inr (.inr ⟨hd, rfl⟩))) hm
  | selectClosed hd | take _ _ _ hd | waitClosed _ hd | tookClosed _ _ hd | cancel _ _ _ hd | recycle _ _ hd
  | recycled hd
  | tookError _ hd | tookConn _ _ hd | retry hd | retryClosed hd | finish _ hd | checkClosed hd | checkOpen hd =>
    rw [hd]; simp [request]
  | watch c w hd => rw [hd]; simp [w.sender_set]
  | goEnds c w g hd hw hr =>
    rw [hd]
    by_cases hgs : g = .sender
    · subst hgs
      refine absurd (.inr (.inr (.inl ⟨?_, ?_⟩))) hm
      · simp [hd, hr]
      · simp [SudpWorker.set]
    · simp [w.sender_set hgs]
  | goCloses c w g hd hr =>
    rw [hd]
    by_cases hgs : g = .sender
    · subst hgs; simp [SudpWorker.set, hr]
    · simp [w.sender_set hgs]
  | workerDone c w hd hw => rw [hd]; simp [hw]
  | _ => exact ⟨id, id, rfl⟩

end

/-! ## The packets -/

def SudpSenderPc.held : SudpSenderPc → List Nat
  | first p | writing p => [p]
  | _ => []

def SudpSenderPc.calling : SudpSenderPc → List Nat
  | writing p => [p]
  | _ => []

def SudpFate.called : SudpFate → Bool
  | written | failed => true
  | _ => false

namespace SudpPackets

variable {s : SudpPackets}

def held (s : SudpPackets) : List Nat := s.pending.toList ++ s.sender.held

def written (s : SudpPackets) : List Nat := (s.fates.filter fun x => x.2 = .written).map Prod.fst

structure Inv (s : SudpPackets) : Prop where
  visitor : Reach Init SudpStep s.visitor
  asks : s.visitor.dispatcher.asks = true → s.pending ≠ none
  pending : s.pending ≠ none → s.visitor.dispatcher.asks = true ∨ s.visitor.dispatcher = .leaving
  sends : s.sender ≠ .idle ↔ s.visitor.dispatcher.sends = true
  packets : s.fates.map Prod.fst ++ s.held ++ s.sendCh = s.enqueued
  calls : s.calls = (s.fates.filter fun x => x.2.called).map Prod.fst ++ s.sender.calling
  ids : s.enqueued = List.range s.enqueued.length
  gives : s.visitor.dispatcher.gives = true → s.visitor.closeReady
  closed : ∀ p, (p, .closed) ∈ s.fates → s.visitor.closeReady

theorem Inv.init : Inv {} where
  visitor := .start rfl
  asks h := by cases h
  pending h := absurd rfl h
  sends := ⟨fun h => absurd rfl h, fun h => by cases h⟩
  packets := rfl
  calls := rfl
  ids := rfl
  gives h := by cases h
  closed _ h := by cases h

theorem Inv.sender_idle (h : s.Inv) (hp : s.visitor.dispatcher.sends = false) : s.sender = .idle := by
  by_contra hne
  rw [h.sends.mp hne] at hp; cases hp

theorem Inv.pending_none (h : s.Inv) (hp : s.visitor.dispatcher.asks = false) (hl : s.visitor.dispatcher ≠ .leaving) :
    s.pending = none := by
  by_contra hne
  rcases h.pending hne with ha | ha
  · rw [hp] at ha; cases ha
  · exact hl ha

theorem Inv.pending_of_sender (h : s.Inv) (hs : s.sender ≠ .idle) : s.pending = none := by
  have hsends := h.sends.mp hs
  refine h.pending_none ?_ ?_
  · cases hd : s.visitor.dispatcher <;> first | rfl | (rw [hd] at hsends; cases hsends)
  · intro hd
    rw [hd] at hsends; cases hsends

theorem Inv.sends_on {sender : SudpSenderPc} {q calls : List Nat} {fates : List (Nat × SudpFate)} (h : s.Inv)
    (hs : s.sender ≠ .idle) (hs' : sender ≠ .idle)
    (hpackets : fates.map Prod.fst ++ sender.held ++ q = s.fates.map Prod.fst ++ s.sender.held ++ s.sendCh)
    (hcalls : calls = (fates.filter fun x => x.2.called).map Prod.fst ++ sender.calling)
    (hclosed : ∀ p, (p, .closed) ∈ fates → (p, .closed) ∈ s.fates) :
    Inv { s with sender := sender, sendCh := q, calls := calls, fates := fates } where
  visitor := h.visitor
  asks := h.asks
  pending := h.pending
  sends := ⟨fun _ => h.sends.mp hs, fun _ => hs'⟩
  packets := by rw [← h.packets, held, held, h.pending_of_sender hs]; exact hpackets
  calls := hcalls
  ids := h.ids
  gives := h.gives
  closed p hp := h.closed p (hclosed p hp)

end SudpPackets

variable {s s' : SudpPackets} {ev : SudpPacketEvent}

theorem SudpPacketStep.closeReady (hst : SudpPacketStep s ev s')
    (h : s.visitor.closeReady) : s'.visitor.closeReady := by
  rcases hst.visitor_step with heq | ⟨e, he⟩
  · rw [heq]; exact h
  · exact Nat.lt_of_lt_of_le h he.closes_le

theorem SudpPacketStep.closed_fate (hst : SudpPacketStep s ev s') {p : Nat}
    (hp : (p, .closed) ∈ s'.fates) : (p, .closed) ∈ s.fates ∨ s.visitor.dispatcher = .leaving := by
  cases hst with
  | drop hd => exact .inr hd
  | codec | write | writeFails => exact .inl (by simpa using hp)
  | _ => exact .inl hp

attribute [local simp] SudpSenderPc.calling SudpSenderPc.held SudpPackets.held SudpFate.called

theorem SudpPacketStep.inv (hst : SudpPacketStep s ev s') (h : s.Inv) : s'.Inv := by
  have hg := (SudpVisitor.inv_of_reach h.visitor).group
  have hvisitor : Reach Init SudpStep s'.visitor := by
    rcases hst.visitor_step with heq | ⟨e, he⟩
    · rw [heq]; exact h.visitor
    · exact h.visitor.next he
  have hgives : s'.visitor.dispatcher.gives = true → s'.visitor.closeReady := by
    rcases hst.visitor_step with heq | ⟨e, he⟩
    · rw [heq]; exact h.gives
    · exact he.gives h.gives
  have hclosed : ∀ p, (p, .closed) ∈ s'.fates → s'.visitor.closeReady := by
    intro p hp
    refine hst.closeReady ?_
    rcases hst.closed_fate hp with hp | hd
    · exact h.closed p hp
    · exact h.gives (hd ▸ rfl)
  have hpackets := h.packets
  have hcalls := h.calls
  cases hst with
  | enqueue =>
    refine ⟨hvisitor, h.asks, h.pending, h.sends, ?_, hcalls, ?_, hgives, hclosed⟩
    · rw [← hpackets]; simp
    · rw [List.length_append, List.length_singleton, List.range_succ, ← h.ids]
  | packet hd hq =>
    have hpend := h.pending_none (hd ▸ rfl) (by rw [hd]; simp)
    have hidle := h.sender_idle (hd ▸ rfl)
    refine ⟨hvisitor, by simp, fun _ => .inl rfl, ?_, ?_, hcalls, h.ids, hgives, hclosed⟩
    · simp [hidle, SudpVisitor.request]
    · rw [← hpackets]; simp [hpend, hidle, hq]
  | worker c hd hp =>
    have hidle := h.sender_idle (hd ▸ rfl)
    refine ⟨hvisitor, fun ha => (by cases ha), fun hn => absurd rfl hn, ?_, ?_, ?_, h.ids, hgives, hclosed⟩
    · simp
    · rw [← hpackets]; simp [hp, hidle]
    · simpa [hidle] using hcalls
  | codec c hd hp =>
    have hidle := h.sender_idle (hd ▸ rfl)
    refine ⟨hvisitor, fun ha => (by cases ha), fun hn => absurd rfl hn, ?_, ?_, ?_, h.ids, hgives, hclosed⟩
    · simp [hidle]
    · rw [← hpackets]; simp [hp, hidle]
    · simpa [hidle] using hcalls
  | drop hd =>
    have hidle := h.sender_idle (hd ▸ rfl)
    refine ⟨hvisitor, fun ha => (by cases ha), fun hn => absurd rfl hn, ?_, ?_, ?_, h.ids, hgives, hclosed⟩
    · simp [hidle]
    · rw [← hpackets]
      cases hp : s.pending <;> simp [hp, hidle]
    · cases hp : s.pending <;> simpa [hidle] using hcalls
  | first hs =>
    refine h.sends_on (by rw [hs]; simp) (by simp) ?_ ?_ fun _ => id
    · rw [hs]; rfl
    · simp [hcalls, hs]
  | take hs hq =>
    refine h.sends_on (by rw [hs]; simp) (by simp) ?_ ?_ fun _ => id
    · simp [hs, hq]
    · simp [hcalls, hs]
  | write hs =>
    refine h.sends_on (by rw [hs]; simp) (by simp) ?_ ?_ fun p hp => by simpa using hp
    · simp [hs]
    · simp [hcalls, hs]
  | writeFails c w hs | stop c w hs =>
    have hpend := h.pending_of_sender (by rw [hs]; simp)
    refine ⟨hvisitor, fun ha => (by cases ha), fun hn => absurd hpend hn, ?_, ?_, ?_, h.ids, hgives, hclosed⟩
    · simp [SudpVisitor.endSender, SudpWorker.set]
    · rw [← hpackets]; simp [hpend, hs]
    · simp [hcalls, hs]
  | other hv hm =>
    obtain ⟨hasks, hleave, hsends⟩ := hv.plain hg hm
    refine ⟨hvisitor, fun ha => h.asks (hasks ha), fun hn => hleave (h.pending hn), ?_, hpackets, hcalls, h.ids, hgives,
      hclosed⟩
    rw [hsends]; exact h.sends

theorem SudpPackets.reach_inv (h : Reach (· = {}) SudpPacketStep s) : s.Inv :=
  h.invariant (fun _ h0 => h0 ▸ Inv.init) fun _ _ _ _ hi hst => hst.inv hi

namespace SudpPackets

theorem Inv.calls_sublist (h : s.Inv) : s.calls.Sublist s.enqueued := by
  rw [h.calls, ← h.packets]
  have hcall : s.sender.calling.Sublist s.held := by
    refine List.Sublist.trans ?_ (List.sublist_append_right _ _)
    cases s.sender <;> simp
  exact ((List.filter_sublist.map _).append hcall).trans (List.sublist_append_left _ _)

theorem Inv.written_sublist (h : s.Inv) : s.written.Sublist s.enqueued := by
  rw [← h.packets, List.append_assoc]
  exact (List.filter_sublist.map _).trans (List.sublist_append_left _ _)

theorem Inv.fate (h : s.Inv) {p : Nat} (hp : p ∈ s.enqueued) (hq : p ∉ s.sendCh) (hh : p ∉ s.held) :
    ∃ f, (p, f) ∈ s.fates := by
  rw [← h.packets] at hp
  rcases List.mem_append.mp hp with hp | hp
  · rcases List.mem_append.mp hp with hp | hp
    · obtain ⟨x, hx, rfl⟩ := List.mem_map.mp hp
      exact ⟨x.2, hx⟩
    · exact absurd hp hh
  · exact absurd hp hq

end SudpPackets

/-- No packet is written twice or out of order, and one that is gone has failed, met a codec that
could not be made, or was dropped by the close. -/
theorem sudp_at_most_once {s : SudpPackets} (h : Reach (· = {}) SudpPacketStep s) :
    s.calls.Nodup ∧ s.calls.Sublist s.enqueued ∧ s.written.Sublist s.enqueued ∧
      ∀ p ∈ s.enqueued, p ∉ s.written → p ∉ s.sendCh → p ∉ s.held →
        (p, .failed) ∈ s.fates ∨ (p, .codec) ∈ s.fates ∨ (p, .closed) ∈ s.fates ∧ s.visitor.closeReady := by
  have hi := SudpPackets.reach_inv h
  have hnd : s.enqueued.Nodup := by rw [hi.ids]; exact List.nodup_range
  refine ⟨hnd.sublist hi.calls_sublist, hi.calls_sublist, hi.written_sublist, fun p hp hw hq hh => ?_⟩
  obtain ⟨f, hf⟩ := hi.fate hp hq hh
  cases f with
  | written => exact absurd (List.mem_map.mpr ⟨(p, .written), by simp [hf], rfl⟩) hw
  | failed => exact .inl hf
  | codec => exact .inr (.inl hf)
  | closed => exact .inr (.inr ⟨hf, hi.closed p hf⟩)

theorem sudp_at_most_once_failed : ∃ s, Reach (· = {}) SudpPacketStep s ∧ s.enqueued = [0, 1] ∧ s.written = [0] ∧
    s.calls = [0, 1] ∧ s.calls.Nodup ∧ (1, .failed) ∈ s.fates := by
  have hplain : ∀ {v v' : SudpVisitor}, v.dispatcher = .off ∨ v.dispatcher = .reserved ∨
      v.dispatcher = .waiting 0 ∨ v.dispatcher = .took 0 (some 0) → ¬ v.PacketMove v' := by
    intro v v' hd hm
    rcases hd with hd | hd | hd | hd <;> simp [SudpVisitor.PacketMove, hd] at hm
  have h := (.start rfl : Reach (· = {}) SudpPacketStep {})
    |>.next (.other (.run (i := 0) rfl rfl) (hplain (.inl rfl)))
    |>.next (.other (.resolve (i := 0) rfl) (hplain (.inl rfl)))
    |>.next (.other (.listen (i := 0) rfl) (hplain (.inl rfl)))
    |>.next (.other (.commit (i := 0) 0 rfl rfl) (hplain (.inl rfl)))
    |>.next (.other (.spawnDispatcher (i := 0) rfl) (hplain (.inr (.inl rfl))))
    |>.next (.enqueue (by decide))
    |>.next (.enqueue (by decide))
    |>.next (.packet rfl rfl)
    |>.next (.other (.produce 0 _ _ _ rfl (.obtains rfl)) (hplain (.inr (.inr (.inl rfl)))))
    |>.next (.other (.produce 0 _ _ _ rfl (.deliver rfl rfl rfl)) (hplain (.inr (.inr (.inl rfl)))))
    |>.next (.other (.take 0 _ _ rfl rfl rfl) (hplain (.inr (.inr (.inl rfl)))))
    |>.next (.other (.tookConn 0 0 rfl (Nat.lt_irrefl 0)) (hplain (.inr (.inr (.inr rfl)))))
    |>.next (.worker 0 rfl rfl)
    |>.next (.first rfl)
    |>.next (.write rfl)
    |>.next (.take rfl rfl)
    |>.next (.writeFails 0 {} rfl rfl rfl)
  exact ⟨_, h, rfl, rfl, rfl, (sudp_at_most_once h).1, by simp⟩

end Frp
