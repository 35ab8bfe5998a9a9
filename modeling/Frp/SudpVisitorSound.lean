import Frp.Lifecycle
import Frp.SudpVisitor

/-!
# The life of the SUDP visitor

The wait group counts the dispatcher and the forwarder until they end. A socket is with the
call that opened it or with the forwarder, a connection with the dispatcher or with a
request.
-/

namespace Frp

open Function

/-! ## Places -/

namespace SudpRunPc

def owns : SudpRunPc → Bool
  | idle | refused => false
  | _ => true

def socket : SudpRunPc → Option Nat
  | bound c | dropping c => some c
  | _ => none

end SudpRunPc

open SudpRunPc Forward

namespace SudpDispatcherPc

def counted : SudpDispatcherPc → Bool
  | off | ended => false
  | _ => true

def held : SudpDispatcherPc → List Nat
  | took _ r => r.toList
  | cancelling _ o => o.toList
  | recycling l => l
  | serving c | working c _ | finishing c => [c]
  | _ => []

def waits : SudpDispatcherPc → Option Nat
  | waiting k | cancelling k _ => some k
  | _ => none

theorem nothing_of_not_counted {p : SudpDispatcherPc} (h : p.counted = false) : p.held = [] ∧ p.waits = none := by
  cases p <;> first | exact ⟨rfl, rfl⟩ | cases h

end SudpDispatcherPc

namespace SudpVisitor

variable {s t : SudpVisitor}

/-! ## Run and Close -/

structure Calls (s : SudpVisitor) : Prop where
  closes : s.lifecycle = .closed ∧ s.closes = 1 ∨ s.lifecycle ≠ .closed ∧ s.closes = 0
  single : ∀ i j, (s.runs i).owns = true → (s.runs j).owns = true → i = j
  free : s.lifecycle = .notStarted → ∀ i, (s.runs i).owns = false
  called : ∀ j, s.closeCalls j ≠ .idle → s.lifecycle = .closed

theorem owns_update {f : Nat → SudpRunPc} {i : Nat} {p q : SudpRunPc} (hp : f i = p) (hq : q.owns = p.owns) (j : Nat) :
    (update f i q j).owns = (f j).owns :=
  update_same owns (hp ▸ hq) j

namespace Calls

theorem init (h : s.Init) : s.Calls := by
  subst h; exact ⟨.inr ⟨nofun, rfl⟩, nofun, fun _ _ => rfl, fun _ hj => absurd rfl hj⟩

theorem keep (h : s.Calls) (hl : t.lifecycle = s.lifecycle ∧ t.closes = s.closes)
    (hr : ∀ j, (t.runs j).owns = (s.runs j).owns)
    (hc : ∀ j, t.closeCalls j ≠ .idle → s.closeCalls j ≠ .idle ∨ s.lifecycle = .closed) : t.Calls := by
  refine ⟨?_, ?_, ?_, fun j hj => ?_⟩ <;> simp only [hl.1, hl.2, hr]
  · exact h.closes
  · exact h.single
  · exact h.free
  · exact (hc j hj).elim (h.called j) id

theorem closed (h : s.Calls) (hl : s.lifecycle ≠ .closed) (ht : t.lifecycle = .closed ∧ t.closes = s.closes + 1)
    (hr : ∀ j, (t.runs j).owns = (s.runs j).owns) : t.Calls := by
  have h0 : s.closes = 0 := (h.closes.resolve_left fun hc => hl hc.1).2
  refine ⟨.inl ⟨ht.1, by rw [ht.2, h0]⟩, ?_, fun hn => ?_, fun _ _ => ht.1⟩
  · simp only [hr]; exact h.single
  · rw [ht.1] at hn; cases hn

theorem opened (h : s.Calls) (hl : s.lifecycle ≠ .closed) (ht : t.lifecycle ≠ .closed ∧ t.lifecycle ≠ .notStarted)
    (hsame : t.closes = s.closes ∧ t.closeCalls = s.closeCalls)
    (hr : ∀ i j, (t.runs i).owns = true → (t.runs j).owns = true → i = j) : t.Calls := by
  refine ⟨.inr ⟨ht.1, ?_⟩, hr, fun hn => absurd hn ht.2, fun j hj => ?_⟩
  · rw [hsame.1]; exact (h.closes.resolve_left fun hc => hl hc.1).2
  · rw [hsame.2] at hj; exact absurd (h.called j hj) hl

end Calls

end SudpVisitor

open SudpVisitor

variable {s t : SudpVisitor} {e : SudpEvent}

theorem SudpStep.calls (hst : SudpStep s e t) (h : s.Calls) : t.Calls := by
  cases hst with
  | @run i hp hl =>
    have hown : ∀ j, (update s.runs i .starting j).owns = true → j = i := by
      intro j hj
      rcases update_cases (owns · = true) hj with ⟨hji, -⟩ | ⟨-, hj⟩
      · exact hji
      · rw [h.free hl j] at hj; cases hj
    exact h.opened (by rw [hl]; decide) ⟨by simp, by simp⟩ ⟨rfl, rfl⟩ fun j k hj hk =>
      (hown j hj).trans (hown k hk).symm
  | @commit i c hp hl =>
    have hsame := owns_update (q := .spawnDispatcher) hp rfl
    refine h.opened (by rw [hl]; decide) ⟨by simp, by simp⟩ ⟨rfl, rfl⟩ fun j k hj hk => ?_
    exact h.single j k ((hsame j).symm.trans hj) ((hsame k).symm.trans hk)
  | failStartup hp hl => exact h.closed (by rw [hl]; decide) ⟨rfl, rfl⟩ (owns_update hp rfl)
  | closeFirst _ hl => exact h.closed hl ⟨rfl, rfl⟩ fun _ => rfl
  | closeAgain _ hl => exact h.keep ⟨rfl, rfl⟩ (fun _ => rfl) fun _ _ => .inr hl
  | closeWait hj | closeReturns hj =>
    exact h.keep ⟨rfl, rfl⟩ (fun _ => rfl) fun _ _ => .inr (h.called _ (by rw [hj]; simp))
  | refuse hp | resolve hp | resolveFails hp | listen hp | listenFails hp | commitLate _ hp | drop _ hp
  | spawnDispatcher hp | spawnForward hp | failLate hp | failBase hp =>
    exact h.keep ⟨rfl, rfl⟩ (owns_update hp rfl) fun _ hj => .inl hj
  | _ => exact { h with }

namespace SudpVisitor

/-! ## The wait group -/

structure Group (s : SudpVisitor) : Prop where
  before : s.lifecycle = .notStarted ∨ s.lifecycle = .starting → s.dispatcher = .off ∧ s.forward.main = .off
  spawning : ∀ i, s.runs i = .spawnDispatcher → s.dispatcher = .reserved ∧ s.forward.main = .reserved
  forwarding : ∀ i, s.runs i = .spawnForward → s.forward.main = .reserved
  forward : s.forward.Ok
  workers : s.workers = (s.dispatcher.counted.toNat + s.forward.counted.toNat : Nat)
  returned : ∀ j, s.closeCalls j = .returned → s.workers = 0

namespace Group

theorem init (h : s.Init) : s.Group := by
  subst h; exact ⟨fun _ => ⟨rfl, rfl⟩, nofun, nofun, ⟨fun _ => rfl, by simp⟩, rfl, nofun⟩

theorem begun (h : s.Group) (hd : s.dispatcher ≠ .off ∨ s.forward.main ≠ .off) :
    ¬ (s.lifecycle = .notStarted ∨ s.lifecycle = .starting) :=
  fun hl => hd.elim (fun hd => hd (h.before hl).1) fun hd => hd (h.before hl).2

theorem moveRun (h : s.Group) {i : Nat} {q : SudpRunPc} (hr : t.runs = update s.runs i q)
    (hq : q ≠ .spawnDispatcher ∧ q ≠ .spawnForward)
    (hsame : t.dispatcher = s.dispatcher ∧ t.forward = s.forward ∧ t.workers = s.workers ∧ t.closeCalls = s.closeCalls)
    (hl : t.lifecycle = .notStarted ∨ t.lifecycle = .starting → s.lifecycle = .notStarted ∨ s.lifecycle = .starting) :
    t.Group := by
  cases t
  subst hr
  obtain ⟨rfl, rfl, rfl, rfl⟩ := hsame
  refine ⟨fun hs => h.before (hl hs), fun j hj => ?_, fun j hj => ?_, h.forward, h.workers, h.returned⟩
  · exact h.spawning j (of_update (· = _) hj hq.1)
  · exact h.forwarding j (of_update (· = _) hj hq.2)

theorem call (h : s.Group) {j : Nat} {q : SudpCloseCall} (hq : q = .returned → s.workers = 0) : (s.call j q).Group := by
  refine { h with returned := fun i hi => ?_ }
  rcases update_cases (· = _) hi with ⟨-, hi⟩ | ⟨-, hi⟩
  · exact hq hi
  · exact h.returned i hi

theorem moveDispatcher (h : s.Group) {p : SudpDispatcherPc} (hp : s.dispatcher = p) (hpc : p ≠ .off ∧ p ≠ .reserved)
    (hd : t.dispatcher.counted = p.counted)
    (hsame : t.lifecycle = s.lifecycle ∧ t.runs = s.runs ∧ t.forward = s.forward ∧ t.workers = s.workers ∧
      t.closeCalls = s.closeCalls) : t.Group := by
  cases t
  obtain ⟨rfl, rfl, rfl, rfl, rfl⟩ := hsame
  refine ⟨fun hs => absurd hs (h.begun (.inl (hp ▸ hpc.1))), fun j hj => ?_, h.forwarding, h.forward, ?_, h.returned⟩
  · exact absurd (hp.symm.trans (h.spawning j hj).1) hpc.2
  · rw [hd, ← hp]; exact h.workers

theorem moveForward (h : s.Group) {a : ForwardAct} {f : Forward} (hst : ForwardStep s.forward a f) (hf : t.forward = f)
    (hsame : t.lifecycle = s.lifecycle ∧ t.runs = s.runs ∧ t.dispatcher = s.dispatcher ∧ t.closeCalls = s.closeCalls)
    (hw : t.workers = (s.dispatcher.counted.toNat + f.counted.toNat : Nat))
    (hret : ∀ j, s.closeCalls j = .returned → t.workers = 0) : t.Group := by
  cases t
  subst hf
  obtain ⟨rfl, rfl, rfl, rfl⟩ := hsame
  refine ⟨fun hs => absurd hs (h.begun (.inr hst.begun.1)), fun j hj => ?_, fun j hj => ?_, hst.ok h.forward, hw, hret⟩
  · exact absurd (h.spawning j hj).2 hst.begun.2
  · exact absurd (h.forwarding j hj) hst.begun.2

end Group

end SudpVisitor

theorem SudpStep.group (hst : SudpStep s e t) (hc : s.Calls) (h : s.Group) : t.Group := by
  cases hst with
  | run _ hl => exact h.moveRun rfl ⟨by simp, by simp⟩ ⟨rfl, rfl, rfl, rfl⟩ fun _ => .inl hl
  | refuse | resolve | resolveFails | listen | listenFails | commitLate | drop | failLate | failBase =>
    exact h.moveRun rfl ⟨by simp, by simp⟩ ⟨rfl, rfl, rfl, rfl⟩ id
  | failStartup => exact h.moveRun rfl ⟨by simp, by simp⟩ ⟨rfl, rfl, rfl, rfl⟩ (by simp)
  | commit c hp hl =>
    obtain ⟨hd, hf⟩ := h.before (.inr hl)
    have hw := h.workers
    rw [hd] at hw
    refine ⟨by simp, fun _ _ => ⟨rfl, rfl⟩, fun _ _ => rfl, ⟨fun _ => rfl, by simp⟩, ?_, fun j hj => ?_⟩
    · simp only [hw, counted, hf]; rfl
    · have hclosed := hc.called j (by rw [show s.closeCalls j = .returned from hj]; simp)
      rw [hl] at hclosed; cases hclosed
  | @spawnDispatcher i hp =>
    obtain ⟨hd, hf⟩ := h.spawning i hp
    refine ⟨fun hs => absurd hs (h.begun (.inl (by rw [hd]; simp))), fun j hj => ?_, fun j hj => ?_, h.forward, ?_,
      h.returned⟩
    · refine absurd hj (update_clears (· = _) (fun k hk => ?_) (by simp) j)
      exact hc.single k i (hk ▸ rfl) (hp ▸ rfl)
    · rcases update_cases (· = _) hj with ⟨-, -⟩ | ⟨-, hj⟩
      · exact hf
      · exact h.forwarding j hj
    · have hw := h.workers
      rw [hd] at hw; exact hw
  | @spawnForward i hp =>
    have hf := h.forwarding i hp
    refine ⟨fun hs => absurd hs (h.begun (.inr (by rw [hf]; simp))), fun j hj => ?_, fun j hj => ?_, ⟨by simp [started],
      by simp [started]⟩, ?_, h.returned⟩
    · refine absurd hj (update_clears (· = _) (fun k hk => ?_) (by simp) j)
      exact hc.single k i (hk ▸ rfl) (hp ▸ rfl)
    · refine absurd hj (update_clears (· = _) (fun k hk => ?_) (by simp) j)
      exact hc.single k i (hk ▸ rfl) (hp ▸ rfl)
    · have hw := h.workers
      simp only [counted, hf] at hw; exact hw
  | @closeFirst j =>
    have hcall := h.call (j := j) (q := .first) (by simp)
    exact { hcall with before := by simp }
  | closeAgain | closeWait => exact h.call (by simp)
  | closeReturns _ hw => exact h.call fun _ => hw
  | dispatcherDone hp =>
    have hw := h.workers
    rw [hp] at hw
    have hret : ∀ j, s.closeCalls j ≠ .returned := fun j hj => by
      have h0 := h.returned j hj
      simp only [SudpDispatcherPc.counted, Bool.toNat_true] at hw; omega
    refine ⟨fun hs => absurd hs (h.begun (.inl (by rw [hp]; simp))), fun j hj => ?_, h.forwarding, h.forward, ?_,
      fun j hj => absurd hj (hret j)⟩
    · rw [(h.spawning j hj).1] at hp; cases hp
    · simp only [SudpDispatcherPc.counted, Bool.toNat_true, Bool.toNat_false] at hw ⊢; omega
  | forward f hst =>
    refine h.moveForward hst rfl ⟨rfl, rfl, rfl, rfl⟩ ?_ h.returned
    rw [hst.silent.1]; exact h.workers
  | forwardClose c f hst =>
    refine h.moveForward hst rfl ⟨rfl, rfl, rfl, rfl⟩ ?_ h.returned
    rw [hst.closeSocket]; exact h.workers
  | forwardDone f hst =>
    obtain ⟨hc, hc', -⟩ := hst.ended
    have hw := h.workers
    rw [hc] at hw
    simp only [Bool.toNat_true] at hw
    refine h.moveForward hst rfl ⟨rfl, rfl, rfl, rfl⟩ ?_ fun j hj => ?_
    · simp only [hc', Bool.toNat_false]; omega
    · have h0 := h.returned j hj
      omega
  | closeBase | closeSocket | noSocket | produce => exact { h with }
  | packet hp | selectClosed hp | take _ _ _ hp | waitClosed _ hp | tookClosed _ _ hp | cancel _ _ _ hp | recycle _ _ hp
  | recycled hp | tookError _ hp | tookConn _ _ hp | retry hp | retryClosed hp | workerFails _ hp | worker _ hp
  | watch _ _ hp | goEnds _ _ _ hp | goCloses _ _ _ hp | workerDone _ _ hp | finish _ hp | checkClosed hp
  | checkOpen hp => exact h.moveDispatcher hp ⟨by simp, by simp⟩ rfl ⟨rfl, rfl, rfl, rfl, rfl⟩

namespace SudpVisitor

/-! ## Sockets -/

def HoldsSocket (s : SudpVisitor) (c : Nat) : Prop :=
  (∃ i, (s.runs i).socket = some c) ∨ s.udpConn = some c ∧ s.forward.holds = true

theorem socket_update {f : Nat → SudpRunPc} (i : Nat) (q : SudpRunPc) {c : Nat} (h : ∃ j, (f j).socket = some c) :
    (f i).socket = some c ∨ ∃ j, (update f i q j).socket = some c := by
  obtain ⟨j, hj⟩ := h
  by_cases hji : j = i
  · exact .inl (hji ▸ hj)
  · exact .inr ⟨j, by rwa [update_of_ne hji]⟩

theorem HoldsSocket.moveRun {c i : Nat} {p q : SudpRunPc} (h : s.HoldsSocket c) (hp : s.runs i = p)
    (hr : t.runs = update s.runs i q) (hq : p.socket = some c → t.HoldsSocket c)
    (hsame : t.udpConn = s.udpConn ∧ (s.forward.holds = true → t.forward.holds = true)) : t.HoldsSocket c := by
  rcases h with hrun | ⟨hu, hf⟩
  · rcases socket_update i q hrun with hi | hrun
    · exact hq (hp ▸ hi)
    · exact .inl (hr ▸ hrun)
  · exact .inr ⟨hsame.1.trans hu, hsame.2 hf⟩

end SudpVisitor

attribute [local simp] SudpRunPc.socket

theorem SudpStep.sockets (hst : SudpStep s e t) (hg : s.Group)
    (h : s.socks.Covered s.HoldsSocket) : t.socks.Covered t.HoldsSocket := by
  cases hst with
  | run hp | refuse hp | resolve hp | resolveFails hp | listenFails hp | failStartup hp | failLate hp
  | failBase hp | spawnDispatcher hp => exact h.mono fun c hc => hc.moveRun hp rfl (by simp) ⟨rfl, id⟩
  | @listen i hp =>
    exact h.acquire (fun c hc => hc.moveRun hp rfl (by simp) ⟨rfl, id⟩)
      (.inl ⟨i, by simp [goto]⟩)
  | @commit i c hp hl =>
    refine h.mono fun d hd => ?_
    have hoff : s.forward.holds = false := by simp [holds, (hg.before (.inr hl)).2]
    rcases hd with hrun | ⟨-, hf⟩
    · rcases socket_update i .spawnDispatcher hrun with hi | hrun
      · rw [hp] at hi; exact .inr ⟨hi, rfl⟩
      · exact .inl hrun
    · rw [hoff] at hf; cases hf
  | @commitLate i c hp =>
    exact h.mono fun d hd => hd.moveRun hp rfl (fun hi => .inl ⟨i, by simpa [goto] using hi⟩) ⟨rfl, id⟩
  | drop c hp =>
    exact h.close fun d hne hd =>
      hd.moveRun hp rfl (fun hi => absurd (Option.some.inj hi).symm hne) ⟨rfl, id⟩
  | spawnForward hp => exact h.mono fun c hc => hc.moveRun hp rfl (by simp) ⟨rfl, fun _ => rfl⟩
  | closeSocket => exact h.close fun d _ hd => hd
  | forward f hst =>
    refine h.mono fun c hc => hc.imp_right fun hf => ⟨hf.1, ?_⟩
    rw [hst.silent.2]; exact hf.2
  | forwardClose c f hst hu =>
    refine h.close fun d hne hd => hd.imp_right fun hf => ?_
    exact absurd (Option.some.inj (hu.symm.trans hf.1)).symm hne
  | forwardDone f hst =>
    refine h.mono fun c hc => hc.imp_right fun hf => ?_
    exact absurd (hst.ended.2.2.symm.trans hf.2) Bool.false_ne_true
  | _ => exact h

/-! ## Connections -/

namespace SudpVisitor

structure Conns (s : SudpVisitor) : Prop where
  covered : s.conns.Covered fun c => HeldIn s.requests c ∨ c ∈ s.dispatcher.held
  requests : DeliveriesOk s.requests s.dispatcher.waits

namespace Conns

theorem init (h : s.Init) : s.Conns := by
  subst h; exact ⟨nofun, .nil⟩

variable {p : SudpDispatcherPc}

theorem move (h : s.Conns) (hp : s.dispatcher = p)
    (hsame : t.conns = s.conns ∧ t.requests = s.requests) (hheld : ∀ c ∈ p.held, c ∈ t.dispatcher.held)
    (hw : t.dispatcher.waits = p.waits ∨ p.waits = none) : t.Conns := by
  subst hp
  refine ⟨?_, ?_⟩
  · rw [hsame.1, hsame.2]; exact h.covered.mono fun c hc => hc.imp_right (hheld c)
  · rw [hsame.2]
    rcases hw with hw | hw
    · rw [hw]; exact h.requests
    · exact (hw ▸ h.requests).waitFor _

theorem request (h : s.Conns) (hp : s.dispatcher = p) (hheld : p.held = []) (hw : p.waits = none) :
    s.request.Conns := by
  subst hp
  refine ⟨h.covered.mono fun c hc => .inl ?_, (hw ▸ h.requests).new⟩
  rcases hc with hc | hc
  · exact hc.append _
  · rw [hheld] at hc; cases hc

theorem close (h : s.Conns) {c : Nat} (hp : s.dispatcher = p)
    (hsame : t.conns = s.conns.close c ∧ t.requests = s.requests) (hheld : ∀ d ∈ p.held, d ≠ c → d ∈ t.dispatcher.held)
    (hw : t.dispatcher.waits = p.waits) : t.Conns := by
  subst hp
  refine ⟨?_, ?_⟩
  · rw [hsame.1, hsame.2]
    exact h.covered.close fun d hne hd => hd.imp_right fun hd => hheld d hd hne
  · rw [hsame.2, hw]; exact h.requests

end Conns

end SudpVisitor

attribute [local simp] SudpDispatcherPc.held

theorem SudpStep.connections (hst : SudpStep s e t) (hg : s.Group) (h : s.Conns) : t.Conns := by
  cases hst with
  | commit c hp hl => exact h.move (hg.before (.inr hl)).1 ⟨rfl, rfl⟩ (by simp) (.inl rfl)
  | @spawnDispatcher i hp => exact h.move (hg.spawning i hp).1 ⟨rfl, rfl⟩ (by simp) (.inl rfl)
  | packet hp | retry hp => exact h.request hp rfl rfl
  | selectClosed hp | recycled hp | tookError _ hp | retryClosed hp | checkClosed hp | checkOpen hp
  | dispatcherDone hp | waitClosed _ hp => exact h.move hp ⟨rfl, rfl⟩ (by simp) (.inl rfl)
  | take k d r hp hk hr =>
    refine ⟨h.covered.mono fun c hc => ?_, ?_⟩
    · rcases hc with hc | hc
      · exact (hc.take hk hr (h.requests.ok k d hk)).imp_right fun hc => by simp [hc]
      · rw [hp] at hc; cases hc
    · have hw := h.requests
      rw [hp] at hw; exact hw.settle hk d.ok_take ((hw.ok k d hk).settled_take hr)
  | tookClosed k r hp => exact h.move hp ⟨rfl, rfl⟩ (fun _ hc => hc) (.inr rfl)
  | cancel k o d hp hk =>
    refine ⟨h.covered.mono fun c hc => ?_, ?_⟩
    · rcases hc with hc | hc
      · exact (hc.cancel hk).imp_right fun hc => by simp [hc]
      · rw [hp] at hc; exact .inr (List.mem_append_right _ hc)
    · have hw := h.requests
      rw [hp] at hw; exact hw.settle hk d.ok_cancel (.inl rfl)
  | recycle c l hp =>
    exact h.close hp ⟨rfl, rfl⟩ (fun d hd hne => (List.mem_cons.mp hd).resolve_left hne) rfl
  | tookConn k c hp => exact h.move hp ⟨rfl, rfl⟩ (fun _ hc => by simpa using hc) (.inl rfl)
  | worker c hp | watch c w hp | goEnds c w g hp
  | workerDone c w hp => exact h.move hp ⟨rfl, rfl⟩ (fun _ hc => hc) (.inl rfl)
  | workerFails c hp | goCloses c w g hp => exact h.close hp ⟨rfl, rfl⟩ (fun _ hd _ => hd) rfl
  | finish c hp => exact h.close hp ⟨rfl, rfl⟩ (fun d hd hne => absurd (List.mem_singleton.mp hd) hne) rfl
  | produce k d d' l hk hp => exact ⟨HeldIn.produce hk hp h.covered, h.requests.produce hk hp⟩
  | _ => exact ⟨h.covered, h.requests⟩

/-! ## The service -/

structure SudpVisitor.Inv (s : SudpVisitor) : Prop where
  calls : s.Calls
  group : s.Group
  sockets : s.socks.Covered s.HoldsSocket
  conns : s.Conns

theorem SudpVisitor.inv_of_reach (h : Reach Init SudpStep s) : s.Inv := by
  refine h.invariant (fun _ h0 => ⟨.init h0, .init h0, ?_, .init h0⟩) fun _ _ _ _ hi hst =>
    ⟨hst.calls hi.calls, hst.group hi.calls hi.group, hst.sockets hi.group hi.sockets,
      hst.connections hi.group hi.conns⟩
  subst h0
  nofun

def SudpRunPc.state : SudpRunPc → CallState
  | idle => .idle
  | ok => .ok
  | failed | refused => .failed
  | _ => .pending

variable {p : SudpRunPc}

theorem SudpRunPc.state_of_socket {c : Nat} (h : p.socket = some c) : p.state = .pending := by
  cases p <;> first | rfl | cases h

theorem SudpRunPc.owns_of_ok (h : p.state = .ok) : p.owns = true := by
  cases p <;> first | rfl | cases h

theorem SudpRunPc.eq_idle (h : p.state = .idle) : p = .idle := by
  cases p <;> first | rfl | cases h

def SudpCloseCall.state : SudpCloseCall → CallState
  | idle => .idle
  | returned => .ok
  | _ => .pending

theorem SudpCloseCall.eq_returned {p : SudpCloseCall} (h : p.state = .ok) : p = .returned := by
  cases p <;> first | rfl | cases h

def sudpService : Service SudpVisitor SudpEvent where
  init := SudpVisitor.Init
  step := SudpStep
  run s i := (s.runs i).state
  close s j := (s.closeCalls j).state
  closes s := s.closes
  socketOpen s := ∃ c, c < s.socks.next ∧ s.socks.closed c = false
  alive s := s.dispatcher.counted = true ∨ s.forward.alive
  obtained s c := c < s.conns.next
  closed s c := s.conns.closed c = true
  owes s e c := ∃ k, e = .producer k ∧ OwedBy s.requests k c

theorem SudpStep.out_of_closed (hst : SudpStep s e t) {i : Nat}
    (h : s.lifecycle = .closed ∧ (s.runs i = .idle ∨ s.runs i = .refused)) :
    t.lifecycle = .closed ∧ (t.runs i = .idle ∨ t.runs i = .refused) := by
  obtain ⟨hl, hi⟩ := h
  let out (p : SudpRunPc) : Prop := p = .idle ∨ p = .refused
  have hother : ∀ {j p q}, s.runs j = p → ¬ out p → out (update s.runs j q i) := by
    intro j p q hp hout; exact update_keeps out hi fun hj => absurd (hp ▸ hj) hout
  cases hst with
  | run _ hn | commit _ _ hn | failStartup _ hn => rw [hl] at hn; cases hn
  | refuse => exact ⟨hl, update_keeps out hi fun _ => .inr rfl⟩
  | resolve hp | resolveFails hp | listen hp | listenFails hp | commitLate _ hp | drop _ hp | spawnDispatcher hp
  | spawnForward hp | failLate hp | failBase hp => exact ⟨hl, hother hp (by simp [out])⟩
  | closeFirst => exact ⟨rfl, hi⟩
  | _ => exact ⟨hl, hi⟩

theorem none_counted {a b : Bool} (h : (0 : Int) = (a.toNat + b.toNat : Nat)) : a = false ∧ b = false := by
  cases a <;> cases b <;> simp at h ⊢

theorem SudpVisitor.Inv.of_over (h : s.Inv) (hover : sudpService.Over s) :
    ¬ sudpService.socketOpen s ∧ ¬ sudpService.alive s ∧
      ∀ c, sudpService.obtained s c →
        sudpService.closed s c ∨ ∃ e, sudpService.owes s e c ∨ sudpService.waits s e c := by
  obtain ⟨⟨j, hj⟩, hruns, -⟩ := hover
  have hcount := h.group.workers
  rw [h.group.returned j (SudpCloseCall.eq_returned hj)] at hcount
  obtain ⟨hd, hf⟩ := none_counted hcount
  obtain ⟨hheld, hwaits⟩ := SudpDispatcherPc.nothing_of_not_counted hd
  refine ⟨?_, ?_, fun c hc => ?_⟩
  · rintro ⟨c, hc, hopen⟩
    rcases h.sockets c hc with hcl | ⟨i, hi⟩ | ⟨-, hfw⟩
    · rw [hopen] at hcl; cases hcl
    · exact hruns i (state_of_socket hi)
    · rw [counted_of_holds hfw] at hf; cases hf
  · rintro (hdc | hfa)
    · rw [hd] at hdc; cases hdc
    · exact h.group.forward.not_alive hf hfa
  · rcases h.conns.covered c hc with hcl | ⟨k, d, hk, hdc⟩ | hm
    · exact .inl hcl
    · have hset := h.conns.requests.settled k d hk (by rw [hwaits]; nofun)
      obtain ⟨hcan, howes⟩ := hset.owes (h.conns.requests.ok k d hk) hdc
      exact .inr ⟨_, .inl ⟨k, rfl, d, hk, hcan, howes⟩⟩
    · rw [hheld] at hm; cases hm

theorem SudpStep.sameProducer {k : Nat} (hst : SudpStep s e t) (hne : e ≠ .producer k) :
    SameProducer s.requests t.requests k := by
  cases hst with
  | packet | retry => exact .append _
  | take j d r _ hj => exact .set hj fun _ => ⟨rfl, id⟩
  | cancel j o d _ hj => exact .set hj fun _ => ⟨rfl, fun _ => rfl⟩
  | produce j d d' l hj => exact .set hj fun hjk => absurd (hjk ▸ rfl) hne
  | _ => exact .refl

theorem sudp_owed_closes (ρ : Run SudpStep) {n k c : Nat} (ho : OwedBy (ρ.state n).requests k c)
    (hf : ρ.Fair (· = .producer k)) : ∃ m, n ≤ m ∧ (ρ.state m).conns.closed c = true := by
  refine hf.reaches (P := fun s => OwedBy s.requests k c) (G := fun s => s.conns.closed c = true)
    (fun s => owedRank s.requests k) ?_ ?_ n ho
  · intro s e t ho _ hst
    by_cases he : e = .producer k
    · subst he
      cases hst with
      | produce _ d d' l hk hp =>
        exact (ho.produce hk hp).imp_right fun ⟨ho', hlt⟩ => ⟨ho', Nat.le_of_lt hlt, fun _ => hlt⟩
    · obtain ⟨ho', heq⟩ := (hst.sameProducer he).owed ho
      exact .inr ⟨ho', Nat.le_of_eq heq, fun hmine => absurd hmine he⟩
  · rintro s ⟨d, hk, hcan, hc⟩ -
    obtain ⟨d', l, hp⟩ := hc.produces hcan s.conns
    exact ⟨_, _, rfl, .produce k d d' l hk hp⟩

theorem sudp_sound : sudpService.Sound where
  once s hs := by
    rcases (SudpVisitor.inv_of_reach hs).calls.closes with ⟨-, hc⟩ | ⟨-, hc⟩
    · exact Nat.le_of_eq hc
    · exact Nat.le_trans (Nat.le_of_eq hc) (Nat.zero_le 1)
  single s hs i j hi hj :=
    (SudpVisitor.inv_of_reach hs).calls.single i j (owns_of_ok hi) (owns_of_ok hj)
  late s hs i j hj hi t ht := by
    have hclosed : s.lifecycle = .closed :=
      (SudpVisitor.inv_of_reach hs).calls.called j fun hc => hj (congrArg SudpCloseCall.state hc)
    have hout := ht.invariant (I := fun t => t.lifecycle = .closed ∧ (t.runs i = .idle ∨ t.runs i = .refused))
      (fun u hu => hu ▸ ⟨hclosed, .inl (eq_idle hi)⟩) fun _ _ _ _ hu hst => SudpStep.out_of_closed hst hu
    exact hout.2.imp (congrArg state) (congrArg state)
  ended s hs := (SudpVisitor.inv_of_reach hs).of_over
  paid ρ _ n e c := by
    rintro ⟨k, rfl, ho⟩ hf
    exact sudp_owed_closes ρ ho hf
  woken _ _ _ _ _ h := h.elim

end Frp
