import Frp.SudpVisitorSound
import Frp.VisitorSound
import Frp.XudpVisitor

/-!
# The lives of the two visitors

The XUDP visitor is started under its lock and counts its dispatcher and its forwarder in
the wait group. When the dispatcher has ended, every transport has been joined and is
closed.
-/

namespace Frp

open Function

variable {α : Type*}

open XudpRunPc

/-! ## Places -/

namespace XudpRunPc

def owns : XudpRunPc → Bool
  | idle | refused => false
  | _ => true

def locked : XudpRunPc → Bool
  | resolving | listening | spawnDispatcher | spawnForward | unlocking => true
  | _ => false

def young : XudpRunPc → Bool
  | resolving | listening => true
  | _ => false

theorem owns_of_locked {p : XudpRunPc} (h : p.locked = true) : p.owns = true := by
  cases p <;> first | rfl | cases h

theorem owns_of_young {p : XudpRunPc} (h : p.young = true) : p.owns = true := by
  cases p <;> first | rfl | cases h

end XudpRunPc

namespace XudpClosing

def locked : XudpClosing → Bool
  | cancel | socket | channel => true
  | _ => false

def early : XudpClosing → Bool
  | idle | cancel | socket | channel => true
  | _ => false

end XudpClosing

def XudpDispatcherPc.counted : XudpDispatcherPc → Bool
  | off | ended => false
  | _ => true

namespace DialHand

def held : DialHand → List Nat
  | took _ r => r.toList
  | cancelling _ o => o.toList
  | recycling l | many _ l => l
  | listen c | conn c => [c]
  | _ => []

def waits : DialHand → Option Nat
  | waiting k | cancelling k _ => some k
  | _ => Option.none

def dials : DialHand → Bool
  | none | conn _ => false
  | _ => true

end DialHand

theorem Grip.Fits.dial {g : Grip} {h h' : DialHand} (hf : g.Fits h) (hd : h.dials = true) (hne : h' ≠ .none) :
    g.Fits h' := by
  cases g with
  | dial => exact hne
  | none =>
    cases hf
    cases hd
  | conn =>
    obtain ⟨c, rfl⟩ := hf
    cases hd
  | relay => rcases hf with rfl | ⟨c, rfl⟩ <;> cases hd

namespace XudpVisitor

variable {s t : XudpVisitor α}

/-! ## Run and Close -/

structure Calls (s : XudpVisitor α) : Prop where
  single : ∀ i j, (s.runs i).owns = true → (s.runs j).owns = true → i = j
  free : s.runOnce = false → ∀ i, (s.runs i).owns = false
  locked : ∀ i, (s.runs i).locked = true → s.mu = true ∧ s.closed = false
  closing : s.close.locked = true → s.mu = true
  closed : s.closed = false → s.close = .idle
  called : ∀ j, s.closeCalls j ≠ .idle → s.closed = true
  returned : ∀ j, s.closeCalls j = .returned → s.close = .done
  early : s.close.early = true → s.closes = 0
  closes : s.closes ≤ 1

namespace Calls

theorem init (h : s.Init) : s.Calls := by
  subst h
  exact ⟨nofun, fun _ _ => rfl, nofun, nofun, fun _ => rfl, fun _ hj => absurd rfl hj, nofun, fun _ => rfl,
    Nat.zero_le 1⟩

theorem not_locked (h : s.Calls) (hmu : s.mu = false) (i : Nat) : (s.runs i).locked = false := by
  refine Bool.eq_false_iff.mpr fun hl => ?_
  rw [(h.locked i hl).1] at hmu; cases hmu

theorem moveRun (h : s.Calls) {i : Nat} {p q : XudpRunPc} (hp : s.runs i = p) (hown : p.owns = true)
    (hr : t.runs = update s.runs i q) (hmu : p.locked = true) (hl : t.mu = q.locked)
    (hsame : t.runOnce = s.runOnce ∧ t.closed = s.closed ∧ t.close = s.close ∧ t.closeCalls = s.closeCalls ∧
      t.closes = s.closes) : t.Calls := by
  obtain ⟨-, hopen⟩ := h.locked i (hp ▸ hmu)
  cases t
  subst hr
  obtain ⟨rfl, rfl, rfl, rfl, rfl⟩ := hsame
  have hback : ∀ j, (update s.runs i q j).owns = true → (s.runs j).owns = true := by
    intro j hj
    rcases update_cases (XudpRunPc.owns · = true) hj with ⟨rfl, -⟩ | ⟨-, hj⟩
    · rw [hp]; exact hown
    · exact hj
  refine ⟨fun j k hj hk => h.single j k (hback j hj) (hback k hk), fun hf j => ?_, fun j hj => ?_, fun hc => ?_,
    h.closed, h.called, h.returned, h.early, h.closes⟩
  · exact Bool.eq_false_iff.mpr fun hj => Bool.false_ne_true ((h.free hf j).symm.trans (hback j hj))
  · rcases update_cases (XudpRunPc.locked · = true) hj with ⟨-, hq⟩ | ⟨hji, hj⟩
    · exact ⟨hl.trans hq, hopen⟩
    · exact absurd (h.single j i (XudpRunPc.owns_of_locked hj) (hp ▸ hown)) hji
  · rw [h.closed hopen] at hc; cases hc

theorem moveClose (h : s.Calls) {p : XudpClosing} (hp : s.close = p) (hpne : p ≠ .idle ∧ p ≠ .done)
    (hsame : t.runs = s.runs ∧ t.runOnce = s.runOnce ∧ t.closed = s.closed ∧ t.closeCalls = s.closeCalls)
    (hmu : t.mu = s.mu ∨ t.mu = false ∧ p.locked = true ∧ t.close.locked = false)
    (hlock : t.close.locked = true → p.locked = true)
    (hearly : t.close.early = true → p.early = true ∧ t.closes = s.closes) (hle : t.closes ≤ 1) : t.Calls := by
  have hclosed : s.closed = true := by
    refine Bool.not_eq_false _ |>.mp fun hf => hpne.1 ?_
    rw [← hp]; exact h.closed hf
  cases t
  obtain ⟨rfl, rfl, rfl, rfl⟩ := hsame
  refine ⟨h.single, h.free, fun i hi => ?_, fun hl => ?_, fun hf => ?_, h.called, fun j hj => ?_, fun he => ?_, hle⟩
  · exact absurd ((h.locked i hi).2.symm.trans hclosed) Bool.false_ne_true
  · rcases hmu with hmu | ⟨-, -, hno⟩
    · exact hmu.trans (h.closing (hp ▸ hlock hl))
    · exact absurd (hno.symm.trans hl) Bool.false_ne_true
  · exact absurd (hf.symm.trans hclosed) Bool.false_ne_true
  · exact absurd (hp.symm.trans (h.returned j hj)) hpne.2
  · obtain ⟨hpe, heq⟩ := hearly he
    exact heq.trans (h.early (hp ▸ hpe))

end Calls

end XudpVisitor

open XudpVisitor

variable {s t : XudpVisitor α} {e : XudpVisitorEvent α}

attribute [local simp] XudpClosing.locked XudpClosing.early

theorem XudpVisitorStep.calls (hst : XudpVisitorStep s e t) (h : s.Calls) : t.Calls := by
  cases hst with
  | @run i hp hmu hc ho =>
    have hown : ∀ j, (update s.runs i .resolving j).owns = true → j = i := by
      intro j hj
      rcases update_cases (owns · = true) hj with ⟨hji, -⟩ | ⟨-, hj⟩
      · exact hji
      · rw [h.free ho j] at hj; cases hj
    refine { h with
      single := fun j k hj hk => (hown j hj).trans (hown k hk).symm
      free := (by simp), locked := fun j _ => ⟨rfl, hc⟩, closing := fun _ => rfl }
  | @refuse i hp =>
    have hsame : ∀ j, (update s.runs i .refused j).owns = (s.runs j).owns ∧
        (update s.runs i .refused j).locked = (s.runs j).locked := by
      intro j; exact ⟨update_same _ (hp ▸ rfl) j, update_same _ (hp ▸ rfl) j⟩
    refine { h with
      single := fun j k hj hk => ?_
      free := fun hf j => (hsame j).1.trans (h.free hf j)
      locked := fun j hj => ?_ }
    · exact h.single j k ((hsame j).1.symm.trans hj) ((hsame k).1.symm.trans hk)
    · exact h.locked j ((hsame j).2.symm.trans hj)
  | @resolve i hp | @listen i hp | @spawnDispatcher i hp | @spawnForward i hp =>
    exact h.moveRun hp rfl rfl rfl (h.locked i (hp ▸ rfl)).1 ⟨rfl, rfl, rfl, rfl, rfl⟩
  | resolveFails hp | listenFails hp | unlock hp => exact h.moveRun hp rfl rfl rfl rfl ⟨rfl, rfl, rfl, rfl, rfl⟩
  | closeFirst hj hmu hc =>
    have hnone := h.not_locked hmu
    have hidle := h.closed hc
    refine ⟨h.single, h.free, fun i hi => ?_, fun _ => rfl, (by simp), fun _ _ => rfl, fun k hk => ?_, fun _ => ?_,
      h.closes⟩
    · have hi : (s.runs i).locked = true := hi
      rw [hnone i] at hi; cases hi
    · rcases update_cases (· = _) hk with ⟨-, hk⟩ | ⟨-, hk⟩
      · cases hk
      · rw [h.returned k hk] at hidle; cases hidle
    · exact h.early (hidle ▸ rfl)
  | closeNext hj _ hc =>
    refine { h with called := fun _ _ => hc, returned := fun k hk => ?_ }
    exact h.returned k (of_update (· = _) hk nofun)
  | closeReturns hj hd =>
    exact { h with called := fun _ _ => h.called _ (by rw [hj]; simp), returned := fun _ _ => hd }
  | cancel hp | cancelNone hp | closeSocket hp =>
    exact h.moveClose hp ⟨by simp, by simp⟩ ⟨rfl, rfl, rfl, rfl⟩ (.inl rfl) (fun _ => rfl)
      (fun _ => ⟨rfl, rfl⟩) h.closes
  | closeChannel hp =>
    refine h.moveClose hp ⟨by simp, by simp⟩ ⟨rfl, rfl, rfl, rfl⟩ (.inr ⟨rfl, rfl, rfl⟩) (by simp)
      (by simp) ?_
    exact Nat.le_of_eq (congrArg (· + 1) (h.early (hp ▸ rfl)))
  | noChannel hp =>
    exact h.moveClose hp ⟨by simp, by simp⟩ ⟨rfl, rfl, rfl, rfl⟩ (.inr ⟨rfl, rfl, rfl⟩) (by simp)
      (by simp) h.closes
  | closersRun hp | wait hp =>
    exact h.moveClose hp ⟨by simp, by simp⟩ ⟨rfl, rfl, rfl, rfl⟩ (.inl rfl) (by simp) (by simp) h.closes
  | _ => exact { h with }

namespace XudpVisitor

/-! ## The wait group -/

structure Group (s : XudpVisitor α) : Prop where
  fresh : s.runOnce = false → s.started = false
  young : ∀ i, (s.runs i).young = true → s.started = false
  before : s.started = false → s.dispatcher = .off ∧ s.forward.main = .off
  spawning : ∀ i, s.runs i = .spawnDispatcher → s.dispatcher = .reserved ∧ s.forward.main = .reserved
  forwarding : ∀ i, s.runs i = .spawnForward → s.forward.main = .reserved
  forward : s.forward.Ok
  workers : s.workers = (s.dispatcher.counted.toNat + s.forward.counted.toNat : Nat)
  done : s.close = .done → s.workers = 0
  socket : s.sock = some false → s.forward.holds = true

namespace Group

theorem init (h : s.Init) : s.Group := by
  subst h
  exact ⟨fun _ => rfl, nofun, fun _ => ⟨rfl, rfl⟩, nofun, nofun, ⟨fun _ => rfl, by simp⟩, rfl, nofun, nofun⟩

theorem begun (h : s.Group) (hd : s.dispatcher ≠ .off ∨ s.forward.main ≠ .off) : s.started = true := by
  refine Bool.not_eq_false _ |>.mp fun hf => ?_
  exact hd.elim (fun hd => hd (h.before hf).1) fun hd => hd (h.before hf).2

theorem moveRun (h : s.Group) {i : Nat} {q : XudpRunPc} (hr : t.runs = update s.runs i q)
    (hq : q ≠ .spawnDispatcher ∧ q ≠ .spawnForward) (hyoung : q.young = true → s.started = false)
    (honce : t.runOnce = false → s.runOnce = false)
    (hsame : t.started = s.started ∧ t.dispatcher = s.dispatcher ∧ t.forward = s.forward ∧ t.workers = s.workers ∧
      t.close = s.close ∧ t.sock = s.sock) : t.Group := by
  cases t
  subst hr
  obtain ⟨rfl, rfl, rfl, rfl, rfl, rfl⟩ := hsame
  refine ⟨fun hf => h.fresh (honce hf), fun j hj => ?_, h.before, fun j hj => ?_, fun j hj => ?_, h.forward, h.workers,
    h.done, h.socket⟩
  · rcases update_cases (XudpRunPc.young · = true) hj with ⟨-, hj⟩ | ⟨-, hj⟩
    · exact hyoung hj
    · exact h.young j hj
  · exact h.spawning j (of_update (· = _) hj hq.1)
  · exact h.forwarding j (of_update (· = _) hj hq.2)

theorem moveClose (h : s.Group) (hdone : t.close = .done → s.workers = 0)
    (hsock : t.sock = some false → s.sock = some false)
    (hsame : t.runs = s.runs ∧ t.runOnce = s.runOnce ∧ t.started = s.started ∧ t.dispatcher = s.dispatcher ∧
      t.forward = s.forward ∧ t.workers = s.workers) : t.Group := by
  cases t
  obtain ⟨rfl, rfl, rfl, rfl, rfl, rfl⟩ := hsame
  exact { h with done := hdone, socket := fun hs => h.socket (hsock hs) }

theorem moveForward (h : s.Group) {a : ForwardAct} {f : Forward} (hst : ForwardStep s.forward a f) (hf : t.forward = f)
    (hsame : t.runs = s.runs ∧ t.runOnce = s.runOnce ∧ t.started = s.started ∧ t.dispatcher = s.dispatcher ∧
      t.close = s.close)
    (hw : t.workers = (s.dispatcher.counted.toNat + f.counted.toNat : Nat)) (hdone : s.close = .done → t.workers = 0)
    (hsock : t.sock = some false → f.holds = true) : t.Group := by
  have hstarted := h.begun (.inr hst.begun.1)
  cases t
  subst hf
  obtain ⟨rfl, rfl, rfl, rfl, rfl⟩ := hsame
  refine ⟨h.fresh, h.young, fun hf' => ?_, fun j hj => ?_, fun j hj => ?_, hst.ok h.forward, hw, hdone, hsock⟩
  · exact absurd (hf'.symm.trans hstarted) Bool.false_ne_true
  · exact absurd (h.spawning j hj).2 hst.begun.2
  · exact absurd (h.forwarding j hj) hst.begun.2

end Group

end XudpVisitor

theorem XudpVisitorStep.group (hst : XudpVisitorStep s e t) (hc : s.Calls) (h : s.Group) : t.Group := by
  cases hst with
  | run _ _ _ ho =>
    exact h.moveRun rfl ⟨by simp, by simp⟩ (fun _ => h.fresh ho) (by simp)
      ⟨rfl, rfl, rfl, rfl, rfl, rfl⟩
  | @resolve i hp =>
    exact h.moveRun rfl ⟨by simp, by simp⟩ (fun _ => h.young i (hp ▸ rfl)) id ⟨rfl, rfl, rfl, rfl, rfl, rfl⟩
  | refuse | resolveFails | listenFails | unlock =>
    exact h.moveRun rfl ⟨by simp, by simp⟩ (by simp [young]) id ⟨rfl, rfl, rfl, rfl, rfl, rfl⟩
  | @listen i hp =>
    obtain ⟨hd, hf⟩ := h.before (h.young i (hp ▸ rfl))
    have honce : s.runOnce = true := Bool.not_eq_false _ |>.mp fun ho => by
      have := hc.free ho i
      rw [hp] at this; cases this
    refine ⟨fun ho => ?_, fun j hj => ?_, (by simp), fun _ _ => ⟨rfl, rfl⟩, fun _ _ => rfl, ⟨fun _ => rfl, by simp⟩,
      ?_, fun hdone => ?_, fun _ => rfl⟩
    · rw [show s.runOnce = false from ho] at honce; cases honce
    · rcases update_cases (young · = true) hj with ⟨-, hj⟩ | ⟨hji, hj⟩
      · cases hj
      · exact absurd (hc.single j i (owns_of_young hj) (hp ▸ rfl)) hji
    · have hw := h.workers
      rw [hd] at hw
      simp only [hw, Forward.counted, hf]; rfl
    · have hidle := hc.closed (hc.locked i (hp ▸ rfl)).2
      rw [show s.close = .done from hdone] at hidle; cases hidle
  | @spawnDispatcher i hp =>
    obtain ⟨hd, hf⟩ := h.spawning i hp
    have hstarted := h.begun (.inl (by rw [hd]; simp))
    refine ⟨h.fresh, fun j hj => ?_, fun hs => ?_, fun j hj => ?_, fun j hj => ?_, h.forward, ?_, h.done, h.socket⟩
    · exact h.young j (of_update (young · = true) hj Bool.false_ne_true)
    · rw [show s.started = false from hs] at hstarted; cases hstarted
    · refine absurd hj (update_clears (· = _) (fun k hk => ?_) (by simp) j)
      exact hc.single k i (hk ▸ rfl) (hp ▸ rfl)
    · rcases update_cases (· = _) hj with ⟨-, -⟩ | ⟨-, hj⟩
      · exact hf
      · exact h.forwarding j hj
    · have hw := h.workers
      rw [hd] at hw; exact hw
  | @spawnForward i hp =>
    have hf := h.forwarding i hp
    have hstarted := h.begun (.inr (by rw [hf]; simp))
    refine ⟨h.fresh, fun j hj => ?_, fun hs => ?_, fun j hj => ?_, fun j hj => ?_,
      ⟨by simp [Forward.started], by simp [Forward.started]⟩, ?_, h.done, fun _ => rfl⟩
    · exact h.young j (of_update (young · = true) hj Bool.false_ne_true)
    · rw [show s.started = false from hs] at hstarted; cases hstarted
    · refine absurd hj (update_clears (· = _) (fun k hk => ?_) (by simp) j)
      exact hc.single k i (hk ▸ rfl) (hp ▸ rfl)
    · refine absurd hj (update_clears (· = _) (fun k hk => ?_) (by simp) j)
      exact hc.single k i (hk ▸ rfl) (hp ▸ rfl)
    · have hw := h.workers
      simp only [Forward.counted, hf] at hw; exact hw
  | closeFirst | cancel | cancelNone | closeChannel | noChannel | closersRun =>
    exact h.moveClose (by simp) id ⟨rfl, rfl, rfl, rfl, rfl, rfl⟩
  | closeSocket =>
    refine h.moveClose (by simp) (fun hs => ?_) ⟨rfl, rfl, rfl, rfl, rfl, rfl⟩
    cases hsock : s.sock <;> simp [hsock] at hs
  | wait _ hw => exact h.moveClose (fun _ => hw) id ⟨rfl, rfl, rfl, rfl, rfl, rfl⟩
  | dispatcherDone hd =>
    have hw := h.workers
    rw [hd] at hw
    simp only [XudpDispatcherPc.counted, Bool.toNat_true] at hw
    have hstarted := h.begun (.inl (by rw [hd]; simp))
    refine ⟨h.fresh, h.young, fun hs => ?_, fun j hj => ?_, h.forwarding, h.forward, ?_, fun hdone => ?_, h.socket⟩
    · rw [show s.started = false from hs] at hstarted; cases hstarted
    · rw [(h.spawning j hj).1] at hd; cases hd
    · simp only [XudpDispatcherPc.counted, Bool.toNat_false]; omega
    · have h0 := h.done hdone
      omega
  | forward f hst =>
    refine h.moveForward hst rfl ⟨rfl, rfl, rfl, rfl, rfl⟩ ?_ h.done fun hs => ?_
    · rw [hst.silent.1]; exact h.workers
    · rw [hst.silent.2]; exact h.socket hs
  | forwardClose f hst =>
    refine h.moveForward hst rfl ⟨rfl, rfl, rfl, rfl, rfl⟩ ?_ h.done fun hs => ?_
    · rw [hst.closeSocket]; exact h.workers
    · cases hsock : s.sock <;> simp [hsock] at hs
  | forwardDone f hst =>
    obtain ⟨hcn, hcn', hholds⟩ := hst.ended
    have hw := h.workers
    rw [hcn] at hw
    simp only [Bool.toNat_true] at hw
    refine h.moveForward hst rfl ⟨rfl, rfl, rfl, rfl, rfl⟩ ?_ (fun hdone => ?_) fun hs => ?_
    · simp only [hcn', Bool.toNat_false]; omega
    · have h0 := h.done hdone
      omega
    · rw [h.socket hs] at hholds; cases hholds
  | _ => exact { h with }

/-! ## The session -/

def Event.passive : Event α → Bool
  | .session | .beginSession | .beginTransport => false
  | _ => true

variable {v : Visitor α}

theorem Step.of_passive {v' : Visitor α} {e : Event α} (h : Step v e v') (he : e.passive = true) :
    v'.session = v.session ∧ v'.transports.length = v.transports.length := by
  cases h with
  | @transport k t e => cases e <;> exact ⟨rfl, List.length_set⟩
  | enqueue | full | written | closeStart | closeCh => exact ⟨rfl, rfl⟩
  | _ => cases he

def Transport.Ended (t : Transport α) : Prop :=
  t.main = .joinReader ∨ t.main = .joinSender ∨ t.main = .returned ∨ t.main = .joined → t.closed = true

theorem Transport.Move.ended {t t' : Transport α} (hm : t.Move v t') (h : t.Ended) : t'.Ended := by
  cases hm with
  | same | cancel => exact h
  | join hr => exact fun _ => h (.inr (.inr (.inl hr)))
  | step hst =>
    cases hst with
    | register =>
      intro hm
      simp only [Transport.afterRegister] at hm
      split at hm <;> simp at hm
    | firstGen | firstEpoch | firstOk | firstTooLarge | sentGen | sentEpoch | spawnReader | spawnSender =>
      intro hm; simp at hm
    | joinReader hj => exact fun _ => h (.inl hj)
    | joinSender hj => exact fun _ => h (.inr (.inl hj))
    | registerClosed | firstGenStale | firstEpochStale | firstErr | sentGenStale | sentEpochStale | wake | watch
    | closer => exact fun _ => rfl
    | _ => exact h

theorem Visitor.Reachable.ended (h : v.Reachable) :
    ∀ (k : Nat) (t : Transport α), v.transports[k]? = some t → t.Ended := by
  refine h.invariant (I := fun v => ∀ (k : Nat) (t : Transport α), v.transports[k]? = some t → t.Ended) ?_ ?_
  · rintro _ rfl k t ht
    simp at ht
  · intro v e v' _ hi hst k t ht
    rcases hst.transport_back ht with ⟨x, hx, hm⟩ | ⟨-, hf⟩
    · exact hm.ended (hi k x hx)
    · intro hm; simp [hf.main] at hm

namespace XudpVisitor

structure Session (s : XudpVisitor α) : Prop where
  reach : s.visitor.Reachable
  before : s.dispatcher = .off ∨ s.dispatcher = .reserved → s.visitor.session = .idle
  ended : s.dispatcher = .ended → s.visitor.session = .done

namespace Session

theorem init (h : s.Init) : s.Session := by
  subst h; exact ⟨.start rfl, fun _ => rfl, nofun⟩

theorem step (h : s.Session) {e : Event α} {v : Visitor α} (hst : Step s.visitor e v)
    (he : s.dispatcher = .running ∨ e.passive = true) (hv : t.visitor = v) (hd : t.dispatcher = s.dispatcher) :
    t.Session := by
  refine ⟨?_, fun hb => ?_, fun hb => ?_⟩
  · rw [hv]; exact h.reach.next hst
  · rw [hd] at hb
    rcases he with he | he
    · rw [he] at hb
      rcases hb with hb | hb <;> cases hb
    · rw [hv, (hst.of_passive he).1]; exact h.before hb
  · rw [hd] at hb
    rcases he with he | he
    · rw [he] at hb; cases hb
    · rw [hv, (hst.of_passive he).1]; exact h.ended hb

end Session

theorem Allows.active {e : Event α} (h : s.Allows e) : s.dispatcher = .running ∨ e.passive = true := by
  cases e <;> first | exact .inl h | exact .inr rfl

end XudpVisitor

theorem XudpVisitorStep.session (hst : XudpVisitorStep s e t) (hg : s.Group) (h : s.Session) : t.Session := by
  cases hst with
  | cancel _ _ hst | closeChannel _ _ hst => exact h.step hst (.inr rfl) rfl rfl
  | keep hst ha | request hst ha | lose hst ha | drop _ hst ha | give _ hst ha => exact h.step hst ha.active rfl rfl
  | @listen i hp =>
    exact ⟨h.reach, fun _ => h.before (.inl (hg.before (hg.young i (hp ▸ rfl))).1), (by simp)⟩
  | spawnDispatcher => exact ⟨h.reach, by simp, (by simp)⟩
  | dispatcherDone _ hs => exact ⟨h.reach, by simp, fun _ => hs⟩
  | _ => exact ⟨h.reach, h.before, h.ended⟩

/-! ## Connections -/

namespace XudpVisitor

def HoldsConn (s : XudpVisitor α) (c : Nat) : Prop :=
  HeldIn s.requests c ∨ c ∈ s.hand.held ∨ c ∈ s.holes ∨ c ∈ s.owners

structure Conns (s : XudpVisitor α) : Prop where
  covered : s.conns.Covered s.HoldsConn
  requests : DeliveriesOk s.requests s.hand.waits
  fits : s.visitor.session.grip.Fits s.hand
  owners : s.owners.length = s.visitor.transports.length

namespace Conns

theorem init (h : s.Init) : s.Conns := by
  subst h; exact ⟨nofun, .nil, rfl, rfl⟩

variable {p : DialHand}

theorem dial (h : s.Conns) (hp : s.hand = p) (hd : p.dials = true) (hne : t.hand ≠ .none)
    (hsame : t.visitor = s.visitor ∧ t.owners = s.owners) (hcov : t.conns.Covered t.HoldsConn)
    (hreq : DeliveriesOk t.requests t.hand.waits) : t.Conns := by
  refine ⟨hcov, hreq, ?_, ?_⟩
  · rw [hsame.1]; exact h.fits.dial (hp ▸ hd) hne
  · rw [hsame.1, hsame.2]; exact h.owners

theorem move (h : s.Conns) (hp : s.hand = p) (hd : p.dials = true) (hne : t.hand ≠ .none)
    (hsame : t.visitor = s.visitor ∧ t.owners = s.owners ∧ t.holes = s.holes ∧ t.requests = s.requests ∧
      t.conns = s.conns)
    (hheld : ∀ c ∈ p.held, c ∈ t.hand.held) (hw : t.hand.waits = p.waits ∨ p.waits = none) : t.Conns := by
  obtain ⟨h1, h2, h3, h4, h5⟩ := hsame
  subst hp
  refine h.dial rfl hd hne ⟨h1, h2⟩ ?_ ?_
  · rw [h5]
    refine h.covered.mono fun c hc => ?_
    rw [HoldsConn, h2, h3, h4]; exact hc.imp_right fun hc => hc.imp_left (hheld c)
  · rw [h4]
    rcases hw with hw | hw
    · rw [hw]; exact h.requests
    · exact (hw ▸ h.requests).waitFor _

theorem close (h : s.Conns) {c : Nat} (hp : s.hand = p) (hd : p.dials = true) (hne : t.hand ≠ .none)
    (hsame : t.visitor = s.visitor ∧ t.owners = s.owners ∧ t.requests = s.requests ∧ t.conns = s.conns.close c)
    (hholes : ∀ d ∈ s.holes, d ∈ t.holes) (hheld : ∀ d ∈ p.held, d ≠ c → d ∈ t.hand.held ∨ d ∈ t.holes)
    (hw : t.hand.waits = p.waits) : t.Conns := by
  obtain ⟨h1, h2, h3, h4⟩ := hsame
  subst hp
  refine h.dial rfl hd hne ⟨h1, h2⟩ ?_ ?_
  · rw [h4]
    refine h.covered.close fun d hdc hd => ?_
    rw [HoldsConn, h2, h3]
    rcases hd with hd | hd | hd | hd
    · exact .inl hd
    · exact .inr ((hheld d hd hdc).imp_right .inl)
    · exact .inr (.inr (.inl (hholes d hd)))
    · exact .inr (.inr (.inr hd))
  · rw [h3, hw]; exact h.requests

theorem acquire (h : s.Conns) (hp : s.hand = p) (hfits : s.visitor.session.grip.Fits t.hand)
    (hsame : t.visitor = s.visitor ∧ t.owners = s.owners ∧ t.holes = s.holes ∧ t.requests = s.requests ∧
      t.conns = s.conns.acquire)
    (hheld : ∀ c ∈ p.held, c ∈ t.hand.held) (hnew : s.conns.next ∈ t.hand.held) (hw : t.hand.waits = p.waits) :
    t.Conns := by
  obtain ⟨h1, h2, h3, h4, h5⟩ := hsame
  subst hp
  refine ⟨?_, ?_, h1 ▸ hfits, ?_⟩
  · rw [h5]
    refine h.covered.acquire (fun c hc => ?_) (.inr (.inl hnew))
    rw [HoldsConn, h2, h3, h4]; exact hc.imp_right fun hc => hc.imp_left (hheld c)
  · rw [h4, hw]; exact h.requests
  · rw [h1, h2]; exact h.owners

end Conns

end XudpVisitor

attribute [local simp] DialHand.held

theorem XudpVisitorStep.connections (hst : XudpVisitorStep s e t) (h : s.Conns) : t.Conns := by
  cases hst with
  | cancel _ _ hst | closeChannel _ _ hst =>
    obtain ⟨hs, hl⟩ := hst.of_passive rfl
    exact ⟨h.covered, h.requests, hs ▸ h.fits, h.owners.trans hl.symm⟩
  | keep hst _ hl hfits => exact ⟨h.covered, h.requests, hfits, h.owners.trans hl.symm⟩
  | request hst _ hl hgrip hhand =>
    have hreq := h.requests
    rw [hhand] at hreq
    refine ⟨h.covered.mono fun c hc => ?_, hreq.new, ?_, h.owners.trans hl.symm⟩
    · rcases hc with hc | hc | hc
      · exact .inl (hc.append _)
      · rw [hhand] at hc; cases hc
      · exact .inr (.inr hc)
    · rw [hgrip]; exact DialHand.noConfusion
  | lose hst _ hl hgrip hhand =>
    have hreq := h.requests
    rw [hhand] at hreq
    refine ⟨h.covered.mono fun c hc => ?_, hreq, by rw [hgrip]; rfl, h.owners.trans hl.symm⟩
    exact hc.imp_right fun hc => hc.imp_left fun hc => by rw [hhand] at hc; cases hc
  | drop c hst _ hl hgrip hhand =>
    have hreq := h.requests
    rw [hhand] at hreq
    refine ⟨h.covered.close fun d hdc hd => ?_, hreq, by rw [hgrip]; rfl, h.owners.trans hl.symm⟩
    refine hd.imp_right fun hd => hd.imp_left fun hd => ?_
    rw [hhand] at hd; exact absurd (List.mem_singleton.mp hd) hdc
  | give c hst _ hl hgrip hhand =>
    have hreq := h.requests
    rw [hhand] at hreq
    refine ⟨h.covered.mono fun d hd => ?_, hreq, by rw [hgrip]; rfl, ?_⟩
    · rcases hd with hd | hd | hd | hd
      · exact .inl hd
      · rw [hhand] at hd; exact .inr (.inr (.inr (List.mem_append_right _ hd)))
      · exact .inr (.inr (.inl hd))
      · exact .inr (.inr (.inr (List.mem_append_left _ hd)))
    · rw [List.length_append, List.length_singleton, h.owners]; exact hl.symm
  | take k d r hp hk hr =>
    have hreq := h.requests
    rw [hp] at hreq
    refine h.dial hp rfl (by simp) ⟨rfl, rfl⟩ (h.covered.mono fun c hc => ?_)
      (hreq.settle hk d.ok_take ((hreq.ok k d hk).settled_take hr))
    rcases hc with hc | hc | hc
    · exact (hc.take hk hr (hreq.ok k d hk)).imp_right fun hc => .inl (by simp [hc])
    · rw [hp] at hc; cases hc
    · exact .inr (.inr hc)
  | waitClosed _ hp | recycled hp | tookError _ hp =>
    exact h.move hp rfl (by simp) ⟨rfl, rfl, rfl, rfl, rfl⟩ (by simp) (.inl rfl)
  | tookClosed k r hp => exact h.move hp rfl (by simp) ⟨rfl, rfl, rfl, rfl, rfl⟩ (fun _ hc => hc) (.inr rfl)
  | cancelRequest k o d hp hk =>
    have hreq := h.requests
    rw [hp] at hreq
    refine h.dial hp rfl (by simp) ⟨rfl, rfl⟩ (h.covered.mono fun c hc => ?_) (hreq.settle hk d.ok_cancel (.inl rfl))
    rcases hc with hc | hc | hc
    · exact (hc.cancel hk).imp_right fun hc => .inl (by simp [hc])
    · rw [hp] at hc; exact .inr (.inl (List.mem_append_right _ hc))
    · exact .inr (.inr hc)
  | recycle c l hp =>
    exact h.close hp rfl (by simp) ⟨rfl, rfl, rfl, rfl⟩ (fun _ hd => hd)
      (fun d hd hne => .inl ((List.mem_cons.mp hd).resolve_left hne)) rfl
  | tookConn k c hp =>
    exact h.move hp rfl (by simp) ⟨rfl, rfl, rfl, rfl, rfl⟩ (fun _ hc => by simpa using hc) (.inl rfl)
  | listenConnFails c hp =>
    exact h.close hp rfl (by simp) ⟨rfl, rfl, rfl, rfl⟩ (fun _ hd => hd)
      (fun d hd hne => absurd (List.mem_singleton.mp hd) hne) rfl
  | hole c hp => exact h.move hp rfl (by simp) ⟨rfl, rfl, rfl, rfl, rfl⟩ (fun _ hc => hc) (.inl rfl)
  | firstPort c hp =>
    refine h.acquire hp (h.fits.dial (hp ▸ rfl) (by simp)) ⟨rfl, rfl, rfl, rfl, rfl⟩ (fun d hd => ?_) ?_ rfl
    · exact List.mem_cons.mpr (.inl (List.mem_singleton.mp hd))
    · exact List.mem_cons_of_mem _ (List.mem_singleton.mpr rfl)
  | morePorts c l hp =>
    exact h.acquire hp (h.fits.dial (hp ▸ rfl) (by simp)) ⟨rfl, rfl, rfl, rfl, rfl⟩
      (fun d hd => List.mem_cons_of_mem _ hd) List.mem_cons_self rfl
  | portCloses c d l hp =>
    exact h.close hp rfl (by simp) ⟨rfl, rfl, rfl, rfl⟩ (fun _ hx => hx)
      (fun x hx hne => .inl ((List.mem_erase_of_ne hne).mpr hx)) rfl
  | found c d l hp =>
    have hreq := h.requests
    rw [hp] at hreq
    refine h.dial hp rfl (by simp) ⟨rfl, rfl⟩ (h.covered.mono fun x hx => ?_) hreq
    rcases hx with hx | hx | hx | hx
    · exact .inl hx
    · rw [hp] at hx
      by_cases hxd : x = d
      · exact .inr (.inl (List.mem_singleton.mpr hxd))
      · exact .inr (.inr (.inl (List.mem_append_right _ ((List.mem_erase_of_ne hxd).mpr hx))))
    · exact .inr (.inr (.inl (List.mem_append_left _ hx)))
    · exact .inr (.inr (.inr hx))
  | notFound c l hp =>
    exact h.close hp rfl (by simp) ⟨rfl, rfl, rfl, rfl⟩ (fun _ hd => List.mem_append_left _ hd)
      (fun d hd _ => .inr (List.mem_append_right _ hd)) rfl
  | holeCloses =>
    refine { h with covered := h.covered.close fun d hne hd => ?_ }
    exact hd.imp_right fun hd => hd.imp_right fun hd => hd.imp_left (List.mem_erase_of_ne hne).mpr
  | dialRelay hgrip _ hp =>
    exact h.acquire hp (by rw [hgrip]; exact .inr ⟨_, rfl⟩) ⟨rfl, rfl, rfl, rfl, rfl⟩ (by simp)
      (List.mem_singleton.mpr rfl) rfl
  | produce k d d' l hk hp => exact ⟨HeldIn.produce hk hp h.covered, h.requests.produce hk hp, h.fits, h.owners⟩
  | _ => exact { h with }

/-! ## The service -/

structure XudpVisitor.Inv (s : XudpVisitor α) : Prop where
  calls : s.Calls
  group : s.Group
  session : s.Session
  conns : s.Conns

theorem XudpVisitor.inv_of_reach (h : Reach Init XudpVisitorStep s) : s.Inv :=
  h.invariant (fun _ h0 => ⟨.init h0, .init h0, .init h0, .init h0⟩) fun _ _ _ _ hi hst =>
    ⟨hst.calls hi.calls, hst.group hi.calls hi.group, hst.session hi.group hi.session, hst.connections hi.conns⟩

def XudpRunPc.state : XudpRunPc → CallState
  | idle => .idle
  | ok => .ok
  | failed | refused => .failed
  | _ => .pending

theorem XudpRunPc.owns_of_ok {p : XudpRunPc} (h : p.state = .ok) : p.owns = true := by
  cases p <;> first | rfl | cases h

theorem XudpRunPc.eq_idle {p : XudpRunPc} (h : p.state = .idle) : p = .idle := by
  cases p <;> first | rfl | cases h

def XudpCloseCall.state : XudpCloseCall → CallState
  | idle => .idle
  | waiting => .pending
  | returned => .ok

theorem XudpCloseCall.eq_returned {p : XudpCloseCall} (h : p.state = .ok) : p = .returned := by
  cases p <;> first | rfl | cases h

def xudpService (α : Type*) : Service (XudpVisitor α) (XudpVisitorEvent α) where
  init := XudpVisitor.Init
  step := XudpVisitorStep
  run s i := (s.runs i).state
  close s j := (s.closeCalls j).state
  closes s := s.closes
  socketOpen s := s.sock = some false
  alive s := s.dispatcher.counted = true ∨ s.forward.alive ∨ ∃ t ∈ s.visitor.transports, t.main ≠ .joined ∨ t.live
  obtained s c := c < s.conns.next
  closed s c := s.Closed c
  owes s e c := (∃ k, e = .producer k ∧ OwedBy s.requests k c) ∨ e = .hole c ∧ c ∈ s.holes ∧ c ∈ s.ended
  waits s e c := e = .readEnds c ∧ c ∈ s.holes

theorem XudpVisitorStep.out_of_closed (hst : XudpVisitorStep s e t) {i : Nat}
    (h : s.closed = true ∧ (s.runs i = .idle ∨ s.runs i = .refused)) :
    t.closed = true ∧ (t.runs i = .idle ∨ t.runs i = .refused) := by
  obtain ⟨hc, hi⟩ := h
  let out (p : XudpRunPc) : Prop := p = .idle ∨ p = .refused
  have hother : ∀ {j p q}, s.runs j = p → ¬ out p → out (update s.runs j q i) := by
    intro j p q hp hout; exact update_keeps out hi fun hj => absurd (hp ▸ hj) hout
  cases hst with
  | run _ _ hn => rw [hc] at hn; cases hn
  | refuse => exact ⟨hc, update_keeps out hi fun _ => .inr rfl⟩
  | resolve hp | resolveFails hp | listen hp | listenFails hp | spawnDispatcher hp | spawnForward hp | unlock hp =>
    exact ⟨hc, hother hp (by simp [out])⟩
  | closeFirst => exact ⟨rfl, hi⟩
  | _ => exact ⟨hc, hi⟩

theorem XudpVisitor.Inv.rest (h : s.Inv) (hd : s.dispatcher.counted = false) :
    s.visitor.session.current = none ∧ s.hand = .none := by
  have hs : s.visitor.session = .idle ∨ s.visitor.session = .done := by
    cases hp : s.dispatcher with
    | off => exact .inl (h.session.before (.inl hp))
    | ended => exact .inr (h.session.ended hp)
    | reserved | running => rw [hp] at hd; cases hd
  have hfits := h.conns.fits
  rcases hs with hs | hs <;> rw [hs] at hfits <;> exact ⟨hs ▸ rfl, hfits⟩

theorem XudpVisitor.Inv.transport (h : s.Inv) (hn : s.visitor.session.current = none) {k : Nat} {t : Transport α}
    (ht : s.visitor.transports[k]? = some t) : t.main = .joined ∧ ¬ t.live ∧ t.closed = true := by
  have hi := h.session.reach.inv
  have hm := hi.all_joined hn ht
  have hok := hi.ok k t ht
  simp only [Transport.Ok, hm] at hok
  exact ⟨hm, hok, h.session.reach.ended k t ht (.inr (.inr (.inr hm)))⟩

theorem XudpVisitor.Inv.of_over (h : s.Inv) (hover : (xudpService α).Over s) :
    ¬ (xudpService α).socketOpen s ∧ ¬ (xudpService α).alive s ∧
      ∀ c, (xudpService α).obtained s c →
        (xudpService α).closed s c ∨ ∃ e, (xudpService α).owes s e c ∨ (xudpService α).waits s e c := by
  obtain ⟨⟨j, hj⟩, -, -⟩ := hover
  have hcount := h.group.workers
  rw [h.group.done (h.calls.returned j (XudpCloseCall.eq_returned hj))] at hcount
  obtain ⟨hd, hf⟩ := none_counted hcount
  obtain ⟨hn, hhand⟩ := h.rest hd
  refine ⟨fun hopen => ?_, ?_, fun c hc => ?_⟩
  · have hheld := Forward.counted_of_holds (h.group.socket hopen)
    rw [hf] at hheld; cases hheld
  · rintro (hdc | hfa | ⟨t, ht, hlive⟩)
    · rw [hd] at hdc; cases hdc
    · exact h.group.forward.not_alive hf hfa
    · obtain ⟨k, hk⟩ := List.mem_iff_getElem?.mp ht
      obtain ⟨hm, hl, -⟩ := h.transport hn hk
      exact hlive.elim (· hm) hl
  · rcases h.conns.covered c hc with hcl | ⟨k, d, hk, hdc⟩ | hm | hm | hm
    · exact .inl (.inl hcl)
    · have hset := h.conns.requests.settled k d hk (by rw [hhand]; nofun)
      obtain ⟨hcan, howes⟩ := hset.owes (h.conns.requests.ok k d hk) hdc
      exact .inr ⟨_, .inl (.inl ⟨k, rfl, d, hk, hcan, howes⟩)⟩
    · rw [hhand] at hm; cases hm
    · exact .inr ⟨_, .inr ⟨rfl, hm⟩⟩
    · obtain ⟨k, hk⟩ := List.mem_iff_getElem?.mp hm
      have hlt : k < s.visitor.transports.length := h.conns.owners ▸ (List.getElem?_eq_some_iff.mp hk).1
      have ht := List.getElem?_eq_getElem hlt
      exact .inl (.inr ⟨k, _, hk, ht, (h.transport hn ht).2.2⟩)

theorem XudpVisitorStep.sameProducer {k : Nat} (hst : XudpVisitorStep s e t) (hne : e ≠ .producer k) :
    SameProducer s.requests t.requests k := by
  cases hst with
  | request => exact .append _
  | take j d r _ hj => exact .set hj fun _ => ⟨rfl, id⟩
  | cancelRequest j o d _ hj => exact .set hj fun _ => ⟨rfl, fun _ => rfl⟩
  | produce j d d' l hj => exact .set hj fun hjk => absurd (hjk ▸ rfl) hne
  | _ => exact .refl

variable {c : Nat}

theorem XudpVisitorStep.ended_kept (hst : XudpVisitorStep s e t) (h : c ∈ s.ended) : c ∈ t.ended := by
  cases hst with
  | holeEnds => exact List.mem_cons_of_mem _ h
  | _ => exact h

theorem XudpVisitorStep.hole_kept (hst : XudpVisitorStep s e t) (hne : e ≠ .hole c) (h : c ∈ s.holes) :
    c ∈ t.holes := by
  cases hst with
  | found | notFound => exact List.mem_append_left _ h
  | holeCloses d =>
    have hcd : c ≠ d := by rintro rfl; exact hne rfl
    exact (List.mem_erase_of_ne hcd).mpr h
  | _ => exact h

theorem xudp_owed_closes (ρ : Run (XudpVisitorStep (α := α))) {n k c : Nat} (ho : OwedBy (ρ.state n).requests k c)
    (hf : ρ.Fair (· = .producer k)) : ∃ m, n ≤ m ∧ (ρ.state m).Closed c := by
  refine hf.reaches (P := fun s => OwedBy s.requests k c) (G := fun s => s.Closed c)
    (fun s => owedRank s.requests k) ?_ ?_ n ho
  · intro s e t ho _ hst
    by_cases he : e = .producer k
    · subst he
      cases hst with
      | produce _ d d' l hk hp =>
        exact (ho.produce hk hp).imp .inl fun ⟨ho', hlt⟩ => ⟨ho', Nat.le_of_lt hlt, fun _ => hlt⟩
    · obtain ⟨ho', heq⟩ := (hst.sameProducer he).owed ho
      exact .inr ⟨ho', Nat.le_of_eq heq, fun hmine => absurd hmine he⟩
  · rintro s ⟨d, hk, hcan, hc⟩ -
    obtain ⟨d', l, hp⟩ := hc.produces hcan s.conns
    exact ⟨_, _, rfl, .produce k d d' l hk hp⟩

theorem XudpVisitorStep.closed_of_hole {s t : XudpVisitor α} (hst : XudpVisitorStep s (.hole c) t) :
    t.Closed c := by
  cases hst with
  | holeCloses => exact .inl (Custody.closed_close_self ..)

theorem xudp_hole_closes (ρ : Run (XudpVisitorStep (α := α))) {n c : Nat}
    (hc : c ∈ (ρ.state n).holes ∧ c ∈ (ρ.state n).ended) (hf : ρ.Fair (· = .hole c)) :
    ∃ m, n ≤ m ∧ (ρ.state m).Closed c := by
  refine hf.reaches (P := fun s => c ∈ s.holes ∧ c ∈ s.ended) (G := fun s => s.Closed c) (fun _ => 0) ?_ ?_ n hc
  · intro s e t hc _ hst
    by_cases he : e = .hole c
    · subst he; exact .inl hst.closed_of_hole
    · exact .inr ⟨⟨hst.hole_kept he hc.1, hst.ended_kept hc.2⟩, Nat.le_refl 0, fun hmine => absurd hmine he⟩
  · intro s hc _; exact ⟨_, _, rfl, .holeCloses c hc.1 hc.2⟩

theorem xudp_hole_ends (ρ : Run (XudpVisitorStep (α := α))) {n c : Nat} (hc : c ∈ (ρ.state n).holes)
    (hread : ∃ m, n ≤ m ∧ ρ.event m = some (.readEnds c)) :
    ∃ m, n ≤ m ∧ ((ρ.state m).Closed c ∨ c ∈ (ρ.state m).holes ∧ c ∈ (ρ.state m).ended) := by
  by_contra hno
  have hkept : ∀ m, n ≤ m → c ∈ (ρ.state m).holes := by
    intro m hm
    induction m, hm using Nat.le_induction with
    | base => exact hc
    | succ m hm ih =>
      rcases ρ.next m with ⟨-, heq⟩ | ⟨e, -, hst⟩
      · exact heq ▸ ih
      · refine hst.hole_kept ?_ ih
        rintro rfl; exact hno ⟨m + 1, by omega, .inl hst.closed_of_hole⟩
  obtain ⟨m, hm, hev⟩ := hread
  refine hno ⟨m + 1, by omega, .inr ⟨hkept _ (by omega), ?_⟩⟩
  rcases ρ.next m with ⟨hnone, -⟩ | ⟨e, hev', hst⟩
  · cases hnone.symm.trans hev
  · obtain rfl := Option.some.inj (hev'.symm.trans hev)
    generalize ρ.state (m + 1) = t at hst
    cases hst with
    | holeEnds => exact List.mem_cons_self

theorem xudp_sound : (xudpService α).Sound where
  once s hs := (XudpVisitor.inv_of_reach hs).calls.closes
  single s hs i j hi hj :=
    (XudpVisitor.inv_of_reach hs).calls.single i j (owns_of_ok hi) (owns_of_ok hj)
  late s hs i j hj hi t ht := by
    have hclosed : s.closed = true :=
      (XudpVisitor.inv_of_reach hs).calls.called j fun hc => hj (congrArg XudpCloseCall.state hc)
    have hout := ht.invariant (I := fun t => t.closed = true ∧ (t.runs i = .idle ∨ t.runs i = .refused))
      (fun u hu => hu ▸ ⟨hclosed, .inl (eq_idle hi)⟩) fun _ _ _ _ hu hst => XudpVisitorStep.out_of_closed hst hu
    exact hout.2.imp (congrArg state) (congrArg state)
  ended s hs := (XudpVisitor.inv_of_reach hs).of_over
  paid ρ _ n e c := by
    rintro (⟨k, rfl, ho⟩ | ⟨rfl, hc⟩) hf
    · exact xudp_owed_closes ρ ho hf
    · exact xudp_hole_closes ρ hc hf
  woken ρ _ n e c := by
    rintro ⟨rfl, hc⟩ hread
    obtain ⟨m, hm, hdone⟩ := xudp_hole_ends ρ hc hread
    exact ⟨m, hm, hdone.imp_right fun howed => ⟨_, .inr ⟨rfl, howed⟩⟩⟩

/-- At most one `Run` succeeds, none that starts after `Close`; when all calls have returned no
goroutine is left, and every connection is closed or with a producer that closes it. A socket left to
a goroutine of `MakeHole` is closed when the reads on it end. -/
theorem visitor_lifecycle : sudpService.Sound ∧ (xudpService α).Sound :=
  ⟨sudp_sound, xudp_sound⟩

theorem XudpVisitor.hole_left : ∃ s : XudpVisitor Nat, Reach XudpVisitor.Init XudpVisitorStep s ∧
    (xudpService Nat).Over s ∧ (xudpService Nat).run s 0 = .ok ∧ (xudpService Nat).obtained s 1 ∧ ¬ s.Closed 1 ∧
    s.holes = [1] ∧ s.ended = [] ∧ s.requests = [{ producer := .done }] := by
  have h := (.start rfl : Reach XudpVisitor.Init (XudpVisitorStep (α := Nat)) {})
    |>.next (.run (i := 0) rfl rfl rfl rfl)
    |>.next (.resolve (i := 0) rfl)
    |>.next (.listen (i := 0) rfl)
    |>.next (.spawnDispatcher (i := 0) rfl)
    |>.next (.spawnForward (i := 0) rfl)
    |>.next (.unlock (i := 0) rfl)
    |>.next (.keep (@Step.enqueue Nat _ 7 (by decide)) rfl rfl rfl)
    |>.next (.keep (.first rfl rfl) rfl rfl rfl)
    |>.next (.keep (.beginSession rfl) rfl rfl rfl)
    |>.next (.keep (.topDial rfl (by decide)) rfl rfl rfl)
    |>.next (.keep (.dialMore rfl .snapshot) rfl rfl rfl)
    |>.next (.keep (.dialMore rfl (.prepare rfl)) rfl rfl rfl)
    |>.next (.request (.dialMore rfl (.punch rfl)) rfl rfl rfl rfl)
    |>.next (.produce 0 _ _ _ rfl (.obtains rfl))
    |>.next (.produce 0 _ _ _ rfl (.deliver rfl rfl rfl))
    |>.next (.take 0 _ _ rfl rfl rfl)
    |>.next (.tookConn 0 0 rfl fun hc => by cases hc)
    |>.next (.firstPort 0 rfl)
    |>.next (.closeFirst (j := 0) rfl rfl rfl)
    |>.next (.cancel rfl rfl (.closeStart rfl))
    |>.next (.closeSocket rfl)
    |>.next (.closeChannel rfl rfl (.closeCh rfl))
    |>.next (.closersRun rfl fun _ ht => absurd ht List.not_mem_nil)
  -- the deadline of the first socket passes, while datagrams keep coming to the second one
  have h := h
    |>.next (.portCloses 0 0 _ rfl (by decide))
    |>.next (.notFound 0 _ rfl)
    |>.next (.lose (.dialFailed rfl .makeHoleErr) rfl rfl rfl rfl)
    |>.next (.keep (.afterClosed rfl rfl) rfl rfl rfl)
    |>.next (.keep (.exit rfl rfl) rfl rfl rfl)
    |>.next (.dispatcherDone rfl rfl)
    |>.next (.forward _ (.fails rfl))
    |>.next (.forwardClose _ (.close rfl))
    |>.next (.forward _ (.writerStops rfl (.inr rfl)))
    |>.next (.forward _ (.join rfl rfl))
    |>.next (.forwardDone _ (.done rfl))
    |>.next (.wait rfl rfl)
    |>.next (.closeReturns (j := 0) rfl rfl)
  refine ⟨_, h, ⟨⟨0, rfl⟩, fun i => ?_, fun j => ?_⟩, rfl, Nat.one_lt_two, ?_, rfl, rfl, rfl⟩
  · cases i with
    | zero | succ => exact CallState.noConfusion
  · cases j with
    | zero | succ => exact CallState.noConfusion
  · rintro (hc | ⟨k, t, hk, -⟩)
    · cases hc
    · cases hk

theorem visitor_lifecycle_hole_left : ∃ s : XudpVisitor Nat, Reach (xudpService Nat).init (xudpService Nat).step s ∧
    (xudpService Nat).Over s ∧ (xudpService Nat).run s 0 = .ok ∧ (xudpService Nat).obtained s 1 ∧
    ¬ (xudpService Nat).closed s 1 ∧ ∃ e, (xudpService Nat).owes s e 1 ∨ (xudpService Nat).waits s e 1 := by
  obtain ⟨s, h, hover, hok, hobt, hopen, -⟩ := XudpVisitor.hole_left
  exact ⟨s, h, hover, hok, hobt, hopen, ((visitor_lifecycle.2.ended s h hover).2.2 1 hobt).resolve_left hopen⟩

theorem visitor_hole_never_closed : ∃ (ρ : Run (xudpService Nat).step) (N : Nat), (xudpService Nat).init (ρ.state 0) ∧
    (xudpService Nat).Over (ρ.state N) ∧ (xudpService Nat).obtained (ρ.state N) 1 ∧ (∀ c, ρ.Fair (· = .hole c)) ∧
    (∀ k, ρ.Fair (· = .producer k)) ∧
    ∀ m, N ≤ m → ρ.event m = some (.datagram 1) ∧ ¬ (xudpService Nat).closed (ρ.state m) 1 := by
  obtain ⟨s, h, hover, -, hobt, hopen, hholes, hended, hreq⟩ := XudpVisitor.hole_left
  obtain ⟨ρ, N, h0, hN⟩ := h.exists_loop (.holeSkips 1 (by simp [hholes]) (by simp [hended]))
  have hrest := fun m hm => (hN m hm).1
  have hs := hrest N (Nat.le_refl N)
  refine ⟨ρ, N, h0, hs ▸ hover, hs ▸ hobt, fun c => ρ.fair_of_rest hrest ?_, fun k => ρ.fair_of_rest hrest ?_,
    fun m hm => ⟨(hN m hm).2, hrest m hm ▸ hopen⟩⟩
  · rintro _ t rfl hst
    cases hst with
    | holeCloses _ _ hc => rw [hended] at hc; cases hc
  · rintro _ t rfl hst
    cases hst with
    | produce _ d d' l hk hp =>
      rw [hreq] at hk
      obtain rfl := List.mem_singleton.mp (List.mem_of_getElem? hk)
      cases hp with
      | fails hc | obtains hc | deliver hc | full hc | late hc | recycle hc | nothing hc => cases hc

end Frp
