import Frp.RelayRecycle
import Frp.VisitorSound

/-!
# When the pooled objects go back

`recycleFn` is called at most once. At that moment no worker can use the transport exactly
if the reader has ended and the sender is not between its check and the end of `SendPacket`.
-/

namespace Frp

variable {α : Type*}

open Visitor Transport

namespace Transport

structure Shape (t : Transport α) : Prop where
  closed : t.closed = true → t.ctxDone = true
  register : t.main = .register → t.Fresh
  first : t.main = .firstGen ∨ t.main = .firstEpoch ∨ t.main = .sendFirst → t.pending.isSome = true
  started : t.main = .spawnSender ∨ t.main = .selecting → t.reader ≠ .off

variable {t : Transport α}

theorem Fresh.shape (h : t.Fresh) : t.Shape := by
  refine ⟨fun hc => ?_, fun _ => h, ?_, ?_⟩
  · rw [h.closed] at hc; cases hc
  · simp [h.main]
  · simp [h.main]

theorem Shape.worker (h : t.Shape) {r : ReaderPc α} {x : SenderPc α} {o : Option (Packet α)} {b : Bool}
    (hr : t.reader ≠ .off → r ≠ .off) : Shape { t with reader := r, sender := x, handoff := o, cancel := b } :=
  ⟨h.closed, fun hm => ⟨hm, (h.register hm).closed, (h.register hm).watching, (h.register hm).registered⟩, h.first,
    fun hm => hr (h.started hm)⟩

variable {v : Visitor α} {t' : Transport α}

theorem Move.shape (hm : t.Move v t') (h : t.Shape) : t'.Shape := by
  cases hm with
  | same => exact h
  | cancel => exact h.worker id
  | join => exact ⟨h.closed, by simp, by simp, by simp⟩
  | step hst =>
    cases hst with
    | register =>
      refine ⟨h.closed, ?_, ?_, ?_⟩ <;> cases hp : t.pending <;> simp [afterRegister, hp]
    | watch hw =>
      refine ⟨fun _ => rfl, fun hr => ?_, h.first, h.started⟩
      rw [(h.register hr).watching] at hw; cases hw
    | closer hw =>
      refine ⟨fun _ => rfl, fun hr => ?_, h.first, h.started⟩
      rw [(h.register hr).registered] at hw; cases hw
    | firstGen hr | firstEpoch hr => exact ⟨h.closed, by simp, fun _ => h.first (by simp [hr]), by simp⟩
    | registerClosed | firstGenStale | firstEpochStale | firstErr | sentGenStale | sentEpochStale | joinSender =>
      exact ⟨fun _ => rfl, by simp [ret], by simp [ret], by simp [ret]⟩
    | wake => exact ⟨fun _ => rfl, by simp, by simp, by simp⟩
    | spawnSender hr => exact ⟨h.closed, by simp, by simp, fun _ => h.started (.inl hr)⟩
    | firstOk | firstTooLarge | sentGen | sentEpoch | spawnReader | joinReader =>
      exact ⟨h.closed, by simp, by simp, by simp⟩
    | rGen | rGenStale | rEpoch | rEpochStale | receive | receiveErr | gotGen | gotGenStale | gotEpoch | gotEpochStale
    | put | putCtx => exact h.worker (by simp)
    | _ => exact h.worker id

theorem Move.kind_eq (hm : t.Move v t') : t'.kind = t.kind := by
  cases hm with
  | step hst => cases hst <;> rfl
  | _ => rfl

theorem Move.closed (hm : t.Move v t') (h : t.closed = true) : t'.closed = true := by
  cases hm with
  | step hst => cases hst <;> first | rfl | exact h
  | _ => exact h

theorem Move.ctxDone (hm : t.Move v t') (h : t.ctxDone = true) : t'.ctxDone = true := by
  cases hm with
  | step hst => cases hst <;> first | rfl | exact h
  | _ => exact h

/-! ## Workers that have nothing more to do with the transport -/

def MainOver (t : Transport α) : Prop :=
  t.main = .joinReader ∨ t.main = .joinSender ∨ t.main = .returned ∨ t.main = .joined

def SenderIn (t : Transport α) : Prop := ∃ p, t.sender = .loadGen p ∨ t.sender = .loadEpoch p ∨ t.sender = .sending p

def Idle (t : Transport α) : Prop := (t.reader = .done ∨ t.reader = .off ∧ t.MainOver) ∧ ¬ t.SenderIn

theorem Idle.not_uses (h : t.Idle) : ¬ t.Uses := by
  rintro (hr | ⟨p, hp⟩)
  · rcases h.1 with hd | ⟨hd, -⟩ <;> rw [hd] at hr <;> cases hr
  · exact h.2 ⟨p, .inr (.inr hp)⟩

theorem TStep.idle {e : Effect α} (hst : TStep v t e t') (hok : t.Ok)
    (hctx : t.ctxDone = true) (h : t.Idle) : t'.Idle := by
  obtain ⟨hr, hs⟩ := h
  have hbody : ∀ {pc}, t.main = pc → (pc ≠ .joinReader ∧ pc ≠ .joinSender ∧ pc ≠ .returned ∧ pc ≠ .joined) →
      t.reader = .done := by
    rintro pc rfl ⟨h1, h2, h3, h4⟩
    refine hr.resolve_right fun hover => ?_
    rcases hover.2 with h | h | h | h <;> contradiction
  cases hst with
  | spawnReader hm =>
    have hdone := hbody hm (by decide)
    unfold Ok at hok
    rw [hm] at hok
    rw [hok.1] at hdone; cases hdone
  | register hm | registerClosed hm | firstGen hm | firstGenStale hm | firstEpoch hm | firstEpochStale hm | firstOk hm
  | firstTooLarge hm | firstErr hm | sentGen hm | sentGenStale hm | sentEpoch hm | sentEpochStale hm | wake hm =>
    exact ⟨.inl (hbody hm (by decide)), hs⟩
  | spawnSender hm =>
    refine ⟨.inl (hbody hm (by decide)), ?_⟩
    rintro ⟨p, h | h | h⟩ <;> cases h
  | joinReader | joinSender => exact ⟨hr.imp id fun h => ⟨h.1, by simp [MainOver, ret]⟩, hs⟩
  | watch | closer => exact ⟨hr, hs⟩
  | rGen h | rGenStale h | rEpoch h | rEpochStale h | receive h | receiveErr h | gotGen h | gotGenStale h | gotEpoch h
  | gotEpochStale h | put h | putCtx h => rcases hr with hd | ⟨hd, -⟩ <;> rw [hd] at h <;> cases h
  | go _ hgo => exact absurd (.inr (.inr (.inr (.inl hctx)))) hgo
  | sGen h | sGenStale h => exact absurd ⟨_, .inl h⟩ hs
  | sEpoch h | sEpochStale h => exact absurd ⟨_, .inr (.inl h)⟩ hs
  | sendOk h | sendTooLarge h | sendErr h => exact absurd ⟨_, .inr (.inr h)⟩ hs
  | take | stop | keep | sSentGen | sSentGenStale | sSentEpoch | sSentEpochStale =>
    refine ⟨hr, ?_⟩
    rintro ⟨p, h | h | h⟩ <;> cases h

theorem Move.idle (hm : t.Move v t') (hok : t.Ok) (hctx : t.ctxDone = true) (h : t.Idle) : t'.Idle := by
  cases hm with
  | same | cancel => exact h
  | join => exact ⟨h.1.imp id fun hr => ⟨hr.1, by simp [MainOver]⟩, h.2⟩
  | step hst => exact TStep.idle hst hok hctx h

end Transport

/-! ## Runs -/

namespace RelayWorld

structure Inv (s : RelayWorld α) : Prop where
  visitor : s.visitor.Reachable
  shape : ∀ (k : Nat) (t : Transport α), s.visitor.transports[k]? = some t → t.Shape
  count : ∀ k, s.recycles k + (s.owed k).toNat = (s.visitor.relayClosed k).toNat

variable {s : RelayWorld α}

theorem Inv.step {u : RelayWorld α} {e : RelayEvent α} (hi : s.Inv) (hst : RelayStep s e u) : u.Inv := by
  cases hst with
  | @visitor _ v hst =>
    refine ⟨hi.visitor.next hst, ?_, ?_⟩
    · intro k t' ht'
      rcases hst.transport_back ht' with ⟨t, ht, hm⟩ | ⟨-, hf⟩
      · exact hm.shape (hi.shape k t ht)
      · exact hf.shape
    · intro k
      have hcount := hi.count k
      have hmono : s.visitor.relayClosed k = true → v.relayClosed k = true := by
        unfold relayClosed
        cases ht : s.visitor.transports[k]? with
        | none => simp
        | some =>
          obtain ⟨t', ht', hm⟩ := hst.transport_kept ht
          simp only [ht', Bool.and_eq_true, decide_eq_true_eq, hm.kind_eq]
          exact fun h => ⟨h.1, hm.closed h.2⟩
      have howed : s.owed k = true → s.visitor.relayClosed k = true := by
        intro ho
        cases hc : s.visitor.relayClosed k with
        | true => rfl
        | false => rw [ho, hc] at hcount; cases hcount
      simp only [move]
      cases ho : s.owed k <;> cases hc : s.visitor.relayClosed k <;> cases hv : v.relayClosed k <;> simp_all
  | @recycle k ho =>
    refine ⟨hi.visitor, hi.shape, fun j => ?_⟩
    have hcount := hi.count j
    simp only [recycle]
    by_cases hj : j = k
    · subst hj
      rw [ho] at hcount; simpa using hcount
    · simpa [Function.update_of_ne hj] using hcount

theorem inv_of_reach (h : Reach Init RelayStep s) : s.Inv := by
  refine h.invariant ?_ fun _ _ _ _ hi hst => hi.step hst
  rintro _ rfl; exact ⟨.start rfl, by simp, fun k => by simp [relayClosed]⟩

theorem Inv.not_canUse (hi : s.Inv) {k : Nat} {t : Transport α}
    (ht : s.visitor.transports[k]? = some t) (hctx : t.ctxDone = true) (hidle : t.Idle) : ¬ s.CanUse k := by
  rintro ⟨u, hu, t', ht', huse⟩
  have hkeep := hu.invariant (I := fun u => u.Inv ∧ ∃ t, u.visitor.transports[k]? = some t ∧ t.ctxDone = true ∧ t.Idle)
    (by rintro _ rfl; exact ⟨hi, t, ht, hctx, hidle⟩) ?_
  · obtain ⟨-, x, hx, -, hx'⟩ := hkeep
    rw [ht'] at hx; cases hx
    exact hx'.not_uses huse
  · rintro w e w' - ⟨hw, x, hx, hxc, hxi⟩ hst
    refine ⟨hw.step hst, ?_⟩
    cases hst with
    | recycle => exact ⟨x, hx, hxc, hxi⟩
    | visitor hst =>
      obtain ⟨x', hx', hm⟩ := hst.transport_kept hx
      exact ⟨x', hx', hm.ctxDone hxc, hm.idle (hw.visitor.inv.ok k x hx) hxc hxi⟩

/-! ## Workers that come back -/

section
variable {s : RelayWorld α} {k : Nat} {t t' : Transport α}

theorem CanUse.of_tstep (ht : s.visitor.transports[k]? = some t) {e : Effect α} (hst : TStep s.visitor t e t')
    (hmain : t'.main = t.main ∨ t.main ≠ .joinReader ∧ t.main ≠ .returned)
    (h : (s.move ((s.visitor.apply e).setTransport k t')).CanUse k) : s.CanUse k := by
  obtain ⟨u, hu, huse⟩ := h
  refine ⟨u, .head (.visitor (.transport ht hst) ?_) hu, huse⟩
  intro j x x' _ hx hx' hw
  rw [setTransport, apply_transports] at hx'
  rcases (getElem?_set_iff ht).mp hx' with ⟨rfl, rfl⟩ | ⟨-, hx'⟩
  · rw [ht] at hx; cases hx
    rcases hmain with h | ⟨h1, h2⟩
    · exact h
    · rcases hw with hw | hw <;> contradiction
  · rw [hx] at hx'; cases hx'
    rfl

structure Stopping (s : RelayWorld α) (k : Nat) (t : Transport α) : Prop where
  at_k : s.visitor.transports[k]? = some t
  gen : t.genOk s.visitor
  epoch : t.epochOk s.visitor
  ctxDone : t.ctxDone = true

namespace Stopping

variable (h : s.Stopping k t)
include h

theorem now (hu : t.Uses) : s.CanUse k := ⟨s, .start rfl, t, h.at_k, hu⟩

theorem after {e : Effect α} (hst : TStep s.visitor t e t')
    (hmain : t'.main = t.main ∨ t.main ≠ .joinReader ∧ t.main ≠ .returned)
    (hnext : ∀ {u : RelayWorld α}, u.Stopping k t' → u.CanUse k) : s.CanUse k := by
  refine CanUse.of_tstep h.at_k hst hmain (hnext ⟨?_, ?_, ?_, Transport.Move.ctxDone (.step hst) h.ctxDone⟩)
  · simp only [move, setTransport, apply_transports]
    exact (getElem?_set_iff h.at_k).mpr (.inl ⟨rfl, rfl⟩)
  · have hg := h.gen
    rw [genOk, ← hst.epoch_eq.2.1] at hg
    cases e <;> exact hg
  · have he := h.epoch
    rw [epochOk, ← hst.epoch_eq.2.2] at he
    cases e <;> exact he

/-! ### The reader -/

theorem loadEpoch (hr : t.reader = .loadEpoch) : s.CanUse k :=
  h.after (.rEpoch hr h.epoch) (.inl rfl) fun hu => hu.now (.inl rfl)

theorem loadGen (hr : t.reader = .loadGen) : s.CanUse k :=
  h.after (.rGen hr h.gen) (.inl rfl) fun hu => hu.loadEpoch rfl

variable {p : Packet α}

theorem putting (hr : t.reader = .putting p) : s.CanUse k :=
  h.after (.putCtx hr (.inl h.ctxDone)) (.inl rfl) fun hu => hu.loadGen rfl

theorem gotEpoch (hr : t.reader = .gotEpoch p) : s.CanUse k :=
  h.after (.gotEpoch hr h.epoch) (.inl rfl) fun hu => hu.putting rfl

theorem readerLive (hl : t.readerLive) : s.CanUse k := by
  cases hr : t.reader with
  | off => exact absurd hr hl.1
  | done => exact absurd hr hl.2
  | receiving => exact h.now (.inl hr)
  | loadEpoch => exact h.loadEpoch hr
  | loadGen => exact h.loadGen hr
  | putting => exact h.putting hr
  | gotEpoch => exact h.gotEpoch hr
  | gotGen => exact h.after (.gotGen hr h.gen) (.inl rfl) fun hu => hu.gotEpoch rfl

/-! ### The sender -/

theorem senderIn (hs : t.SenderIn) : s.CanUse k := by
  obtain ⟨p, hs | hs | hs⟩ := hs
  · refine h.after (.sGen hs h.gen) (.inl rfl) fun hu => ?_
    exact hu.after (.sEpoch rfl hu.epoch) (.inl rfl) fun hu => hu.now (.inr ⟨p, rfl⟩)
  · exact h.after (.sEpoch hs h.epoch) (.inl rfl) fun hu => hu.now (.inr ⟨p, rfl⟩)
  · exact h.now (.inr ⟨p, hs⟩)

/-! ### The body, up to the start of the reader -/

theorem spawnReader (hm : t.main = .spawnReader) : s.CanUse k :=
  h.after (.spawnReader hm) (.inr (by simp [hm])) fun hu => hu.loadGen rfl

theorem sentEpoch (hm : t.main = .sentEpoch) : s.CanUse k :=
  h.after (.sentEpoch hm h.epoch) (.inr (by simp [hm])) fun hu => hu.spawnReader rfl

theorem sentGen (hm : t.main = .sentGen) : s.CanUse k :=
  h.after (.sentGen hm h.gen) (.inr (by simp [hm])) fun hu => hu.sentEpoch rfl

theorem sendFirst (hm : t.main = .sendFirst) (hp : t.pending = some p) : s.CanUse k :=
  h.after (.firstOk hm hp) (.inr (by simp [hm])) fun hu => hu.sentGen rfl

theorem firstEpoch (hm : t.main = .firstEpoch) (hp : t.pending = some p) : s.CanUse k :=
  h.after (.firstEpoch hm h.epoch) (.inr (by simp [hm])) fun hu => hu.sendFirst rfl hp

theorem firstGen (hm : t.main = .firstGen) (hp : t.pending = some p) : s.CanUse k :=
  h.after (.firstGen hm h.gen) (.inr (by simp [hm])) fun hu => hu.firstEpoch rfl hp

theorem canUse (hshape : t.Shape) (hclosed : t.closed = true) (hidle : ¬ t.Idle) : s.CanUse k := by
  by_cases hs : t.SenderIn
  · exact h.senderIn hs
  by_cases hl : t.readerLive
  · exact h.readerLive hl
  -- the reader has not been started, and will be
  have hoff : t.reader = .off := by
    by_contra hoff
    have hdone : t.reader = .done := by
      by_contra hdone
      exact hl ⟨hoff, hdone⟩
    exact hidle ⟨.inl hdone, hs⟩
  have hbody : ¬ t.MainOver := fun hover => hidle ⟨.inr ⟨hoff, hover⟩, hs⟩
  have hfirst : t.main = .firstGen ∨ t.main = .firstEpoch ∨ t.main = .sendFirst → ∃ p, t.pending = some p :=
    fun hm => Option.isSome_iff_exists.mp (hshape.first hm)
  cases hm : t.main with
  | register => rw [(hshape.register hm).closed] at hclosed; cases hclosed
  | firstGen =>
    obtain ⟨p, hp⟩ := hfirst (.inl hm)
    exact h.firstGen hm hp
  | firstEpoch =>
    obtain ⟨p, hp⟩ := hfirst (.inr (.inl hm))
    exact h.firstEpoch hm hp
  | sendFirst =>
    obtain ⟨p, hp⟩ := hfirst (.inr (.inr hm))
    exact h.sendFirst hm hp
  | sentGen => exact h.sentGen hm
  | sentEpoch => exact h.sentEpoch hm
  | spawnReader => exact h.spawnReader hm
  | spawnSender => exact absurd hoff (hshape.started (.inl hm))
  | selecting => exact absurd hoff (hshape.started (.inr hm))
  | joinReader | joinSender | returned | joined => exact absurd (by simp [Transport.MainOver, hm]) hbody

end Stopping

end

end RelayWorld

theorem Transport.Ok.idle {t : Transport α} (h : t.Ok) (hm : t.main = .joined) : t.Idle := by
  unfold Transport.Ok at h
  rw [hm] at h
  obtain ⟨hr, hs⟩ := not_or.mp h
  refine ⟨?_, ?_⟩
  · by_cases hoff : t.reader = .off
    · exact .inr ⟨hoff, by simp [Transport.MainOver, hm]⟩
    · exact .inl (Classical.byContradiction fun hdone => hr ⟨hoff, hdone⟩)
  · rintro ⟨p, hp | hp | hp⟩ <;> exact hs (by simp [senderLive, hp])

/-- `recycleFn` is called at most once, with no worker in the transport iff they are idle then. -/
theorem relay_recycled_idle_iff {s : RelayWorld α} (h : Reach RelayWorld.Init RelayStep s) (k : Nat) :
    s.recycles k ≤ 1 ∧ ∀ u, RelayStep s (.recycle k) u →
      ∃ t, s.visitor.transports[k]? = some t ∧ t.kind = .relay ∧ (¬ s.CanUse k ↔ t.Idle) := by
  have hi := RelayWorld.inv_of_reach h
  have hcount := hi.count k
  constructor
  · have := Bool.toNat_le (s.visitor.relayClosed k)
    omega
  · rintro u ⟨⟩
    rename_i howed
    have hclosed : s.visitor.relayClosed k = true := by
      cases hc : s.visitor.relayClosed k with
      | true => rfl
      | false => rw [howed, hc] at hcount; cases hcount
    unfold relayClosed at hclosed
    split at hclosed
    next t ht =>
      simp only [Bool.and_eq_true, decide_eq_true_eq] at hclosed
      have hshape := hi.shape k t ht
      have hctx := hshape.closed hclosed.2
      refine ⟨t, ht, hclosed.1, fun hno => ?_, hi.not_canUse ht hctx⟩
      by_contra hidle
      have hv := hi.visitor.inv
      have hm : t.main ≠ .joined := fun hm => hidle ((hv.ok k t ht).idle hm)
      obtain ⟨-, hg, he⟩ := hv.epoch k t ht hm
      exact hno (RelayWorld.Stopping.canUse ⟨ht, hg, he, hctx⟩ hshape hclosed.2 hidle)
    next => cases hclosed

/-! ### Two ends of a relay -/

theorem RelayWorld.of_visitor {v : Visitor α} (h : v.Reachable) (hopen : ∀ k, v.relayClosed k = false) :
    ∃ s : RelayWorld α, Reach Init RelayStep s ∧ s.visitor = v ∧ ∀ k, s.owed k = false := by
  induction h with
  | start hv => exact ⟨⟨{}, fun _ => false, fun _ => 0⟩, .start rfl, hv.symm, fun _ => rfl⟩
  | @next w e v _ hst ih =>
    have hback : ∀ k, w.relayClosed k = false := by
      intro k
      by_contra hc
      unfold relayClosed at hc
      split at hc
      next t ht =>
        obtain ⟨t', ht', hm⟩ := hst.transport_kept ht
        have hv := hopen k
        simp only [relayClosed, ht', hm.kind_eq] at hv
        simp only [Bool.not_eq_false, Bool.and_eq_true] at hc
        rw [hc.1, hm.closed hc.2] at hv; cases hv
      next => exact hc rfl
    obtain ⟨s, hs, rfl, howed⟩ := ih hback
    refine ⟨s.move v, hs.next (.visitor hst ?_), rfl, fun k => ?_⟩
    · intro k _ _ ho
      rw [howed k] at ho; cases ho
    · simp [move, howed k, hopen k]

theorem Visitor.Reachable.only {v : Visitor α} (h : v.Reachable) {t t' : Transport α} (ht : v.transports = [t])
    {e : Effect α} (hst : TStep v t e t') :
    ((v.apply e).setTransport 0 t').Reachable ∧ ((v.apply e).setTransport 0 t').transports = [t'] := by
  refine ⟨h.next (.transport (ht ▸ rfl) hst), ?_⟩
  rw [setTransport, apply_transports, ht]; rfl

theorem relay_working : ∃ v : Visitor Nat, v.Reachable ∧ v.closing = .running ∧ v.sendCh = [⟨1, 8⟩] ∧
    ∃ t, v.transports = [t] ∧ t.kind = .relay ∧ t.main = .selecting ∧ t.reader = .receiving ∧ t.sender = .selecting ∧
      t.closed = false ∧ t.cancel = false ∧ t.ctxDone = false := by
  obtain ⟨v, h, hrun, -, hch, t, ht, hkind, hm, hr, hc, hcan, hctx⟩ := relay_run
  obtain ⟨-, hg, he⟩ := h.inv.epoch 0 t (ht ▸ rfl) (by simp [hm])
  obtain ⟨h, ht⟩ := h.only ht (.spawnSender hm)
  obtain ⟨h, ht⟩ := h.only ht (.rGen hr hg)
  obtain ⟨h, ht⟩ := h.only ht (.rEpoch rfl he)
  exact ⟨_, h, hrun, hch, _, ht, hkind, rfl, rfl, rfl, hc, hcan, hctx⟩

theorem relay_wakes {v : Visitor Nat} (h : v.Reachable) {t : Transport Nat} (ht : v.transports = [t])
    (hkind : t.kind = .relay) (hc : t.closed = false) (hm : t.main = .selecting)
    (hw : t.stopReady v ∨ t.sender = .done) : ∃ s : RelayWorld Nat, Reach RelayWorld.Init RelayStep s ∧
      s.visitor.transports = [{ t.closeTransport with main := .joinReader }] ∧ s.owed 0 = true := by
  have hopen : ∀ k, v.relayClosed k = false := by
    intro k
    rw [relayClosed, ht]
    cases k with
    | zero => simp [hc]
    | succ => rfl
  obtain ⟨s, hs, rfl, howed⟩ := RelayWorld.of_visitor h hopen
  obtain ⟨-, ht'⟩ := h.only ht (.wake hm hw)
  refine ⟨_, hs.next (.visitor (.transport (ht ▸ rfl) (.wake hm hw)) ?_), ht', ?_⟩
  · intro k _ _ ho
    rw [howed k] at ho; cases ho
  · have hnew : ((s.visitor.apply .silent).setTransport 0
        { t.closeTransport with main := .joinReader }).relayClosed 0 = true := by
      rw [relayClosed, ht']; simp [closeTransport, hkind]
    simp [RelayWorld.move, hopen 0, hnew]

theorem relay_recycled_after_reader : ∃ s u : RelayWorld Nat, Reach RelayWorld.Init RelayStep s ∧
    RelayStep s (.recycle 0) u ∧ ¬ s.CanUse 0 ∧ u.recycles 0 ≤ 1 := by
  obtain ⟨v, h, hrun, -, t, ht, hkind, hm, hr, hsnd, hc, -⟩ := relay_working
  obtain ⟨h, ht⟩ := h.only ht (.receiveErr hr)
  obtain ⟨s, hs, hts, howed⟩ := relay_wakes h ht hkind hc hm (.inl (.inr (.inl rfl)))
  have hrec := RelayStep.recycle howed
  obtain ⟨t', ht', -, hiff⟩ := (relay_recycled_idle_iff hs 0).2 _ hrec
  rw [hts] at ht'; cases ht'
  refine ⟨s, _, hs, hrec, hiff.mpr ⟨.inl rfl, ?_⟩, (relay_recycled_idle_iff (hs.next hrec) 0).1⟩
  rintro ⟨p, hp⟩
  simp [closeTransport, hsnd] at hp

theorem relay_recycled_while_receiving : ∃ s u : RelayWorld Nat, Reach RelayWorld.Init RelayStep s ∧
    RelayStep s (.recycle 0) u ∧ s.visitor.Uses 0 ∧ u.visitor.Uses 0 := by
  obtain ⟨v, h, hrun, hch, t, ht, hkind, hm, hr, hsnd, hc, hcan, hctx⟩ := relay_working
  obtain ⟨-, hg, he⟩ := h.inv.epoch 0 t (ht ▸ rfl) (by simp [hm])
  have hgo : ¬ t.stopReady v := by simp [stopReady, closeReady, ctxReady, hcan, hr, hrun, hctx]
  obtain ⟨h, ht⟩ := h.only ht (.take hsnd hch)
  obtain ⟨h, ht⟩ := h.only ht (.go rfl hgo)
  obtain ⟨h, ht⟩ := h.only ht (.sGen rfl hg)
  obtain ⟨h, ht⟩ := h.only ht (.sEpoch rfl he)
  obtain ⟨h, ht⟩ := h.only ht (.sendErr rfl)
  obtain ⟨s, hs, hts, howed⟩ := relay_wakes h ht hkind hc hm (.inr rfl)
  have huse : s.visitor.Uses 0 := ⟨_, congrArg (·[0]?) hts, .inl hr⟩
  exact ⟨s, _, hs, .recycle howed, huse, huse⟩

end Frp
