import Frp.Handoff
import Frp.Slots
import Frp.Visitor

/-!
# One data plane and one hand-off

Only the transport whose result the dispatcher waits for can have a worker alive, and it
carries at most one packet. So the visitor's steps are steps of the hand-off queue.
-/

namespace Frp

variable {α : Type*}

open Machine Classical Fifo.Step

/-! ## One call of `runActiveTransport` -/

namespace Transport

def Ok (t : Transport α) : Prop :=
  match t.main with
  | .register | .firstGen | .firstEpoch | .sendFirst => t.reader = .off ∧ t.sender = .off ∧ t.handoff = none
  | .sentGen | .sentEpoch | .spawnReader =>
    t.reader = .off ∧ t.sender = .off ∧ t.handoff = none ∧ t.pending = none
  | .spawnSender => t.sender = .off ∧ t.handoff = none ∧ t.pending = none
  | .selecting | .joinReader => t.pending = none ∧ (t.handoff ≠ none → t.sender = .done)
  | .joinSender => t.pending = none ∧ (t.handoff ≠ none → t.sender = .done) ∧ t.reader = .done
  | .returned | .joined => ¬ t.live

variable {t : Transport α}

theorem Ok.reader_main (hi : t.Ok) (hr : t.readerLive) :
    t.main = .spawnSender ∨ t.main = .selecting ∨ t.main = .joinReader := by
  obtain ⟨hoff, hdone⟩ := hr
  unfold Ok at hi
  cases hm : t.main <;> simp only [hm] at hi
  case spawnSender | selecting | joinReader => simp
  case joinSender => exact absurd hi.2.2 hdone
  case returned | joined => exact absurd (Or.inl ⟨hoff, hdone⟩) hi
  all_goals exact absurd hi.1 hoff

theorem Ok.sender_main (hi : t.Ok) (hs : t.senderLive) :
    (t.main = .selecting ∨ t.main = .joinReader ∨ t.main = .joinSender) ∧
      t.pending = none ∧ t.handoff = none := by
  obtain ⟨hoff, hdone⟩ := hs
  unfold Ok at hi
  cases hm : t.main <;> simp only [hm] at hi
  case selecting | joinReader => exact ⟨by simp, hi.1, byContradiction fun h => hdone (hi.2 h)⟩
  case joinSender => exact ⟨by simp, hi.1, byContradiction fun h => hdone (hi.2.1 h)⟩
  case spawnSender => exact absurd hi.1 hoff
  case returned | joined => exact absurd (Or.inr ⟨hoff, hdone⟩) hi
  all_goals exact absurd hi.2.1 hoff

theorem Ok.setReader (hi : t.Ok) (hr : t.readerLive) (r : ReaderPc α) : Ok { t with reader := r } := by
  rcases hi.reader_main hr with h | h | h <;> unfold Ok at hi ⊢ <;> simpa only [h] using hi

theorem Ok.setSender (hi : t.Ok) (hs : t.senderLive) (x : SenderPc α)
    (h : Option (Packet α)) (hx : h ≠ none → x = .done) : Ok { t with sender := x, handoff := h } := by
  obtain ⟨hm, hp, -⟩ := hi.sender_main hs
  unfold Ok at hi ⊢
  rcases hm with hm | hm | hm <;> simp only [hm] at hi ⊢
  · exact ⟨hp, hx⟩
  · exact ⟨hp, hx⟩
  · exact ⟨hp, hx, hi.2.2⟩

theorem ok_ret (hr : t.reader = .off ∨ t.reader = .done) (hs : t.sender = .off ∨ t.sender = .done) : t.ret.Ok := by
  simp only [Ok, ret, live, readerLive, senderLive]
  rcases hr with hr | hr <;> rcases hs with hs | hs <;> simp [hr, hs]

theorem Ok.held_setSender (hi : t.Ok) (hs : t.senderLive) (x : SenderPc α)
    (h : Option (Packet α)) : held { t with sender := x, handoff := h } = x.held ++ h.toList := by
  obtain ⟨hm, hp, -⟩ := hi.sender_main hs
  unfold held
  rcases hm with hm | hm | hm <;> simp [hm, hp]

end Transport

open Transport

variable {s : Visitor α} {t t' : Transport α} {e : Effect α}

attribute [local simp] afterRegister Ok

theorem TStep.ok (hi : t.Ok) (h : TStep s t e t') : t'.Ok := by
  cases h with
  | register hm =>
    unfold Ok at hi
    simp only [hm] at hi
    cases hp : t.pending <;> simp [hp, hi]
  | registerClosed hm | firstGenStale hm | firstEpochStale hm | firstErr hm | sentGenStale hm
  | sentEpochStale hm =>
    unfold Ok at hi
    simp only [hm] at hi; exact ok_ret (.inl hi.1) (.inl hi.2.1)
  | firstGen hm | firstEpoch hm | sentGen hm | sentEpoch hm => simpa only [Ok, hm] using hi
  | firstOk hm | firstTooLarge hm | spawnReader hm | spawnSender hm =>
    unfold Ok at hi
    simp only [hm] at hi
    simp [hi]
  | wake hm => simpa only [Ok, closeTransport, hm] using hi
  | joinReader hm hr =>
    unfold Ok at hi
    simp only [hm] at hi; exact ⟨hi.1, hi.2, hr⟩
  | joinSender hm hs =>
    unfold Ok at hi
    simp only [hm] at hi; exact ok_ret (.inr hi.2.2) (.inr hs)
  | watch | closer => exact hi
  | rGen hr | rGenStale hr | rEpoch hr | rEpochStale hr | receive hr | receiveErr hr | gotGen hr | gotGenStale hr
  | gotEpoch hr | gotEpochStale hr | put hr | putCtx hr => exact hi.setReader (by simp [readerLive, hr]) _
  | take hs | stop hs | keep hs | go hs | sGen hs | sGenStale hs | sEpoch hs | sEpochStale hs | sendOk hs
  | sendTooLarge hs | sendErr hs | sSentGen hs | sSentGenStale hs | sSentEpoch hs | sSentEpochStale hs =>
    have hl : t.senderLive := by simp [senderLive, hs]
    obtain ⟨-, -, hh⟩ := hi.sender_main hl
    refine hi.setSender hl _ _ ?_
    simp [hh]

def Effect.moves : Effect α → List (Packet α) → List (Packet α) → Prop
  | .silent, h, h' | .put _, h, h' => h' = h
  | .take p, h, h' => h = [] ∧ h' = [p]
  | .accept p, h, h' | .reject p, h, h' => h = [p] ∧ h' = []

attribute [local simp] Effect.moves SenderPc.held

theorem TStep.moves (hi : t.Ok) (h : TStep s t e t') : e.moves t.held t'.held := by
  cases h with
  | register hm =>
    unfold Ok at hi
    cases hp : t.pending <;> simp [held, hm, hp]
  | registerClosed hm | firstGenStale hm | firstEpochStale hm | firstErr hm | sentGenStale hm
  | sentEpochStale hm =>
    unfold Ok at hi
    simp only [hm] at hi
    simp [held, hm, ret, closeTransport, hi]
  | firstGen hm | firstEpoch hm | sentGen hm | sentEpoch hm | joinReader hm | spawnReader hm =>
    simp [held, hm]
  | firstOk hm hp | firstTooLarge hm hp =>
    unfold Ok at hi
    simp only [hm] at hi
    simp [held, hm, hp, hi]
  | spawnSender hm =>
    unfold Ok at hi
    simp only [hm] at hi
    simp [held, hm, hi]
  | wake hm => simp [held, closeTransport, hm]
  | joinSender hm hs =>
    unfold Ok at hi
    simp only [hm] at hi
    simp [held, ret, hm, hs, hi]
  | watch | closer => rfl
  | rGen | rGenStale | rEpoch | rEpochStale | receive | receiveErr | gotGen | gotGenStale | gotEpoch
  | gotEpochStale | put | putCtx => rfl
  | take hs | stop hs | keep hs | go hs | sGen hs | sGenStale hs | sEpoch hs | sEpochStale hs | sendOk hs
  | sendTooLarge hs | sendErr hs | sSentGen hs | sSentGenStale hs | sSentEpoch hs | sSentEpochStale hs =>
    have hl : t.senderLive := by simp [senderLive, hs]
    obtain ⟨-, -, hh⟩ := hi.sender_main hl
    simp only [Effect.moves, hi.held_setSender hl]
    simp [hh, hs]

theorem TStep.joined_iff (h : TStep s t e t') : t'.main = .joined ↔ t.main = .joined := by
  cases h with
  | register hm => cases hp : t.pending <;> simp [hm, hp]
  | _ => simp_all [ret, closeTransport]

theorem TStep.epoch_eq (h : TStep s t e t') :
    t'.published = t.published ∧ t'.generation = t.generation ∧ t'.epoch = t.epoch := by
  cases h <;> exact ⟨rfl, rfl, rfl⟩

/-! ## The session and its transports -/

def SessionPc.current : SessionPc α → Option Nat
  | .runP2P k | .relaySelect k _ | .probe k _ _ | .cancelRelay k | .joinRelay k | .runRecovered k
  | .joinClosing k => some k
  | _ => none

def SessionPc.active : SessionPc α → Prop
  | .idle | .begin _ | .done => False
  | _ => True

namespace Visitor

structure Inv (s : Visitor α) : Prop where
  ok : ∀ (k : Nat) (t : Transport α), s.transports[k]? = some t → t.Ok
  single : ∀ (k : Nat) (t : Transport α), s.transports[k]? = some t → t.main ≠ .joined → s.session.current = some k
  current : ∀ k, s.session.current = some k → ∃ t : Transport α, s.transports[k]? = some t ∧ t.main ≠ .joined
  generation : s.session.active → s.generation = s.machine.generation
  epoch : ∀ (k : Nat) (t : Transport α), s.transports[k]? = some t → t.main ≠ .joined →
    t.published = s.published ∧ t.generation = s.machine.generation ∧ t.epoch = s.machine.transportEpoch
  fresh : ∀ p ∈ s.enqueued, p.addr < s.nextAddr

variable {s : Visitor α} {pc : SessionPc α}

theorem Inv.move (hi : s.Inv) {m : Machine} {q : List (Packet α)}
    (hc : pc.current = s.session.current) (ha : pc.active → s.session.active) (hm : s.machine.SameEpoch m) :
    Inv { s with session := pc, machine := m, sendCh := q } := by
  obtain ⟨hg, he⟩ := hm
  refine ⟨hi.ok, fun k t ht hj => hc.trans (hi.single k t ht hj), fun k hk => hi.current k (hc.symm.trans hk),
    fun h => (hi.generation (ha h)).trans hg.symm, fun k t ht hj => ?_, hi.fresh⟩
  rw [hg, he]; exact hi.epoch k t ht hj

variable {k : Nat} {t : Transport α}

theorem Inv.all_joined (hi : s.Inv) (hc : s.session.current = none)
    (ht : s.transports[k]? = some t) : t.main = .joined := by
  refine byContradiction fun hm => ?_
  rw [hi.single k t ht hm] at hc; cases hc

theorem Inv.set (hi : s.Inv) {t' : Transport α} (ht : s.transports[k]? = some t)
    (hok : t'.Ok) (hj : t'.main = .joined ↔ t.main = .joined)
    (hp : t'.published = t.published ∧ t'.generation = t.generation ∧ t'.epoch = t.epoch)
    (hc : pc.current = s.session.current) (hg : pc.active → s.session.active) :
    Inv { s.setTransport k t' with session := pc } := by
  have hk : k < s.transports.length := (List.getElem?_eq_some_iff.mp ht).1
  refine ⟨?_, ?_, ?_, fun ha => hi.generation (hg ha), ?_, hi.fresh⟩
  · intro j u hu
    simp only [setTransport, List.getElem?_set] at hu
    split at hu
    · simp at hu; exact hu ▸ hok
    · exact hi.ok j u hu
  · intro j u hu hm
    simp only [setTransport, List.getElem?_set] at hu
    refine hc.trans ?_
    split at hu
    · rename_i hjk
      simp at hu
      subst hu hjk
      exact hi.single k t ht fun e => hm (hj.mpr e)
    · exact hi.single j u hu hm
  · intro j hcur
    obtain ⟨u, hu, hm⟩ := hi.current j (hc.symm.trans hcur)
    by_cases hjk : k = j
    · subst hjk
      rw [ht] at hu; cases hu
      exact ⟨t', by simp [setTransport, hk], fun e => hm (hj.mp e)⟩
    · exact ⟨u, by simp [setTransport, hjk, hu], hm⟩
  · intro j u hu hm
    simp only [setTransport, List.getElem?_set] at hu
    split at hu
    · simp at hu
      subst hu
      obtain ⟨h1, h2, h3⟩ := hp
      rw [h1, h2, h3]; exact hi.epoch k t ht fun e => hm (hj.mpr e)
    · exact hi.epoch j u hu hm

theorem Inv.activated (hi : s.Inv) (hn : s.session.current = none)
    {kind : Kind} {ph : Phase} {e : UInt64} {pend : Option (Packet α)}
    (he : (s.machine.beginTransport s.generation ph).2 = some e) (hc : pc.current = some s.transports.length) :
    Inv { s.activate kind ph e pend with session := pc } := by
  have hb := (beginTransport_some he).2
  have hsplit : ∀ (j : Nat) (u : Transport α), (s.activate kind ph e pend).transports[j]? = some u →
      s.transports[j]? = some u ∨ j = s.transports.length ∧ u.Ok ∧ u.published = s.published + 1 ∧
        u.generation = s.generation ∧ u.epoch = e := by
    intro j u hu
    simp only [activate, List.getElem?_append] at hu
    split at hu
    · exact .inl hu
    · rename_i hj
      rw [List.getElem?_singleton] at hu
      split at hu
      · cases hu; exact .inr ⟨by omega, by simp, rfl, rfl, rfl⟩
      · cases hu
  refine ⟨?_, ?_, ?_, ?_, ?_, hi.fresh⟩
  · intro j u hu
    rcases hsplit j u hu with h | ⟨-, h, -⟩
    · exact hi.ok j u h
    · exact h
  · intro j u hu hm
    rcases hsplit j u hu with h | ⟨h, -⟩
    · exact absurd (hi.all_joined hn h) hm
    · rw [hc, h]
  · intro j hj
    obtain rfl : s.transports.length = j := Option.some.inj (hc.symm.trans hj)
    exact ⟨_, List.getElem?_concat_length, by simp⟩
  · intro _; exact hb.1.symm
  · intro j u hu hm
    rcases hsplit j u hu with h | ⟨-, -, h1, h2, h3⟩
    · exact absurd (hi.all_joined hn h) hm
    · exact ⟨h1, h2.trans hb.1.symm, h3.trans hb.2.symm⟩

theorem Inv.join (hi : s.Inv) (ht : s.transports[k]? = some t)
    (hm : t.main = .returned) (hk : s.session.current = some k) (hc : pc.current = none)
    {m : Machine} (ha : s.session.active) (hs : s.machine.SameEpoch m) :
    Inv { s.join k t with session := pc, machine := m } := by
  have hl : k < s.transports.length := (List.getElem?_eq_some_iff.mp ht).1
  have hok : Ok { t with main := .joined } := by
    have := hi.ok k t ht
    unfold Ok at this
    simp only [hm] at this; exact this
  have hall : ∀ (j : Nat) (u : Transport α), (s.join k t).transports[j]? = some u → u.main = .joined ∧ u.Ok := by
    intro j u hu
    simp only [Visitor.join, setTransport, List.getElem?_set] at hu
    split at hu
    · simp at hu; subst hu; exact ⟨rfl, hok⟩
    · rename_i hjk
      refine ⟨byContradiction fun hne => ?_, hi.ok j u hu⟩
      have := hi.single j u hu hne
      rw [hk] at this; exact hjk (Option.some.inj this)
  refine ⟨fun j u hu => (hall j u hu).2, fun j u hu hne => absurd (hall j u hu).1 hne, ?_,
    fun _ => (hi.generation ha).trans hs.1.symm, fun j u hu hne => absurd (hall j u hu).1 hne, hi.fresh⟩
  intro j hj
  rw [hc] at hj; cases hj


end Visitor

theorem DialStep.same {g : UInt64} {m m' : Machine} {st : DialStage} {o : DialOut}
    (h : DialStep g m st m' o) : m.SameEpoch m' := by
  cases h <;> first | exact sameEpoch_refl | exact setPhaseForGeneration_same

variable {s' : Visitor α} {ev : Event α}

theorem Step.inv (hi : s.Inv) (h : Step s ev s') : s'.Inv := by
  cases h with
  | enqueue =>
    refine { hi with fresh := ?_ }
    intro p hp
    rcases List.mem_append.mp hp with hp | hp
    · exact Nat.lt_succ_of_lt (hi.fresh p hp)
    · simp at hp; subst hp; exact Nat.lt_succ_self _
  | full => exact hi
  | written | closeStart | closeCh => exact { hi with }
  | @transport k t e t' ht hst =>
    have := hi.set ht (hst.ok (hi.ok k t ht)) hst.joined_iff hst.epoch_eq rfl id
    cases e <;> exact { this with }
  | first hs | exit hs | topClosed hs | afterClosed hs | staleP2P hs | backoffClosed hs =>
    exact hi.move (hs ▸ rfl) False.elim sameEpoch_refl
  | beginSession hs =>
    have hn : s.session.current = none := by rw [hs]; rfl
    refine ⟨hi.ok, fun k t ht hm => absurd (hi.all_joined hn ht) hm, fun k hk => ?_, fun _ => rfl,
      fun k t ht hm => absurd (hi.all_joined hn ht) hm, hi.fresh⟩
    cases hk
  | topDial hs | afterRelay hs | relayStale hs | relayErr hs | staleRelay hs | recoveredClosed hs
  | staleRecovered hs | backoffTimer hs =>
    exact hi.move (hs ▸ rfl) (fun _ => by rw [hs]; trivial) sameEpoch_refl
  | dialMore hs hd | dialFailed hs hd | dialConn hs hd | probeMore hs hd | probeConn hs hd =>
    exact hi.move (hs ▸ rfl) (fun _ => by rw [hs]; trivial) hd.same
  | probeFailed hs hd =>
    exact hi.move (hs ▸ rfl) (fun _ => by rw [hs]; trivial)
      (hd.same.trans setPhaseForTransport_same)
  | relayPhase hs | probeReady hs =>
    exact hi.move (hs ▸ rfl) (fun _ => by rw [hs]; trivial) setPhaseForGeneration_same
  | activateP2P hs he | activateRelay hs he | activateRecovered hs _ he =>
    exact hi.activated (hs ▸ rfl) he rfl
  | relayClosing hs _ ht | cancelRelay hs ht =>
    have hok := hi.ok _ _ ht
    refine hi.set ht ?_ ?_ ?_ ?_ ?_
    · exact hok
    · exact Iff.rfl
    · exact ⟨rfl, rfl, rfl⟩
    · rw [hs]; rfl
    · intro _; rw [hs]; trivial
  | p2pEnded hs ht hm | joinClosing hs ht hm | joinRelay hs ht hm | recoveredEnded hs ht hm =>
    exact hi.join ht hm (hs ▸ rfl) rfl (by rw [hs]; trivial) sameEpoch_refl
  | relayEnded hs ht hm =>
    exact hi.join ht hm (hs ▸ rfl) rfl (by rw [hs]; trivial) setPhaseForTransport_same

/-! ## What a step does to a transport -/

inductive Transport.Move (v : Visitor α) (t : Transport α) : Transport α → Prop
  | same : Move v t t
  | step {e : Effect α} {t' : Transport α} : TStep v t e t' → Move v t t'
  | cancel : Move v t { t with cancel := true }
  | join : t.main = .returned → Move v t { t with main := .joined }

structure Transport.Fresh (t : Transport α) : Prop where
  main : t.main = .register
  closed : t.closed = false
  watching : t.watching = false
  registered : t.registered = false

theorem Visitor.apply_transports (v : Visitor α) (e : Effect α) : (v.apply e).transports = v.transports := by
  cases e <;> rfl

variable {k : Nat} {v v' : Visitor α}

theorem Step.transport_back {e : Event α} (h : Step v e v') (ht' : v'.transports[k]? = some t') :
    (∃ t, v.transports[k]? = some t ∧ t.Move v t') ∨ v.transports.length ≤ k ∧ t'.Fresh := by
  have hset : ∀ {j : Nat} {x x' : Transport α}, v.transports[j]? = some x → x.Move v x' →
      (v.transports.set j x')[k]? = some t' → ∃ t, v.transports[k]? = some t ∧ t.Move v t' := by
    intro j x x' hx hm h
    rcases (getElem?_set_iff hx).mp h with ⟨rfl, rfl⟩ | ⟨-, h⟩
    · exact ⟨x, hx, hm⟩
    · exact ⟨t', h, .same⟩
  cases h with
  | transport ht hst =>
    rw [Visitor.setTransport, Visitor.apply_transports] at ht'; exact .inl (hset ht (.step hst) ht')
  | activateP2P | activateRelay | activateRecovered =>
    rcases getElem?_append_singleton_iff.mp ht' with ⟨-, ht'⟩ | ⟨rfl, rfl⟩
    · exact .inl ⟨t', ht', .same⟩
    · exact .inr ⟨Nat.le_refl _, rfl, rfl, rfl, rfl⟩
  | relayClosing _ _ ht | cancelRelay _ ht => exact .inl (hset ht .cancel ht')
  | p2pEnded _ ht hm | joinClosing _ ht hm | relayEnded _ ht hm | joinRelay _ ht hm | recoveredEnded _ ht hm =>
    exact .inl (hset ht (.join hm) ht')
  | _ => exact .inl ⟨t', ht', .same⟩

attribute [local simp] Visitor.setTransport

theorem Step.transport_kept {e : Event α} (h : Step v e v')
    (ht : v.transports[k]? = some t) : ∃ t', v'.transports[k]? = some t' ∧ t.Move v t' := by
  have hlen : v.transports.length ≤ v'.transports.length := by
    cases h with
    | transport => simp [Visitor.apply_transports]
    | activateP2P | activateRelay | activateRecovered => simp [Visitor.activate]
    | relayClosing | cancelRelay | p2pEnded | joinClosing | relayEnded | joinRelay | recoveredEnded =>
      simp [Visitor.join]
    | _ => exact Nat.le_refl _
  have hk := (List.getElem?_eq_some_iff.mp ht).1
  obtain ⟨t', ht'⟩ : ∃ t', v'.transports[k]? = some t' := ⟨_, List.getElem?_eq_getElem (Nat.lt_of_lt_of_le hk hlen)⟩
  rcases h.transport_back ht' with ⟨x, hx, hm⟩ | ⟨hle, -⟩
  · rw [ht] at hx; cases hx
    exact ⟨t', ht', hm⟩
  · omega

attribute [local simp] Transport.held

namespace Visitor

theorem Reachable.inv (h : s.Reachable) : s.Inv := by
  refine h.invariant ?_ fun _ _ _ _ hi hst => hst.inv hi
  rintro _ rfl
  refine ⟨by simp, by simp, ?_, False.elim, by simp, by simp⟩
  intro k hk; cases hk

/-! ## The packet held -/

theorem flatMap_at {β γ : Type*} {f : β → List γ} : ∀ {l : List β} {k : Nat} {b : β}, l[k]? = some b →
    (∀ j c, l[j]? = some c → j ≠ k → f c = []) → l.flatMap f = f b
  | [], _, _, h, _ => by simp at h
  | a :: l, 0, b, h, ho => by
    simp at h; subst h
    have : l.flatMap f = [] := by
      rw [List.flatMap_eq_nil_iff]
      intro c hc
      obtain ⟨j, hj⟩ := List.getElem?_of_mem hc
      exact ho (j + 1) c (by simpa using hj) (by omega)
    rw [List.flatMap_cons, this, List.append_nil]
  | a :: l, k + 1, b, h, ho => by
    rw [List.flatMap_cons, ho 0 a (by simp) (by omega), List.nil_append]
    exact flatMap_at (by simpa using h) fun j c hj hne => ho (j + 1) c (by simpa using hj) (by omega)

theorem flatMap_set {β γ : Type*} {f : β → List γ} {b c : β} (hf : f c = f b) : ∀ {l : List β} {k : Nat},
    l[k]? = some b → (l.set k c).flatMap f = l.flatMap f
  | [], _, h => by simp at h
  | a :: l, 0, h => by
    simp at h; subst h
    simp [hf]
  | a :: l, k + 1, h => by
    rw [List.set_cons_succ, List.flatMap_cons, flatMap_set hf (by simpa using h), List.flatMap_cons]

variable {t : Transport α}

theorem held_joined (h : t.main = .joined) : t.held = [] := by simp [h]

theorem Inv.held_none (hi : s.Inv) (hc : s.session.current = none) : s.held = s.session.held := by
  have : s.transports.flatMap Transport.held = [] := by
    rw [List.flatMap_eq_nil_iff]
    intro t ht
    obtain ⟨j, hj⟩ := List.getElem?_of_mem ht
    exact held_joined (hi.all_joined hc hj)
  rw [held, this, List.append_nil]

theorem Inv.held_some (hi : s.Inv) {k : Nat} (hc : s.session.current = some k)
    (ht : s.transports[k]? = some t) : s.held = t.held := by
  have hs : s.session.held = [] := by
    cases h : s.session <;> simp [h, SessionPc.current] at hc <;> rfl
  have hf : s.transports.flatMap Transport.held = t.held := by
    refine flatMap_at ht fun j u hu hne => ?_
    refine held_joined (byContradiction fun hm => ?_)
    rw [hi.single j u hu hm] at hc; exact hne (Option.some.inj hc)
  rw [held, hs, hf, List.nil_append]

theorem Inv.activates (hi : s.Inv) (ha : s.session.active) (ph : Phase) :
    (s.machine.beginTransport s.generation ph).2 ≠ none :=
  Option.isSome_iff_ne_none.mp (beginTransport_isSome.mpr (hi.generation ha))

/-! ## The hand-off queue -/

def fifo (s : Visitor α) : Fifo (Packet α) :=
  { enqueued := s.enqueued, accepted := s.accepted, rejected := s.rejected, held := s.held, queue := s.sendCh }

theorem fifo_of_session {pc : SessionPc α} {m : Machine} {g : UInt64} {n : Nat} (h : pc.held = s.session.held) :
    fifo { s with session := pc, machine := m, generation := g, published := n } = s.fifo := by
  simp [fifo, held, h]

end Visitor

attribute [local simp] Visitor.apply

theorem Step.transport_fifo [DecidableEq α] (hi : s.Inv) (ht : s.transports[k]? = some t) (hst : TStep s t e t') :
    ((s.apply e).setTransport k t').fifo = s.fifo ∨
      ∃ d, Fifo.Step s.fifo d ((s.apply e).setTransport k t').fifo := by
  have hk : k < s.transports.length := (List.getElem?_eq_some_iff.mp ht).1
  have hi' := Step.inv hi (.transport ht hst)
  have hmv := hst.moves (hi.ok k t ht)
  have ht' : ((s.apply e).setTransport k t').transports[k]? = some t' := by
    cases e <;> simp [hk]
  have hses : ((s.apply e).setTransport k t').session = s.session := by cases e <;> rfl
  by_cases hj : t.main = .joined
  -- a call that has been joined holds nothing, so it has nothing to accept or reject
  · have h0 := Visitor.held_joined hj
    have h1 := Visitor.held_joined (hst.joined_iff.mpr hj)
    have hflat : (s.transports.set k t').flatMap Transport.held = s.transports.flatMap Transport.held :=
      Visitor.flatMap_set (h1.trans h0.symm) ht
    cases e with
    | silent | put => left; simp [Visitor.fifo, Visitor.held, hflat]
    | take => rw [h1] at hmv; cases hmv.2
    | accept | reject => rw [h0] at hmv; cases hmv.1
  · have hc := hi.single k t ht hj
    have e0 := hi.held_some hc ht
    have e1 := hi'.held_some (hses ▸ hc) ht'
    cases e with
    | silent | put =>
      left
      have : t'.held = t.held := hmv
      simp only [Visitor.fifo, e0, e1, this]; rfl
    | take p =>
      right
      obtain ⟨rest, hq⟩ : ∃ rest, s.sendCh = p :: rest := by cases hst; exact ⟨_, ‹_›⟩
      refine ⟨.take p, ?_⟩
      have := take (q := s.fifo) (e0.trans hmv.1) hq
      simp only [Visitor.fifo, e1, hmv.2] at this ⊢
      simpa [hq] using this
    | accept p =>
      right
      refine ⟨.accept p, ?_⟩
      have := accept (q := s.fifo) (e0.trans hmv.1)
      simp only [Visitor.fifo, e1, hmv.2] at this ⊢
      simpa using this
    | reject p =>
      right
      refine ⟨.reject p, ?_⟩
      have := reject (q := s.fifo) (e0.trans hmv.1)
      simp only [Visitor.fifo, e1, hmv.2] at this ⊢
      simpa using this

/-- While the visitor runs, its steps are steps of one queue. -/
theorem Step.simulates [DecidableEq α] (hi : s.Inv)
    (ho : s.closing = .running) (h : Step s ev s') : s'.fifo = s.fifo ∨ ∃ d, Fifo.Step s.fifo d s'.fifo := by
  have hi' := h.inv hi
  have hopen : s.closing ≠ .closed := by rw [ho]; decide
  cases h with
  | @enqueue body =>
    refine .inr ⟨.enqueue ⟨s.nextAddr, body⟩, .enqueue fun hm => ?_⟩
    exact Nat.lt_irrefl _ (hi.fresh _ hm)
  | full | written | closeStart | closeCh => exact .inl rfl
  | transport ht hst => exact Step.transport_fifo hi ht hst
  | exit _ hc | topClosed _ hc | afterClosed _ hc | relayClosing _ hc | recoveredClosed _ hc | backoffClosed _ hc =>
    exact absurd hc hopen
  | @first p rest hs hq =>
    have e0 := hi.held_none (hs ▸ rfl)
    have e1 := hi'.held_none rfl
    rw [hs] at e0
    refine .inr ⟨.take p, ?_⟩
    have := take (q := s.fifo) e0 hq
    simpa only [Visitor.fifo, e1, SessionPc.held] using this
  | beginSession hs | topDial hs | dialMore hs | dialFailed hs | dialConn hs | afterRelay hs | relayPhase hs
  | relayStale hs | relayErr hs | staleRelay hs | staleRecovered hs | backoffTimer hs | probeReady hs
  | probeMore hs | probeFailed hs | probeConn hs => exact .inl (Visitor.fifo_of_session (hs ▸ rfl))
  | staleP2P hs he => exact absurd he (hi.activates (by rw [hs]; trivial) _)
  | activateP2P hs | activateRelay hs | activateRecovered hs =>
    left
    have e0 := hi.held_none (hs ▸ rfl)
    have e1 := hi'.held_some rfl List.getElem?_concat_length
    rw [hs] at e0
    simp only [Visitor.fifo, e0, e1]
    simp [Visitor.activate, SessionPc.held]
  | @cancelRelay k t hs ht =>
    left
    have := Visitor.flatMap_set (f := Transport.held) (b := t) (c := { t with cancel := true }) rfl ht
    simp only [Visitor.fifo, Visitor.held, Visitor.setTransport, hs, SessionPc.held, this]
  | p2pEnded hs ht hm | joinClosing hs ht hm | joinRelay hs ht hm | recoveredEnded hs ht hm
  | relayEnded hs ht hm =>
    left
    have e0 := hi.held_some (hs ▸ rfl) ht
    have e1 := hi'.held_none rfl
    simp only [Visitor.fifo, e0, e1]
    simp [Visitor.join, SessionPc.held, hm]

theorem Step.running (h : Step s ev s') (hr : s'.closing = .running) : s.closing = .running := by
  cases h with
  | @transport k t e => cases e <;> exact hr
  | closeStart | closeCh => cases hr
  | _ => exact hr

theorem Visitor.Reachable.while_running (h : s.Reachable) (hr : s.closing = .running) :
    Reach Visitor.Init (When Step fun s _ => s.closing = .running) s := by
  induction h with
  | start hi => exact .start hi
  | next _ hst ih =>
    have hr' := hst.running hr
    exact .next (ih hr') ⟨hst, hr'⟩

theorem relay_run : ∃ s : Visitor Nat, s.Reachable ∧ s.closing = .running ∧ s.accepted = [⟨0, 7⟩] ∧
    s.sendCh = [⟨1, 8⟩] ∧ ∃ t, s.transports = [t] ∧ t.kind = .relay ∧ t.main = .spawnSender ∧ t.reader = .loadGen ∧
      t.closed = false ∧ t.cancel = false ∧ t.ctxDone = false := by
  have h := (.start rfl : Visitor.Reachable ({} : Visitor Nat))
    |>.next (@Step.enqueue Nat _ 7 (by decide))
    |>.next (@Step.enqueue Nat _ 8 (by decide))
    |>.next (.first rfl rfl)
    |>.next (.beginSession rfl)
    |>.next (.topDial rfl (by decide))
    |>.next (.dialMore rfl .snapshot)
    |>.next (.dialMore rfl (.prepare rfl))
    |>.next (.dialFailed rfl .preCheckErr)
    |>.next (.afterRelay rfl (by decide))
    |>.next (.relayPhase rfl rfl)
    |>.next (.activateRelay rfl rfl)
    |>.next (.transport (k := 0) rfl (.register rfl rfl))
    |>.next (.transport (k := 0) rfl (.firstGen rfl rfl))
    |>.next (.transport (k := 0) rfl (.firstEpoch rfl rfl))
    |>.next (.transport (k := 0) rfl (.firstOk rfl rfl))
    |>.next (.transport (k := 0) rfl (.sentGen rfl rfl))
    |>.next (.transport (k := 0) rfl (.sentEpoch rfl rfl))
    |>.next (.transport (k := 0) rfl (.spawnReader rfl))
  exact ⟨_, h, rfl, rfl, rfl, _, rfl, rfl, rfl, rfl, rfl, rfl, rfl⟩

/-- Until the visitor is closed, the packets accepted by the transports, the one held and those in
`sendCh` are those enqueued, in order, less the ones rejected as too large. -/
theorem visitor_fifo [DecidableEq α] {s : Visitor α} (h : s.Reachable) (hr : s.closing = .running) :
    s.accepted ++ s.held ++ s.sendCh = s.enqueued.filter (fun p => decide (p ∉ s.rejected)) ∧
      s.held.length ≤ 1 := by
  have hsim : Reach Fifo.Empty Fifo.Step s.fifo := by
    refine (h.while_running hr).simulate Visitor.fifo ?_ ?_
    · rintro _ rfl; rfl
    · intro s e t hs hst; exact Step.simulates (Visitor.Reachable.inv hs.of_when) hst.2 hst.1
  exact Fifo.reach_exact hsim

theorem visitor_fifo_relay : ∃ s : Visitor Nat, s.Reachable ∧ s.accepted = [⟨0, 7⟩] ∧
    s.accepted ++ s.held ++ s.sendCh = s.enqueued.filter (fun p => decide (p ∉ s.rejected)) := by
  obtain ⟨s, h, hr, ha, -⟩ := relay_run
  exact ⟨s, h, ha, (visitor_fifo h hr).1⟩

/-- At most one transport has a worker alive, and a packet is put on `readCh` only by the transport
whose epoch is the last one published. -/
theorem visitor_single_plane {s : Visitor α} (h : s.Reachable) :
    (∀ (j k : Nat) (t u : Transport α), s.transports[j]? = some t → s.transports[k]? = some u →
      t.live → u.live → j = k) ∧
    (∀ s', Step s .beginTransport s' → ∀ (k : Nat) (t : Transport α), s.transports[k]? = some t →
      t.main = .joined ∧ ¬ t.live) ∧
    (∀ s' k p, Step s (.transport k (.put p)) s' → ∃ t : Transport α, s.transports[k]? = some t ∧
      t.published = s.published ∧ s.machine.isCurrent t.generation t.epoch = true) := by
  have hi := h.inv
  have hlive : ∀ (k : Nat) (t : Transport α), s.transports[k]? = some t → t.live → t.main ≠ .joined := by
    intro k t ht hl hj
    have := hi.ok k t ht
    unfold Transport.Ok at this
    rw [hj] at this; exact this hl
  refine ⟨fun j k t u ht hu hlt hlu => ?_, fun s' hst k t ht => ?_, fun s' k p hst => ?_⟩
  · have hj := hi.single j t ht (hlive j t ht hlt)
    have hk := hi.single k u hu (hlive k u hu hlu)
    exact Option.some.inj (hj.symm.trans hk)
  · have hn : s.session.current = none := by
      cases hst with
      | activateP2P hs | staleP2P hs | activateRelay hs | staleRelay hs | activateRecovered hs
      | staleRecovered hs => rw [hs]; rfl
    have hj := hi.all_joined hn ht
    exact ⟨hj, fun hl => hlive k t ht hl hj⟩
  · cases hst with
    | transport ht hst =>
      rename_i t t'
      have hl : t.readerLive := by cases hst with | put hr _ => simp [Transport.readerLive, hr]
      obtain ⟨hp, hg, he⟩ := hi.epoch k t ht (hlive k t ht (.inl hl))
      exact ⟨t, ht, hp, by simp [isCurrent, hg, he]⟩

theorem visitor_single_plane_relay : ∃ s : Visitor Nat, s.Reachable ∧
    (∃ t : Transport Nat, s.transports[0]? = some t ∧ t.live) ∧
    ∀ (k : Nat) (u : Transport Nat), s.transports[k]? = some u → u.live → k = 0 := by
  obtain ⟨s, h, -, -, -, t, ht, -, -, hr, -⟩ := relay_run
  have ht : s.transports[0]? = some t := by rw [ht]; rfl
  have hl : t.readerLive := by simp [Transport.readerLive, hr]
  exact ⟨s, h, ⟨t, ht, .inl hl⟩, fun k u hu hlu => (visitor_single_plane h).1 k 0 u t hu ht hlu (.inl hl)⟩

end Frp
