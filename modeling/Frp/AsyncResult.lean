import Frp.Lts

/-!
# A result that is delivered or given up

A producer offers its result, under a lock, to a channel of capacity one; a waiter takes it
or, when its close channel is closed first, raises a flag under the same lock and drains the
channel.
-/

namespace Frp

variable {ρ : Type*}

inductive Producing (ρ : Type*)
  | calling
  | has (r : ρ)
  | checking (r : ρ)
  | sending (r : ρ)
  | recycling (r : ρ)
  | done

/-- `locking` to `late` are the cancellation, after which the result taken before it is recycled. -/
inductive Waiting (ρ : Type*)
  | idle
  | waiting
  | took (r : ρ)
  | locking (o : Option ρ)
  | flagging (o : Option ρ)
  | draining (o : Option ρ)
  | late (r : ρ) (o : Option ρ)
  | recycling (o : Option ρ)
  | returned (x : Option ρ)

inductive AsyncSide
  | producer
  | waiter
  deriving DecidableEq

inductive AsyncEvent
  | producer
  | waiter
  | close

structure AsyncRequest (ρ : Type*) where
  producer : Producing ρ := .calling
  waiter : Waiting ρ := .idle
  mu : Option AsyncSide := none
  canceled : Bool := false
  resultCh : Option ρ := none
  closed : Bool := false
  produced : Option ρ := none
  recycled : List ρ := []

inductive AsyncStep : AsyncRequest ρ → AsyncEvent → AsyncRequest ρ → Prop
  -- the producer
  | produce {s} (r : ρ) : s.producer = .calling →
      AsyncStep s .producer { s with producer := .has r, produced := some r }
  | lock {s r} : s.producer = .has r → s.mu = none →
      AsyncStep s .producer { s with producer := .checking r, mu := some .producer }
  | checkCanceled {s r} : s.producer = .checking r → s.canceled = true →
      AsyncStep s .producer { s with producer := .recycling r, mu := none }
  | checkOpen {s r} : s.producer = .checking r → s.canceled = false →
      AsyncStep s .producer { s with producer := .sending r }
  | send {s r} : s.producer = .sending r → s.resultCh = none →
      AsyncStep s .producer { s with producer := .done, resultCh := some r, mu := none }
  | full {s r} : s.producer = .sending r → s.resultCh ≠ none →
      AsyncStep s .producer { s with producer := .recycling r, mu := none }
  | recycle {s r} : s.producer = .recycling r →
      AsyncStep s .producer { s with producer := .done, recycled := r :: s.recycled }
  -- the waiter
  | call {s} : s.waiter = .idle → AsyncStep s .waiter { s with waiter := .waiting }
  | receive {s r} : s.waiter = .waiting → s.resultCh = some r →
      AsyncStep s .waiter { s with waiter := .took r, resultCh := none }
  | waitClosed {s} : s.waiter = .waiting → s.closed = true → AsyncStep s .waiter { s with waiter := .locking none }
  | tookClosed {s r} : s.waiter = .took r → s.closed = true →
      AsyncStep s .waiter { s with waiter := .locking (some r) }
  | tookOpen {s r} : s.waiter = .took r → s.closed = false →
      AsyncStep s .waiter { s with waiter := .returned (some r) }
  | lockCancel {s o} : s.waiter = .locking o → s.mu = none →
      AsyncStep s .waiter { s with waiter := .flagging o, mu := some .waiter }
  | flag {s o} : s.waiter = .flagging o → AsyncStep s .waiter { s with waiter := .draining o, canceled := true }
  | drain {s o r} : s.waiter = .draining o → s.resultCh = some r →
      AsyncStep s .waiter { s with waiter := .late r o, resultCh := none, mu := none }
  | drainEmpty {s o} : s.waiter = .draining o → s.resultCh = none →
      AsyncStep s .waiter { s with waiter := .recycling o, mu := none }
  | recycleLate {s r o} : s.waiter = .late r o →
      AsyncStep s .waiter { s with waiter := .recycling o, recycled := r :: s.recycled }
  | recycleTaken {s r} : s.waiter = .recycling (some r) →
      AsyncStep s .waiter { s with waiter := .returned none, recycled := r :: s.recycled }
  | recycleNone {s} : s.waiter = .recycling none → AsyncStep s .waiter { s with waiter := .returned none }
  | close {s} : AsyncStep s .close { s with closed := true }

namespace Producing

def held : Producing ρ → List ρ
  | has r | checking r | sending r | recycling r => [r]
  | _ => []

def locked : Producing ρ → Bool
  | checking _ | sending _ => true
  | _ => false

end Producing

namespace Waiting

def held : Waiting ρ → List ρ
  | took r => [r]
  | locking o | flagging o | draining o | recycling o | returned o => o.toList
  | late r o => r :: o.toList
  | _ => []

def locked : Waiting ρ → Bool
  | flagging _ | draining _ => true
  | _ => false

def raised : Waiting ρ → Bool
  | draining _ | late _ _ | recycling _ | returned none => true
  | _ => false

def drained : Waiting ρ → Bool
  | late _ _ | recycling _ | returned none => true
  | _ => false

def rank : Waiting ρ → Nat
  | idle => 8
  | waiting => 7
  | took _ => 6
  | locking _ => 5
  | flagging _ => 4
  | draining _ => 3
  | late _ _ => 2
  | recycling _ => 1
  | returned _ => 0

end Waiting

attribute [local simp] Producing.locked Waiting.locked Waiting.raised

open Waiting

namespace AsyncRequest

variable {s : AsyncRequest ρ}

def places (s : AsyncRequest ρ) : List ρ :=
  s.producer.held ++ s.resultCh.toList ++ s.waiter.held ++ s.recycled

structure Inv (s : AsyncRequest ρ) : Prop where
  places : s.places = s.produced.toList
  producing : s.producer.locked = true ↔ s.mu = some .producer
  canceling : s.waiter.locked = true ↔ s.mu = some .waiter
  sending : ∀ r, s.producer = .sending r → s.canceled = false
  raised : s.canceled = true ↔ s.waiter.raised = true
  drained : s.waiter.drained = true → s.resultCh = none
  calling : s.producer = .calling ↔ s.produced = none
  recycling : s.recycled ≠ [] ∨ (∃ r, s.producer = .recycling r) → s.canceled = true

theorem Inv.init : Inv ({} : AsyncRequest ρ) where
  places := rfl
  producing := by simp
  canceling := by simp
  sending _ h := by cases h
  raised := by simp
  drained _ := rfl
  calling := by simp
  recycling h := by simp at h

theorem Inv.only (h : s.Inv) {a b : List ρ} {r : ρ} (hs : s.places = a ++ r :: b) :
    a = [] ∧ b = [] ∧ s.produced = some r := by
  have hp := hs.symm.trans h.places
  cases ho : s.produced with
  | none => simp [ho] at hp
  | some =>
    rw [ho] at hp
    cases a with
    | nil =>
      simp only [List.nil_append, Option.toList_some, List.cons.injEq] at hp
      exact ⟨rfl, hp.2, by rw [hp.1]⟩
    | cons => simp at hp

attribute [local simp] AsyncRequest.places

theorem Inv.of_producer (h : s.Inv) {r : ρ} (hp : s.producer.held = [r]) :
    s.resultCh = none ∧ s.waiter.held = [] ∧ s.recycled = [] ∧ s.produced = some r := by
  have hs : s.places = [] ++ r :: (s.resultCh.toList ++ s.waiter.held ++ s.recycled) := by simp [hp]
  obtain ⟨-, hb, hr⟩ := h.only hs
  simp only [List.append_eq_nil_iff, Option.toList_eq_nil_iff] at hb
  exact ⟨hb.1.1, hb.1.2, hb.2, hr⟩

theorem Inv.of_waiter (h : s.Inv) {r : ρ} {l : List ρ} (hp : s.waiter.held = r :: l) :
    s.producer.held = [] ∧ s.resultCh = none ∧ l = [] ∧ s.recycled = [] ∧ s.produced = some r := by
  have hs : s.places = (s.producer.held ++ s.resultCh.toList) ++ r :: (l ++ s.recycled) := by
    simp [hp]
  obtain ⟨ha, hb, hr⟩ := h.only hs
  simp only [List.append_eq_nil_iff, Option.toList_eq_nil_iff] at ha hb
  exact ⟨ha.1, ha.2, hb.1, hb.2, hr⟩

theorem Inv.moveWaiter (h : s.Inv) {w : Waiting ρ} (hheld : w.held = s.waiter.held) (hlock : w.locked = s.waiter.locked)
    (hraise : w.raised = s.waiter.raised) (hdrain : w.drained = true → s.resultCh = none) :
    Inv { s with waiter := w } where
  places := by simpa [hheld] using h.places
  producing := h.producing
  canceling := by rw [hlock]; exact h.canceling
  sending := h.sending
  raised := by rw [hraise]; exact h.raised
  drained := hdrain
  calling := h.calling
  recycling := h.recycling

end AsyncRequest

open AsyncRequest

variable {s s' : AsyncRequest ρ} {e : AsyncEvent}

attribute [local simp] Waiting.drained AsyncRequest.places

theorem AsyncStep.inv (hst : AsyncStep s e s') (h : s.Inv) : s'.Inv := by
  have hplaces := h.places
  cases hst with
  | produce r hp =>
    rw [h.calling.mp hp] at hplaces
    simp only [AsyncRequest.places, Option.toList_none, List.append_eq_nil_iff] at hplaces
    refine ⟨?_, ?_, h.canceling, by simp, h.raised, h.drained, by simp, by simpa [hp] using h.recycling⟩
    · simp [hplaces, Producing.held]
    · simpa [hp] using h.producing
  | lock hp hmu =>
    refine ⟨?_, by simp, ?_, by simp, h.raised, h.drained, by simpa [hp] using h.calling,
      by simpa [hp] using h.recycling⟩
    · simpa [hp, Producing.held] using hplaces
    · simpa [hmu] using h.canceling
  | checkCanceled hp hc =>
    have hmu := h.producing.mp (hp ▸ rfl)
    refine ⟨?_, by simp, ?_, by simp, h.raised, h.drained, by simpa [hp] using h.calling, fun _ => hc⟩
    · simpa [hp, Producing.held] using hplaces
    · simpa [hmu] using h.canceling
  | checkOpen hp hc =>
    have hmu := h.producing.mp (hp ▸ rfl)
    refine ⟨?_, by simp [hmu], h.canceling, fun _ _ => hc, h.raised, h.drained, by simpa [hp] using h.calling,
      by simpa [hp] using h.recycling⟩
    simpa [hp, Producing.held] using hplaces
  | send hp hch =>
    have hmu := h.producing.mp (hp ▸ rfl)
    have hc := h.sending _ hp
    refine ⟨?_, by simp, ?_, by simp, h.raised, ?_, by simpa [hp] using h.calling, by simpa [hp] using h.recycling⟩
    · simpa [hp, hch, Producing.held] using hplaces
    · simpa [hmu] using h.canceling
    -- the flag is not raised, so nothing has been drained
    · intro hd
      have hraised : s.waiter.raised = true := by
        cases hw : s.waiter with
        | returned x => cases x <;> simp_all [drained, raised]
        | _ => simp_all [drained, raised]
      rw [h.raised.mpr hraised] at hc; cases hc
  | full hp hch => exact absurd (h.of_producer (by rw [hp]; rfl)).1 hch
  | @recycle r hp =>
    obtain ⟨hch, hheld, hrec, hr⟩ := h.of_producer (by rw [hp]; rfl)
    refine ⟨?_, ?_, h.canceling, by simp, h.raised, h.drained, by simpa [hp] using h.calling,
      fun _ => h.recycling (.inr ⟨r, hp⟩)⟩
    · simp [hch, hheld, hrec, hr, Producing.held]
    · simpa [hp] using h.producing
  | call hw | waitClosed hw | tookClosed hw | tookOpen hw =>
    exact h.moveWaiter (hw ▸ rfl) (hw ▸ rfl) (hw ▸ rfl) (by simp)
  | recycleNone hw =>
    exact h.moveWaiter (hw ▸ rfl) (hw ▸ rfl) (hw ▸ rfl) fun _ => h.drained (hw ▸ rfl)
  | receive hw hch =>
    refine ⟨?_, h.producing, ?_, h.sending, ?_, fun _ => rfl, h.calling, h.recycling⟩
    · simpa [hw, hch, held] using hplaces
    · simpa [hw] using h.canceling
    · simpa [hw] using h.raised
  | lockCancel hw hmu =>
    refine ⟨?_, ?_, by simp, h.sending, ?_, by simp, h.calling, h.recycling⟩
    · simpa [hw, held] using hplaces
    · simpa [hmu] using h.producing
    · simpa [hw] using h.raised
  | flag hw =>
    have hmu := h.canceling.mp (hw ▸ rfl)
    refine ⟨?_, h.producing, by simp [hmu], ?_, by simp, by simp, h.calling,
      fun _ => rfl⟩
    · simpa [hw, held] using hplaces
    -- the producer does not have the lock
    · intro r hp
      have hlock := h.producing.mp (hp ▸ rfl)
      rw [hmu] at hlock; cases hlock
  | drain hw hch =>
    have hmu := h.canceling.mp (hw ▸ rfl)
    refine ⟨?_, ?_, by simp, h.sending, ?_, fun _ => rfl, h.calling, h.recycling⟩
    · simpa [hw, hch, held] using hplaces
    · simpa [hmu] using h.producing
    · simpa [hw] using h.raised
  | drainEmpty hw hch =>
    have hmu := h.canceling.mp (hw ▸ rfl)
    refine ⟨?_, ?_, by simp, h.sending, ?_, fun _ => hch, h.calling, h.recycling⟩
    · simpa [hw, held] using hplaces
    · simpa [hmu] using h.producing
    · simpa [hw] using h.raised
  | @recycleLate r o hw =>
    obtain ⟨hheld, hch, ho, hrec, hr⟩ := h.of_waiter (by rw [hw]; rfl)
    have hc := h.raised.mpr (hw ▸ rfl)
    refine ⟨?_, h.producing, ?_, h.sending, by simp [hc], fun _ => hch, h.calling, fun _ => hc⟩
    · simp [held, hheld, hch, ho, hrec, hr]
    · simpa [hw] using h.canceling
  | @recycleTaken r hw =>
    obtain ⟨hheld, hch, -, hrec, hr⟩ := h.of_waiter (by rw [hw]; rfl)
    have hc := h.raised.mpr (hw ▸ rfl)
    refine ⟨?_, h.producing, ?_, h.sending, by simp [hc], fun _ => hch, h.calling, fun _ => hc⟩
    · simp [held, hheld, hch, hrec, hr]
    · simpa [hw] using h.canceling
  | close => exact { h with places := hplaces }

theorem AsyncRequest.reach_inv (h : Reach (· = ({} : AsyncRequest ρ)) AsyncStep s) : s.Inv :=
  h.invariant (fun _ h0 => h0 ▸ Inv.init) fun _ _ _ _ hi hst => hst.inv hi

/-! ## The outcome -/

namespace AsyncRequest

theorem Inv.returned (h : s.Inv) {r : ρ} (hw : s.waiter = .returned (some r)) :
    s.produced = some r ∧ s.recycled = [] := by
  obtain ⟨-, -, -, hrec, hr⟩ := h.of_waiter (by rw [hw]; rfl)
  exact ⟨hr, hrec⟩

theorem Inv.recycled_once (h : s.Inv) : s.recycled = [] ∨ ∃ r, s.produced = some r ∧ s.recycled = [r] := by
  cases hl : s.recycled with
  | nil => exact .inl rfl
  | cons r l =>
    have hs : s.places = (s.producer.held ++ s.resultCh.toList ++ s.waiter.held) ++ r :: l := by
      simp [AsyncRequest.places, hl]
    obtain ⟨-, hl', hr⟩ := h.only hs
    exact .inr ⟨r, hr, by rw [hl']⟩

theorem Inv.finished (h : s.Inv) (hp : s.producer = .done) {x : Option ρ} (hw : s.waiter = .returned x) :
    ∃ r, s.produced = some r ∧ (x = some r ∧ s.recycled = [] ∨ x = none ∧ s.recycled = [r]) := by
  cases x with
  | some r =>
    obtain ⟨hr, hrec⟩ := h.returned hw
    exact ⟨r, hr, .inl ⟨rfl, hrec⟩⟩
  | none =>
    have hplaces := h.places
    simp only [AsyncRequest.places, hp, hw, h.drained (hw ▸ rfl), Producing.held, held, Option.toList_none,
      List.nil_append] at hplaces
    cases hr : s.produced with
    | none => rw [h.calling.mpr hr] at hp; cases hp
    | some r => rw [hr] at hplaces; exact ⟨r, rfl, .inr ⟨rfl, hplaces⟩⟩

end AsyncRequest

/-! ## The waiter -/

theorem AsyncStep.rank_lt (hst : AsyncStep s .waiter s') : s'.waiter.rank < s.waiter.rank := by
  cases hst with
  | call hw | receive hw | waitClosed hw | tookClosed hw | tookOpen hw | lockCancel hw | flag hw | drain hw
  | drainEmpty hw | recycleLate hw | recycleTaken hw | recycleNone hw => rw [hw]; simp [rank]

theorem AsyncRequest.Inv.waiter_step (h : s.Inv) (hp : s.producer = .done) (hw : ∀ x, s.waiter ≠ .returned x) :
    ∃ s', AsyncStep s .waiter s' := by
  have hmu : s.mu ≠ some .producer := by
    intro hmu
    have hlock := h.producing.mpr hmu
    rw [hp] at hlock; cases hlock
  cases hwait : s.waiter with
  | idle => exact ⟨_, .call hwait⟩
  | waiting =>
    -- the result has not been recycled, so it is in the channel
    have hrec : s.recycled = [] := by
      refine Classical.byContradiction fun hne => ?_
      have hc := h.raised.mp (h.recycling (.inl hne))
      rw [hwait] at hc; cases hc
    cases hch : s.resultCh with
    | none =>
      have hplaces := h.places
      simp only [AsyncRequest.places, hp, hwait, hrec, hch, Producing.held, held, Option.toList_none,
        List.append_nil] at hplaces
      have hcall := h.calling.mpr (Option.toList_eq_nil_iff.mp hplaces.symm)
      rw [hp] at hcall; cases hcall
    | some => exact ⟨_, .receive hwait hch⟩
  | took =>
    cases hc : s.closed with
    | false => exact ⟨_, .tookOpen hwait hc⟩
    | true => exact ⟨_, .tookClosed hwait hc⟩
  | locking =>
    refine ⟨_, .lockCancel hwait ?_⟩
    cases hm : s.mu with
    | none => rfl
    | some side =>
      cases side with
      | producer => exact absurd hm hmu
      | waiter =>
        have hlock := h.canceling.mpr hm
        rw [hwait] at hlock; cases hlock
  | flagging => exact ⟨_, .flag hwait⟩
  | draining =>
    cases hch : s.resultCh with
    | none => exact ⟨_, .drainEmpty hwait hch⟩
    | some => exact ⟨_, .drain hwait hch⟩
  | late => exact ⟨_, .recycleLate hwait⟩
  | recycling o =>
    cases o with
    | none => exact ⟨_, .recycleNone hwait⟩
    | some => exact ⟨_, .recycleTaken hwait⟩
  | returned x => exact absurd hwait (hw x)

end Frp
