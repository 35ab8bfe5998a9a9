import Frp.Fair
import Frp.History
import Frp.Slots
import Frp.Transporter

/-!
# Every response belongs to its request

A channel is found only under the type and the lane key of the `Do` that made it, and only
while it is registered, so what is in it was dispatched for that `Do` after it was called.
-/

namespace Frp

open Function

def DoResult.taken : DoResult → Option Nat
  | message j => some j
  | sendErr | ctxErr => none

namespace DoState

def registered : DoState → Bool
  | sending | selecting | unregistering _ => true
  | idle | registering | closing _ | returned _ => false

def isReturned : DoState → Bool
  | returned _ => true
  | idle | registering | sending | selecting | unregistering _ | closing _ => false

def taken : DoState → Option Nat
  | unregistering r | closing r | returned r => r.taken
  | idle | registering | sending | selecting => none

end DoState

def DispatchState.left : DispatchState → Nat
  | sending _ => 2
  | raised => 1
  | idle | returned _ => 0

def TransporterEvent.caller : TransporterEvent → Option Nat
  | call d | register d | send d | receive d | done d | unregister d | close d => some d
  | cancel _ | lookup _ | deliver _ | raise _ | recover _ => none

def TransporterEvent.dispatcher : TransporterEvent → Option Nat
  | lookup j | deliver j | raise j | recover j => some j
  | call _ | register _ | send _ | receive _ | done _ | unregister _ | close _ | cancel _ => none

namespace TransporterCalls

variable {M : Type}

def Matches (calls : TransporterCalls M) (d j : Nat) : Prop :=
  calls.msgType j = calls.recvMsgType d ∧ calls.dispatchKey j = calls.laneKey d

def resp (calls : TransporterCalls M) : DoState → Option M
  | .returned (.message j) => some (calls.message j)
  | _ => none

end TransporterCalls

attribute [local simp] DoState.registered

namespace Transporter

variable {M : Type} {calls : TransporterCalls M} {s t : Transporter} {e : TransporterEvent}
  {log : List TransporterEvent}

structure Dispatched (calls : TransporterCalls M) (log : List TransporterEvent) (d j : Nat) : Prop where
  own : calls.Matches d j
  found : Precedes log (.call d) (.lookup j)
  delivered : Precedes log (.lookup j) (.deliver j)

structure Inv (calls : TransporterCalls M) (log : List TransporterEvent) (s : Transporter) : Prop where
  called : ∀ d, s.dos d ≠ .idle → .call d ∈ log
  registered : ∀ msgType laneKey d, s.registry msgType laneKey = some d →
    calls.recvMsgType d = msgType ∧ calls.laneKey d = laneKey ∧ (s.dos d).registered = true
  closed : ∀ d, s.closed d = (s.dos d).isReturned
  panicked : s.panicked = false
  sending : ∀ j d, s.dispatches j = .sending d → calls.Matches d j ∧ Precedes log (.call d) (.lookup j)
  buffered : ∀ d j, s.buffer d = some j → Dispatched calls log d j
  taken : ∀ d j, (s.dos d).taken = some j → Dispatched calls log d j
  returned : ∀ d j, s.dos d = .returned (.message j) → Precedes log (.deliver j) (.close d)
  once : ∀ d, log.count (.receive d) = (s.dos d).taken.toList.length

/-! ## What a step can do -/

inductive DoNext (s : Transporter) (d : Nat) : DoState → TransporterEvent → DoState → Prop
  | call : DoNext s d .idle (.call d) .registering
  | register : DoNext s d .registering (.register d) .sending
  | sendFailed : DoNext s d .sending (.send d) (.unregistering .sendErr)
  | sent : DoNext s d .sending (.send d) .selecting
  | done : DoNext s d .selecting (.done d) (.unregistering .ctxErr)
  | receive {j} (hj : s.buffer d = some j) : DoNext s d .selecting (.receive d) (.unregistering (.message j))
  | unregister (r : DoResult) : DoNext s d (.unregistering r) (.unregister d) (.closing r)
  | close (r : DoResult) : DoNext s d (.closing r) (.close d) (.returned r)

inductive DispatchNext (calls : TransporterCalls M) (s : Transporter) (j : Nat) :
    DispatchState → TransporterEvent → DispatchState → Prop
  | lookupNone (h : s.registry (calls.msgType j) (calls.dispatchKey j) = none) :
      DispatchNext calls s j .idle (.lookup j) (.returned false)
  | lookupFound {d} (h : s.registry (calls.msgType j) (calls.dispatchKey j) = some d) :
      DispatchNext calls s j .idle (.lookup j) (.sending d)
  | deliver {d} (h : s.closed d = false) : DispatchNext calls s j (.sending d) (.deliver j) (.returned true)
  | raise {d} (h : s.closed d = true) : DispatchNext calls s j (.sending d) (.raise j) .raised
  | recover : DispatchNext calls s j .raised (.recover j) (.returned false)

theorem setEntry_apply (registry : Str → Str → Option Nat) (msgType laneKey : Str) (ch : Option Nat) (a b : Str) :
    setEntry registry msgType laneKey ch a b = if msgType = a ∧ laneKey = b then ch else registry a b := by
  unfold setEntry
  by_cases ha : a = msgType
  · subst ha
    rw [update_self]
    by_cases hb : b = laneKey
    · simp [hb]
    · simp [hb, Ne.symm hb]
  · simp [ha, Ne.symm ha]

variable {d j : Nat}

namespace Step

variable (h : Step calls s e t)
include h

theorem do_next (x : Nat) : t.dos x = s.dos x ∧ e.caller ≠ some x ∨ DoNext s x (s.dos x) e (t.dos x) := by
  cases h with
  | call hd | register hd | sendFailed hd | sent hd | done hd | unregister hd | close hd | closeClosed hd =>
    refine update_moves (fun x => DoNext s x (s.dos x) _) ?_ rfl x
    rw [hd]
    constructor
  | receive hd hbuf => exact update_moves (fun x => DoNext s x (s.dos x) _) (hd ▸ .receive hbuf) rfl x
  | cancel | lookupNone | lookupFound | deliver | raise | recover => exact .inl ⟨rfl, nofun⟩

theorem dispatch_next (x : Nat) : t.dispatches x = s.dispatches x ∧ e.dispatcher ≠ some x ∨
    DispatchNext calls s x (s.dispatches x) e (t.dispatches x) := by
  cases h with
  | lookupNone hj hreads | lookupFound hj hreads | deliver hj hreads | raise hj hreads =>
    refine update_moves (fun x => DispatchNext calls s x (s.dispatches x) _) ?_ rfl x
    rw [hj]
    constructor
    exact hreads
  | recover hj => exact update_moves (fun x => DispatchNext calls s x (s.dispatches x) _) (hj ▸ .recover) rfl x
  | call | register | sendFailed | sent | done | receive | unregister | close | closeClosed | cancel =>
    exact .inl ⟨rfl, nofun⟩

theorem do_rel {R : DoState → DoState → Prop} (d : Nat)
    (hsame : ∀ p, e.caller ≠ some d → R p p) (hnext : ∀ p q, DoNext s d p e q → R p q) : R (s.dos d) (t.dos d) := by
  rcases h.do_next d with ⟨heq, hcaller⟩ | hmove
  · rw [heq]; exact hsame _ hcaller
  · exact hnext _ _ hmove

theorem registered_stays (hd : (s.dos d).registered = true)
    (he : e ≠ .unregister d) : (t.dos d).registered = true := by
  refine h.do_rel d (R := fun p q => p.registered = true → q.registered = true) (fun _ _ => id) (fun p q hnext => ?_) hd
  cases hnext <;> simp_all [DoState.registered]

theorem isReturned_eq (he : e ≠ .close d) : (t.dos d).isReturned = (s.dos d).isReturned := by
  refine h.do_rel d (R := fun p q => q.isReturned = p.isReturned) (fun _ _ => rfl) fun p q hnext => ?_
  cases hnext <;> simp_all [DoState.isReturned]

theorem closed_eq (he : e ≠ .close d) : t.closed d = s.closed d := by
  cases h with
  | close =>
    apply update_of_ne
    intro heq; exact he (by rw [heq])
  | _ => rfl

theorem registry_eq {msgType laneKey : Str} (hd : t.registry msgType laneKey = some d) :
    e = .register d ∧ calls.recvMsgType d = msgType ∧ calls.laneKey d = laneKey ∨
      s.registry msgType laneKey = some d ∧
        ∀ x, e = .unregister x → ¬ (calls.recvMsgType x = msgType ∧ calls.laneKey x = laneKey) := by
  cases h with
  | register =>
    change setEntry s.registry _ _ _ msgType laneKey = some d at hd
    rw [setEntry_apply] at hd
    split at hd
    · rename_i hkey
      cases hd; exact .inl ⟨rfl, hkey⟩
    · exact .inr ⟨hd, nofun⟩
  | unregister =>
    change setEntry s.registry _ _ _ msgType laneKey = some d at hd
    rw [setEntry_apply] at hd
    split at hd
    · cases hd
    · rename_i hkey
      refine .inr ⟨hd, fun x hux => ?_⟩
      cases hux; exact hkey
  | _ => exact .inr ⟨hd, nofun⟩

theorem sending_eq (hj : t.dispatches j = .sending d) :
    s.dispatches j = .sending d ∨ e = .lookup j ∧ s.registry (calls.msgType j) (calls.dispatchKey j) = some d := by
  rcases h.dispatch_next j with ⟨heq, -⟩ | hnext
  · rw [heq] at hj; exact .inl hj
  · rw [hj] at hnext
    generalize s.dispatches j = p at hnext ⊢
    cases hnext with
    | lookupFound hfound => exact .inr ⟨rfl, hfound⟩

theorem buffer_eq (hd : t.buffer d = some j) :
    s.buffer d = some j ∨ e = .deliver j ∧ s.dispatches j = .sending d := by
  cases h with
  | receive => exact .inl (of_update (· = some j) hd nofun)
  | deliver hx =>
    rcases update_cases (· = some j) hd with ⟨rfl, hnew⟩ | ⟨-, hold⟩
    · cases hnew; exact .inr ⟨rfl, hx⟩
    · exact .inl hold
  | _ => exact .inl hd

theorem taken_eq (hd : (t.dos d).taken = some j) :
    (s.dos d).taken = some j ∨ e = .receive d ∧ s.buffer d = some j := by
  refine h.do_rel d (R := fun p q => q.taken = some j → p.taken = some j ∨ e = .receive d ∧ s.buffer d = some j)
    (fun _ _ => .inl) (fun p q hnext hq => ?_) hd
  cases hnext with
  | receive hbuf => cases hq; exact .inr ⟨rfl, hbuf⟩
  | unregister | close => exact .inl hq
  | _ => cases hq

theorem returned_eq {r : DoResult} (hd : t.dos d = .returned r) :
    s.dos d = .returned r ∨ e = .close d ∧ s.dos d = .closing r := by
  refine h.do_rel d (R := fun p q => q = .returned r → p = .returned r ∨ e = .close d ∧ p = .closing r)
    (fun _ _ => .inl) (fun p q hnext hq => ?_) hd
  cases hnext <;> simp_all

theorem idle_eq (hd : t.dos d ≠ .idle) : s.dos d ≠ .idle ∨ e = .call d := by
  refine h.do_rel d (R := fun p q => q ≠ .idle → p ≠ .idle ∨ e = .call d) (fun _ _ => .inl) (fun p q hnext _ => ?_) hd
  cases hnext <;> simp

theorem count_receive (hd : log.count (.receive d) = (s.dos d).taken.toList.length) :
    (e :: log).count (.receive d) = (t.dos d).taken.toList.length := by
  refine h.do_rel d (R := fun p q => log.count (.receive d) = p.taken.toList.length →
    (e :: log).count (.receive d) = q.taken.toList.length) (fun p hcaller hp => ?_) (fun p q hnext hp => ?_) hd
  · have hne : e ≠ .receive d := by
      intro he
      subst he; exact hcaller rfl
    rw [List.count_cons_of_ne hne, hp]
  · cases hnext <;> simp [hp, DoState.taken, DoResult.taken]

end Step

/-! ## The invariant -/

theorem Inv.start (h : Init s) : Inv calls [] s := by
  subst h; exact ⟨nofun, nofun, fun _ => rfl, rfl, nofun, nofun, nofun, nofun, fun _ => rfl⟩

theorem Dispatched.cons (h : Dispatched calls log d j) : Dispatched calls (e :: log) d j :=
  ⟨h.own, h.found.cons, h.delivered.cons⟩

theorem Inv.step (hi : Inv calls log s) (h : Step calls s e t) : Inv calls (e :: log) t where
  called := by
    intro d hd
    rcases h.idle_eq hd with hold | rfl
    · exact List.mem_cons_of_mem _ (hi.called d hold)
    · exact List.mem_cons_self
  registered := by
    intro msgType laneKey d hd
    rcases h.registry_eq hd with ⟨rfl, htype, hkey⟩ | ⟨hold, hkeep⟩
    · refine ⟨htype, hkey, ?_⟩
      cases h with
      | register => simp [setDo]
    · obtain ⟨htype, hkey, hreg⟩ := hi.registered _ _ d hold
      exact ⟨htype, hkey, h.registered_stays hreg fun he => hkeep d he ⟨htype, hkey⟩⟩
  closed := by
    intro d
    by_cases he : e = .close d
    · subst he
      cases h with
      | close => simp [setDo, DoState.isReturned]
      | closeClosed hd hclosed => rw [hi.closed, hd] at hclosed; cases hclosed
    · rw [h.closed_eq he, h.isReturned_eq he, hi.closed]
  panicked := by
    cases h with
    | closeClosed hd hclosed => rw [hi.closed, hd] at hclosed; cases hclosed
    | _ => exact hi.panicked
  sending := by
    intro j d hj
    rcases h.sending_eq hj with hold | ⟨rfl, hfound⟩
    · obtain ⟨hm, hp⟩ := hi.sending j d hold
      exact ⟨hm, hp.cons⟩
    · obtain ⟨htype, hkey, hreg⟩ := hi.registered _ _ d hfound
      refine ⟨⟨htype.symm, hkey.symm⟩, precedes_newest (hi.called d ?_)⟩
      intro hidle
      rw [hidle] at hreg; cases hreg
  buffered := by
    intro d j hd
    rcases h.buffer_eq hd with hold | ⟨rfl, hsending⟩
    · exact (hi.buffered d j hold).cons
    · obtain ⟨hm, hp⟩ := hi.sending j d hsending
      exact ⟨hm, hp.cons, precedes_newest hp.mem⟩
  taken := by
    intro d j hd
    rcases h.taken_eq hd with hold | ⟨-, hbuf⟩
    · exact (hi.taken d j hold).cons
    · exact (hi.buffered d j hbuf).cons
  returned := by
    intro d j hd
    rcases h.returned_eq hd with hold | ⟨rfl, hclosing⟩
    · exact (hi.returned d j hold).cons
    · have htaken : (s.dos d).taken = some j := by rw [hclosing]; rfl
      exact precedes_newest (hi.taken d j htaken).delivered.mem
  once := fun d => h.count_receive (hi.once d)

theorem inv_of_traced (h : Traced Init (Step calls) log s) : Inv calls log s :=
  h.invariant (fun _ => Inv.start) fun _ _ _ _ => Inv.step

theorem Inv.resp (hi : Inv calls log s) {m : M} (hm : calls.resp (s.dos d) = some m) :
    ∃ j, m = calls.message j ∧ Dispatched calls log d j ∧ Precedes log (.deliver j) (.close d) := by
  generalize hp : s.dos d = p at hm
  cases p with
  | returned r =>
    cases r with
    | message j =>
      cases hm
      have htaken : (s.dos d).taken = some j := by rw [hp]; rfl
      exact ⟨j, rfl, hi.taken d j htaken, hi.returned d j hp⟩
    | _ => cases hm
  | _ => cases hm

/-! ## Distinct lane keys -/

theorem Inv.entry_gone (hi : Inv calls log s) (hlanes : Injective calls.laneKey)
    (hd : (s.dos d).registered = false) : s.registry (calls.recvMsgType d) (calls.laneKey d) = none := by
  cases hentry : s.registry (calls.recvMsgType d) (calls.laneKey d) with
  | none => rfl
  | some x =>
    -- the entry can only be that of the `Do` with this lane key
    obtain ⟨-, hkey, hreg⟩ := hi.registered _ _ x hentry
    rw [hlanes hkey, hd] at hreg; cases hreg

/-! ## A dispatch waits only for its `Do` -/

theorem Step.isReturned_stays (h : Step calls s e t) (hd : (s.dos d).isReturned = true) :
    (t.dos d).isReturned = true := by
  refine h.do_rel d (R := fun p q => p.isReturned = true → q.isReturned = true) (fun _ _ => id)
    (fun p q hnext hp => ?_) hd
  cases hnext <;> cases hp

structure Late (calls : TransporterCalls M) (j : Nat) (s : Transporter) : Prop where
  reach : Reach Init (Step calls) s
  waits : (∃ d, s.dispatches j = .sending d ∧ (s.dos d).isReturned = true) ∨ s.dispatches j = .raised

theorem Late.enabled (h : Late calls j s) : ∃ e t, e.dispatcher = some j ∧ Step calls s e t := by
  rcases h.waits with ⟨d, hj, hd⟩ | hj
  · obtain ⟨log, hlog⟩ := h.reach.traced
    have hclosed : s.closed d = true := by rw [(inv_of_traced hlog).closed, hd]
    exact ⟨_, _, rfl, .raise hj hclosed⟩
  · exact ⟨_, _, rfl, .recover hj⟩

theorem Late.step (h : Late calls j s) (hst : Step calls s e t) : (∃ ok, t.dispatches j = .returned ok) ∨
      Late calls j t ∧ (t.dispatches j).left ≤ (s.dispatches j).left ∧
        (e.dispatcher = some j → (t.dispatches j).left < (s.dispatches j).left) := by
  have hreach := h.reach.next hst
  rcases hst.dispatch_next j with ⟨heq, hother⟩ | hnext
  · refine .inr ⟨⟨hreach, ?_⟩, Nat.le_of_eq (by rw [heq]), fun hmine => absurd hmine hother⟩
    rw [heq]; exact h.waits.imp_left fun ⟨d, hj, hd⟩ => ⟨d, hj, hst.isReturned_stays hd⟩
  · have hwaits := h.waits
    generalize s.dispatches j = p at hnext hwaits ⊢
    generalize hq : t.dispatches j = q at hnext
    cases hnext with
    | deliver => exact .inl ⟨true, rfl⟩
    | recover => exact .inl ⟨false, rfl⟩
    | raise => exact .inr ⟨⟨hreach, .inr hq⟩, Nat.le_succ 1, fun _ => Nat.lt_succ_self 1⟩
    | lookupNone | lookupFound => simp at hwaits

theorem dispatch_returns {ρ : Run (Step calls)} (h0 : Init (ρ.state 0)) {n : Nat}
    (hfair : ρ.Fair (·.dispatcher = some j))
    (hj : (∃ d, (ρ.state n).dispatches j = .sending d ∧ ((ρ.state n).dos d).isReturned = true) ∨
      (ρ.state n).dispatches j = .raised) :
    ∃ m, n ≤ m ∧ ∃ ok, (ρ.state m).dispatches j = .returned ok :=
  hfair.reaches (P := Late calls j)
    (fun s => (s.dispatches j).left) (fun _ _ _ hs _ hst => hs.step hst) (fun _ hs _ => hs.enabled) n
    ⟨ρ.reach h0 n, hj⟩

/-! ## Requests and responses -/

structure Matched (calls : TransporterCalls M) (log : List TransporterEvent) (s : Transporter) : Prop where
  once : ∀ d, log.count (.receive d) ≤ 1
  own : ∀ d m, calls.resp (s.dos d) = some m → ∃ j, m = calls.message j ∧ calls.Matches d j ∧
    Precedes log (.call d) (.lookup j) ∧ Precedes log (.lookup j) (.deliver j) ∧ Precedes log (.deliver j) (.close d)
  removed : ∀ d r, s.dos d = .returned r → s.registry (calls.recvMsgType d) (calls.laneKey d) = none
  panicked : s.panicked = false
  blocked : ∀ j d, s.dispatches j = .sending d → (∀ e t, Step calls s e t → e.dispatcher ≠ some j) →
    calls.Matches d j ∧ ∀ r, s.dos d ≠ .returned r

theorem Inv.blocked (hi : Inv calls log s) (hj : s.dispatches j = .sending d)
    (hstuck : ∀ e t, Step calls s e t → e.dispatcher ≠ some j) (r : DoResult) : s.dos d ≠ .returned r := by
  intro hd
  have hclosed : s.closed d = true := by rw [hi.closed, hd]; rfl
  exact hstuck _ _ (.raise hj hclosed) rfl

theorem matched_of_traced (hlanes : Injective calls.laneKey) (h : Traced Init (Step calls) log s) :
    Matched calls log s := by
  have hi := inv_of_traced h
  refine ⟨fun d => ?_, fun d m hm => ?_, fun d r hd => ?_, hi.panicked, fun j d hj hstuck => ?_⟩
  · rw [hi.once d]
    cases (s.dos d).taken <;> simp
  · obtain ⟨j, hmsg, hdisp, hclose⟩ := hi.resp hm
    exact ⟨j, hmsg, hdisp.own, hdisp.found, hdisp.delivered, hclose⟩
  · apply hi.entry_gone hlanes
    rw [hd]; rfl
  · exact ⟨(hi.sending j d hj).1, hi.blocked hj hstuck⟩

/-- A `Do` returns a message dispatched for it during the call, and a dispatch blocks no longer than
the `Do` of its lane. -/
theorem requests_matched (calls : TransporterCalls M) (hlanes : Injective calls.laneKey) :
    (∀ log s, Traced Init (Step calls) log s → Matched calls log s) ∧
      ∀ ρ : Run (Step calls), Init (ρ.state 0) → ∀ j, ρ.Fair (·.dispatcher = some j) → ∀ n,
        (∃ d, (ρ.state n).dispatches j = .sending d ∧ ((ρ.state n).dos d).isReturned = true) ∨
          (ρ.state n).dispatches j = .raised →
        ∃ m, n ≤ m ∧ ∃ ok, (ρ.state m).dispatches j = .returned ok :=
  ⟨fun _ _ => matched_of_traced hlanes, fun _ h0 _ hfair _ => dispatch_returns h0 hfair⟩

def punchCalls : TransporterCalls Nat where
  laneKey d := List.replicate d 0
  recvMsgType _ := lit "NatHoleResp"
  message j := j
  msgType _ := lit "NatHoleResp"
  dispatchKey _ := []

theorem requests_matched_late : ∃ log s, Traced Init (Step punchCalls) log s ∧ punchCalls.resp (s.dos 0) = some 0 ∧
    s.dispatches 1 = .returned false ∧ Matched punchCalls log s := by
  have hlanes : Injective punchCalls.laneKey := by
    intro d x h; simpa [punchCalls] using congrArg List.length h
  have h0 : Traced Init (Step punchCalls) [] _ := .start rfl
  have h1 := (((h0.next (.call (d := 0) rfl)).next (.register (d := 0) rfl)).next (.sent (d := 0) rfl))
  have h2 := (h1.next (.lookupFound (j := 0) rfl rfl)).next (.lookupFound (j := 1) rfl rfl)
  have h3 := (h2.next (.deliver (j := 0) rfl rfl rfl)).next (.receive (d := 0) rfl rfl)
  have h4 := (h3.next (.unregister (d := 0) rfl)).next (.close (d := 0) rfl rfl)
  have h5 := (h4.next (.raise (j := 1) rfl rfl)).next (.recover (j := 1) rfl)
  exact ⟨_, _, h5, rfl, rfl, (requests_matched punchCalls hlanes).1 _ _ h5⟩

end Transporter

end Frp
