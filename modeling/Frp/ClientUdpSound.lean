import Frp.ClientUdp
import Frp.History

/-!
# One work connection for the client's UDP proxy

A connection is closed by the first section of `Close` after its install, unless another
install comes before it; then nothing closes it.
-/

namespace Frp

open Function

/-! ## Orders of sections -/

def newest : List UDPSection → Option Nat
  | [] => none
  | .install i :: _ => some i
  | .close :: log | .read _ _ :: log => newest log

def UDPSection.Installs (x : UDPSection) : Prop := ∃ i, x = .install i

section
variable {log : List UDPSection} {i j : Nat} {u : ChanUse} {x : UDPSection}

theorem newest_cons (hx : ∀ i, x ≠ .install i) : newest (x :: log) = newest log := by
  cases x with
  | install i => exact absurd rfl (hx i)
  | close | read => rfl

theorem newest_eq_some :
    newest log = some i ↔ ∃ late early, log = late ++ .install i :: early ∧ ∀ j, .install j ∉ late := by
  induction log with
  | nil => simp [newest]
  | cons x log ih =>
    by_cases hx : ∃ j, x = .install j
    · obtain ⟨j, rfl⟩ := hx
      constructor
      · intro h
        cases h; exact ⟨[], log, rfl, fun _ => List.not_mem_nil⟩
      · intro h
        obtain ⟨late, early, heq, hno⟩ := h
        cases late with
        | nil => cases heq; rfl
        | cons => cases heq; exact absurd List.mem_cons_self (hno j)
    · have hne : ∀ j, x ≠ .install j := fun j h => hx ⟨j, h⟩
      rw [newest_cons hne, ih]
      constructor
      · intro h
        obtain ⟨late, early, rfl, hno⟩ := h
        refine ⟨x :: late, early, rfl, fun j hj => ?_⟩
        rcases List.mem_cons.mp hj with h | h
        · exact hne j h.symm
        · exact hno j h
      · rintro ⟨late, early, heq, hno⟩
        cases late with
        | nil => cases heq; exact absurd rfl (hne i)
        | cons y late =>
          cases heq; exact ⟨late, early, rfl, fun j hj => hno j (List.mem_cons_of_mem _ hj)⟩

theorem ended_iff : Ended log ↔ AfterEach UDPSection.Installs (· = .close) log := by
  constructor
  · intro h late x early heq hx
    obtain ⟨i, rfl⟩ := hx
    exact ⟨_, h late i early heq, rfl⟩
  · intro h late i early heq
    obtain ⟨x, hx, rfl⟩ := h late _ early heq ⟨i, rfl⟩
    exact hx

theorem separated_iff : Separated log ↔ BetweenEach UDPSection.Installs (· = .close) log := by
  constructor
  · intro h late y between x early heq hy hx
    obtain ⟨j, rfl⟩ := hy
    obtain ⟨i, rfl⟩ := hx
    exact ⟨_, h late j between i early heq, rfl⟩
  · intro h late j between i early heq
    obtain ⟨x, hx, rfl⟩ := h late _ between _ early heq ⟨j, rfl⟩ ⟨i, rfl⟩
    exact hx

theorem not_installs (hx : ∀ i, x ≠ .install i) : ¬ x.Installs := fun h => hx _ h.choose_spec

theorem ended_close : Ended (.close :: log) :=
  ended_iff.mpr ((afterEach_cons (not_installs (x := .close) nofun)).mpr (.inl rfl))

theorem not_ended_install : ¬ Ended (.install i :: log) := fun h => not_afterEach ⟨i, rfl⟩ (ended_iff.mp h)

theorem ended_read : Ended (.read i u :: log) ↔ Ended log := by
  rw [ended_iff, ended_iff, afterEach_cons (not_installs (x := .read i u) nofun)]
  exact or_iff_right nofun

theorem separated_cons (hx : ∀ i, x ≠ .install i) : Separated (x :: log) ↔ Separated log := by
  rw [separated_iff, separated_iff, betweenEach_cons_of_not (not_installs hx)]

theorem separated_install : Separated (.install j :: log) ↔ Separated log ∧ Ended log := by
  rw [separated_iff, separated_iff, ended_iff, betweenEach_cons ⟨j, rfl⟩]

theorem prompt_cons (hx : x ≠ .read i u) : Prompt i u (x :: log) ↔ Prompt i u log := by
  constructor
  · intro h
    obtain ⟨late, between, early, heq, hno⟩ := h
    cases late with
    | nil => cases heq; exact absurd rfl hx
    | cons y late => cases heq; exact ⟨late, between, early, rfl, hno⟩
  · rintro ⟨late, between, early, rfl, hno⟩
    exact ⟨x :: late, between, early, rfl, hno⟩

theorem prompt_read (hfresh : .read i u ∉ log) : Prompt i u (.read i u :: log) ↔ newest log = some i := by
  rw [newest_eq_some]
  constructor
  · intro h
    obtain ⟨late, between, early, heq, hno⟩ := h
    cases late with
    | nil => cases heq; exact ⟨between, early, rfl, hno⟩
    | cons => cases heq; exact absurd (List.mem_append_right _ List.mem_cons_self) hfresh
  · rintro ⟨between, early, rfl, hno⟩
    exact ⟨[], between, early, rfl, hno⟩

end

/-! ## The fields of the proxy -/

def InWorkConnPc.fresh : InWorkConnPc → Bool
  | idle | closing | wrapping | framing | installing => true
  | _ => false

theorem InWorkConnPc.not_setUp {p : InWorkConnPc} (h : p.fresh = true) : p.setUp = false := by
  cases p <;> first | rfl | cases h

theorem ChanUse.next_reads (u : ChanUse) : u.next.reads = u.rank + 1 := by cases u <;> rfl

theorem ChanUse.next_setUp (u : ChanUse) : u.next.setUp = true ∧ u.next.fresh = false ∧ u.next ≠ .failed := by
  cases u <;> exact ⟨rfl, rfl, nofun⟩

namespace ClientUDPProxy

variable {s t : ClientUDPProxy} {e : UDPCall} {i c : Nat} {u : ChanUse} {p : InWorkConnPc}

section
variable (s : ClientUDPProxy)

@[simp] theorem close_log : s.close.log = .close :: s.log := by unfold close; split <;> rfl
@[simp] theorem close_calls : s.close.calls = s.calls := by unfold close; split <;> rfl
@[simp] theorem close_workConn : s.close.workConn = s.workConn := by unfold close; split <;> rfl
@[simp] theorem close_chans : s.close.chans = s.chans := by unfold close; split <;> rfl
@[simp] theorem close_took : s.close.took = s.took := by unfold close; split <;> rfl
@[simp] theorem close_sent : s.close.sent = s.sent := by unfold close; split <;> rfl
@[simp] theorem close_newest : newest s.close.log = newest s.log := by rw [close_log]; rfl
@[simp] theorem close_closed : s.close.closed = true := by
  unfold close
  split
  next h => exact h
  next => rfl

end

theorem close_connClosed (s : ClientUDPProxy) (c : Nat) :
    s.close.connClosed c = (s.connClosed c || (!s.closed && decide (s.workConn = some c))) := by
  unfold close
  split
  next h => simp [h]
  next h => by_cases hc : s.workConn = some c <;> simp [h, hc]

theorem close_chanCloses (s : ClientUDPProxy) (side : ChanSide) (c : Nat) :
    s.close.chanCloses side c = s.chanCloses side c + (!s.closed && decide (s.chans side = some c)).toNat := by
  unfold close
  split
  next h => simp [h]
  next h => by_cases hc : s.chans side = some c <;> simp [h, hc]

structure Inv (s : ClientUDPProxy) : Prop where
  conn : s.workConn = newest s.log
  chans : ∀ side, s.chans side = newest s.log
  ended : Ended s.log ↔ s.closed = true ∨ newest s.log = none
  current : ∀ c, newest s.log = some c → (s.calls c).setUp = true ∧ s.connClosed c = s.closed
  installed : ∀ i, (s.calls i).setUp = true → newest s.log ≠ none
  fresh : ∀ i, (s.calls i).fresh = true → s.connClosed i = false
  failed : ∀ i, s.calls i = .failed → s.connClosed i = true
  separated : Separated s.log → ∀ i, (s.calls i).setUp = true → s.connClosed i = false → newest s.log = some i
  leaked : ¬ Separated s.log → ∃ c, (s.calls c).setUp = true ∧ s.connClosed c = false ∧ newest s.log ≠ some c

variable {conns : Nat → Bool} {l : List UDPCall}

theorem Inv.move (hi : s.Inv) (hp : (s.calls i).fresh = true)
    (hq : p.fresh = true ∧ conns = s.connClosed ∨ p = .failed ∧ conns = update s.connClosed i true) :
    Inv { s with calls := update s.calls i p, connClosed := conns, starts := l } := by
  have hset : p.setUp = false := by
    rcases hq with ⟨hq, -⟩ | ⟨rfl, -⟩
    · exact InWorkConnPc.not_setUp hq
    · rfl
  -- a call that is set up is another one, and nothing changes for it
  have hother : ∀ {k}, (update s.calls i p k).setUp = true →
      (s.calls k).setUp = true ∧ conns k = s.connClosed k := by
    intro k hk
    rcases update_cases (InWorkConnPc.setUp · = true) hk with ⟨-, hk⟩ | ⟨hne, hk⟩
    · cases hset.symm.trans hk
    · refine ⟨hk, ?_⟩
      rcases hq with ⟨-, rfl⟩ | ⟨-, rfl⟩
      · rfl
      · exact update_of_ne hne ..
  have hold : ∀ {k}, (s.calls k).setUp = true → (update s.calls i p k).setUp = true := by
    intro k hk
    refine update_keeps (InWorkConnPc.setUp · = true) hk fun h => ?_
    cases (InWorkConnPc.not_setUp hp).symm.trans h
  refine ⟨hi.conn, hi.chans, hi.ended, fun c hc => ?_, fun k hk => hi.installed k (hother hk).1, fun k hk => ?_,
    fun k hk => ?_, fun hsep k hk hopen => ?_, fun hsep => ?_⟩
  · obtain ⟨hup, hcl⟩ := hi.current c hc
    exact ⟨hold hup, (hother (hold hup)).2.trans hcl⟩
  · rcases update_cases (InWorkConnPc.fresh · = true) hk with ⟨rfl, hf⟩ | ⟨hne, hf⟩
    · rcases hq with ⟨-, rfl⟩ | ⟨rfl, -⟩
      · exact hi.fresh k hp
      · cases hf
    · rcases hq with ⟨-, rfl⟩ | ⟨-, rfl⟩
      · exact hi.fresh k hf
      · exact (update_of_ne hne ..).trans (hi.fresh k hf)
  · rcases update_cases (· = InWorkConnPc.failed) hk with ⟨rfl, hf⟩ | ⟨hne, hf⟩
    · rcases hq with ⟨hq, -⟩ | ⟨-, rfl⟩
      · rw [hf] at hq; cases hq
      · exact update_self ..
    · rcases hq with ⟨-, rfl⟩ | ⟨-, rfl⟩
      · exact hi.failed k hf
      · exact (update_of_ne hne ..).trans (hi.failed k hf)
  · exact hi.separated hsep k (hother hk).1 ((hother hk).2 ▸ hopen)
  · obtain ⟨c, hup, hopen, hne⟩ := hi.leaked hsep
    exact ⟨c, hold hup, (hother (hold hup)).2.trans hopen, hne⟩

theorem Inv.close (hi : s.Inv) : s.close.Inv := by
  have hcl : ∀ c, s.close.connClosed c = (s.connClosed c || (!s.closed && decide (newest s.log = some c))) := by
    intro c; rw [close_connClosed, hi.conn]
  have hnew := s.close_newest
  have hsepIff : Separated s.close.log ↔ Separated s.log := by rw [close_log]; exact separated_cons nofun
  refine ⟨?_, fun side => ?_, ?_, fun c hc => ?_, fun i hup => ?_, fun i hf => ?_, fun i hf => ?_,
    fun hsep i hup hopen => ?_, fun hsep => ?_⟩
  · rw [close_workConn, hnew, hi.conn]
  · rw [close_chans, hnew, hi.chans]
  · rw [close_log]; simp only [ended_close, close_closed, true_or]
  · rw [hnew] at hc
    obtain ⟨hup, hc'⟩ := hi.current c hc
    rw [close_calls, close_closed, hcl, hc']
    refine ⟨hup, ?_⟩
    cases s.closed <;> simp [hc]
  · rw [close_calls] at hup
    rw [hnew]; exact hi.installed i hup
  · rw [close_calls] at hf
    have hne : newest s.log ≠ some i := by
      intro h
      cases (InWorkConnPc.not_setUp hf).symm.trans (hi.current i h).1
    rw [hcl, hi.fresh i hf]; simp [hne]
  · rw [close_calls] at hf
    rw [hcl, hi.failed i hf]; rfl
  · rw [close_calls] at hup
    rw [hcl, Bool.or_eq_false_iff] at hopen
    rw [hnew]; exact hi.separated (hsepIff.mp hsep) i hup hopen.1
  · obtain ⟨c, hup, hopen, hne⟩ := hi.leaked fun h => hsep (hsepIff.mpr h)
    refine ⟨c, by rw [close_calls]; exact hup, ?_, by rw [hnew]; exact hne⟩
    rw [hcl, hopen]; simp [hne]

theorem Inv.install (hi : s.Inv) (hp : s.calls i = .installing) :
    ((s.install i).setCall i (.starting .sender)).Inv := by
  have hopen : s.connClosed i = false := hi.fresh i (hp ▸ rfl)
  have hold : ∀ {k}, (s.calls k).setUp = true → k ≠ i := by
    intro k hk h
    rw [h, hp] at hk; cases hk
  have hup : ∀ {k}, (s.calls k).setUp = true → (update s.calls i (.starting .sender) k).setUp = true :=
    fun hk => update_keeps (InWorkConnPc.setUp · = true) hk fun _ => rfl
  refine ⟨rfl, fun _ => rfl, ?_, fun c hc => ?_, fun _ _ => nofun, fun k hk => ?_, fun k hk => ?_,
    fun hsep k hk ho => ?_, fun hsep => ?_⟩
  · refine iff_of_false not_ended_install ?_
    intro h
    rcases h with h | h <;> cases h
  · cases hc; exact ⟨by simp [ClientUDPProxy.install, setCall, InWorkConnPc.setUp], hopen⟩
  · exact hi.fresh k (of_update (InWorkConnPc.fresh · = true) hk nofun)
  · exact hi.failed k (of_update (· = InWorkConnPc.failed) hk nofun)
  · -- with a section of Close since the last install, no other connection is open
    obtain ⟨hsep, hend⟩ := separated_install.mp hsep
    rcases update_cases (InWorkConnPc.setUp · = true) hk with ⟨rfl, -⟩ | ⟨-, hk⟩
    · rfl
    · have hnew := hi.separated hsep k hk ho
      rcases hi.ended.mp hend with hcl | hnone
      · cases ((hi.current k hnew).2.trans hcl).symm.trans ho
      · cases hnew.symm.trans hnone
  · by_cases hs : Separated s.log
    · have hend : ¬ Ended s.log := fun h => hsep (separated_install.mpr ⟨hs, h⟩)
      rw [hi.ended, not_or] at hend
      obtain ⟨c, hc⟩ := Option.ne_none_iff_exists'.mp hend.2
      obtain ⟨hcup, hccl⟩ := hi.current c hc
      exact ⟨c, hup hcup, hccl.trans (by simpa using hend.1), fun h => hold hcup (Option.some.inj h).symm⟩
    · obtain ⟨c, hcup, hccl, -⟩ := hi.leaked hs
      exact ⟨c, hup hcup, hccl, fun h => hold hcup (Option.some.inj h).symm⟩

theorem Inv.read {took : Nat → ChanUse → Option Nat} (hi : s.Inv) (hp : s.calls i = .starting u) :
    Inv { s.setCall i u.next with took := took, log := .read i u :: s.log } := by
  obtain ⟨hset, hfresh, hfailed⟩ := u.next_setUp
  have hup : ∀ {k}, (update s.calls i u.next k).setUp = true ↔ (s.calls k).setUp = true := by
    intro k
    by_cases hk : k = i
    · subst hk
      rw [update_self, hp]; exact iff_of_true hset rfl
    · rw [update_of_ne hk]
  have hsepIff : Separated (.read i u :: s.log) ↔ Separated s.log := separated_cons nofun
  refine ⟨hi.conn, hi.chans, ended_read.trans hi.ended, fun c hc => ?_, fun k hk => hi.installed k (hup.mp hk),
    fun k hk => ?_, fun k hk => ?_, fun hsep k hk => hi.separated (hsepIff.mp hsep) k (hup.mp hk), fun hsep => ?_⟩
  · exact ⟨hup.mpr (hi.current c hc).1, (hi.current c hc).2⟩
  · rcases update_cases (InWorkConnPc.fresh · = true) hk with ⟨-, hk⟩ | ⟨-, hk⟩
    · cases hfresh.symm.trans hk
    · exact hi.fresh k hk
  · exact hi.failed k (of_update (· = InWorkConnPc.failed) hk hfailed)
  · obtain ⟨c, hcup, hc⟩ := hi.leaked fun h => hsep (hsepIff.mpr h)
    exact ⟨c, hup.mpr hcup, hc⟩

theorem Inv.step (hi : s.Inv) (hst : ClientUDPStep s e t) : t.Inv := by
  cases hst with
  | start hp | wrap hp | codec hp => exact hi.move (hp ▸ rfl) (.inl ⟨rfl, rfl⟩)
  | wrapFails hp | codecFails hp => exact hi.move (hp ▸ rfl) (.inr ⟨rfl, rfl⟩)
  | closeOld hp => exact hi.close.move (by rw [close_calls, hp]; rfl) (.inl ⟨rfl, rfl⟩)
  | install hp => exact hi.install hp
  | read hp => exact hi.read hp
  | put | send | closeStarts => exact { hi with }
  | close =>
    have h := hi.close
    exact { h with }

theorem Reachable.inv (h : s.Reachable) : s.Inv := by
  refine Reach.invariant (fun s h0 => ?_) (fun s e t _ hi hst => hi.step hst) h
  subst h0
  refine ⟨rfl, fun _ => rfl, ⟨fun _ => .inr rfl, fun _ late i early h => ?_⟩, nofun, nofun, fun _ _ => rfl, nofun,
    nofun, fun h => absurd (fun late j between i early heq => ?_) h⟩
  · cases late <;> cases h
  · cases late <;> cases heq

/-! ## Channels -/

structure ChansOk (s : ClientUDPProxy) : Prop where
  once : ∀ side c, s.chanCloses side c ≤ 1
  current : ∀ side c, newest s.log = some c → s.chanCloses side c = s.closed.toNat
  unmade : ∀ side c, (s.calls c).setUp = false → s.chanCloses side c = 0

theorem ChansOk.close (h : s.ChansOk) (hi : s.Inv) : s.close.ChansOk := by
  have hcl : ∀ side c,
      s.close.chanCloses side c = s.chanCloses side c + (!s.closed && decide (newest s.log = some c)).toNat := by
    intro side c; rw [close_chanCloses, hi.chans]
  refine ⟨fun side c => ?_, fun side c hc => ?_, fun side c hc => ?_⟩
  · rw [hcl]
    by_cases hc : newest s.log = some c
    · rw [h.current side c hc]
      cases s.closed <;> simp [hc]
    · simpa [hc] using h.once side c
  · rw [close_newest] at hc
    rw [hcl, h.current side c hc, close_closed]
    cases s.closed <;> simp [hc]
  · rw [close_calls] at hc
    have hne : newest s.log ≠ some c := by
      intro hn
      cases hc.symm.trans (hi.current c hn).1
    rw [hcl, h.unmade side c hc]; simp [hne]

theorem ChansOk.move (h : s.ChansOk) (hp : (s.calls i).setUp = false) :
    ChansOk { s with calls := update s.calls i p, connClosed := conns, starts := l } := by
  refine ⟨h.once, h.current, fun side c hc => ?_⟩
  rcases update_cases (InWorkConnPc.setUp · = false) hc with ⟨rfl, -⟩ | ⟨-, hc⟩
  · exact h.unmade side c hp
  · exact h.unmade side c hc

/-- No channel is closed twice, and those of the newest call are closed exactly if the proxy is. -/
theorem Reachable.chansOk (h : s.Reachable) : s.ChansOk := by
  refine Reach.invariant (fun s h0 => ?_) (fun s e t hr h hst => ?_) h
  · subst h0; exact ⟨fun _ _ => Nat.zero_le 1, nofun, fun _ _ _ => rfl⟩
  have hi : s.Inv := Reachable.inv hr
  cases hst with
  | start hp | wrap hp | codec hp | wrapFails hp | codecFails hp => exact h.move (hp ▸ rfl)
  | closeOld hp => exact (h.close hi).move (by rw [close_calls, hp]; rfl)
  | @install i hp =>
    have hmove : ChansOk (s.setCall i (.starting .sender)) := h.move (hp ▸ rfl)
    refine ⟨h.once, fun side c hc => ?_, hmove.unmade⟩
    cases hc; exact h.unmade side _ (hp ▸ rfl)
  | @read i u =>
    refine ⟨h.once, h.current, fun side c hc => ?_⟩
    rcases update_cases (InWorkConnPc.setUp · = false) hc with ⟨-, hc⟩ | ⟨-, hc⟩
    · cases u.next_setUp.1.symm.trans hc
    · exact h.unmade side c hc
  | put | send | closeStarts => exact ⟨h.once, h.current, h.unmade⟩
  | close => exact ⟨(h.close hi).once, (h.close hi).current, (h.close hi).unmade⟩

structure ReadsOk (s : ClientUDPProxy) : Prop where
  unread : ∀ i u, s.took i u = none → .read i u ∉ s.log
  read : ∀ i u ch, s.took i u = some ch → u.rank < (s.calls i).reads ∧ (ch = i ↔ Prompt i u s.log)
  sent : ∀ i ch msg, (ch, msg) ∈ s.sent i → s.took i .sender = some ch

theorem ReadsOk.mono (h : s.ReadsOk) (htook : t.took = s.took) (hsent : t.sent = s.sent)
    (hlog : t.log = s.log ∨ ∃ x, (∀ i u, x ≠ .read i u) ∧ t.log = x :: s.log)
    (hreads : ∀ i, (s.calls i).reads ≤ (t.calls i).reads) : t.ReadsOk := by
  have hread : ∀ i u, .read i u ∈ t.log ↔ .read i u ∈ s.log := by
    intro i u
    rcases hlog with hlog | ⟨x, hx, hlog⟩ <;> rw [hlog]
    rw [List.mem_cons]; exact or_iff_right (hx i u).symm
  have hprompt : ∀ i u, Prompt i u t.log ↔ Prompt i u s.log := by
    intro i u
    rcases hlog with hlog | ⟨x, hx, hlog⟩ <;> rw [hlog]
    exact prompt_cons (hx i u)
  refine ⟨fun i u hu => ?_, fun i u ch hu => ?_, fun i ch msg hm => ?_⟩
  · rw [hread]; exact h.unread i u (htook ▸ hu)
  · obtain ⟨hlt, hiff⟩ := h.read i u ch (htook ▸ hu)
    exact ⟨Nat.lt_of_lt_of_le hlt (hreads i), hiff.trans (hprompt i u).symm⟩
  · rw [htook]; exact h.sent i ch msg (hsent ▸ hm)

theorem reads_update {calls : Nat → InWorkConnPc} (hp : (calls i).reads = 0) (k : Nat) :
    (calls k).reads ≤ (update calls i p k).reads := by
  by_cases hk : k = i
  · subst hk
    rw [hp]; exact Nat.zero_le _
  · exact Nat.le_of_eq (by rw [update_of_ne hk])

theorem ReadsOk.next (h : s.ReadsOk) (hi : s.Inv) (hp : s.calls i = .starting u) :
    ReadsOk
      { s.setCall i u.next with
        took := update s.took i (update (s.took i) u (s.chans u.side))
        log := .read i u :: s.log } := by
  have hnone : s.took i u = none := by
    cases hu : s.took i u with
    | none => rfl
    | some ch =>
      have hlt := (h.read i u ch hu).1
      rw [hp] at hlt; exact absurd hlt (Nat.lt_irrefl _)
  obtain ⟨c, hc⟩ := Option.ne_none_iff_exists'.mp (hi.installed i (hp ▸ rfl))
  -- call i reads the channel of the latest install here, and no other read changes
  have htook : ∀ k v, k = i ∧ v = u ∧ update s.took i (update (s.took i) u (s.chans u.side)) k v = some c ∨
      ¬ (k = i ∧ v = u) ∧
        update s.took i (update (s.took i) u (s.chans u.side)) k v = s.took k v := by
    intro k v
    by_cases hk : k = i
    · subst hk
      rw [update_self]
      by_cases hv : v = u
      · subst hv; exact .inl ⟨rfl, rfl, by rw [update_self, hi.chans, hc]⟩
      · exact .inr ⟨fun h => hv h.2, update_of_ne hv ..⟩
    · exact .inr ⟨fun h => hk h.1, by rw [update_of_ne hk]⟩
  have hne : ∀ {k v}, ¬ (k = i ∧ v = u) → UDPSection.read i u ≠ .read k v := by
    intro k v hkv heq
    cases heq; exact hkv ⟨rfl, rfl⟩
  refine ⟨fun k v hv => ?_, fun k v ch hv => ?_, fun k ch msg hm => ?_⟩
  · rcases htook k v with ⟨-, -, hsome⟩ | ⟨hkv, heq⟩
    · cases hsome.symm.trans hv
    · intro hmem
      rcases List.mem_cons.mp hmem with hmem | hmem
      · exact hne hkv hmem.symm
      · exact h.unread k v (heq.symm.trans hv) hmem
  · rcases htook k v with ⟨rfl, rfl, hsome⟩ | ⟨hkv, heq⟩
    · cases hsome.symm.trans hv
      refine ⟨?_, ?_⟩
      · show _ < (update s.calls k v.next k).reads
        rw [update_self, v.next_reads]; exact Nat.lt_succ_self _
      · rw [prompt_read (h.unread k v hnone), hc, Option.some_inj]
    · obtain ⟨hlt, hiff⟩ := h.read k v ch (heq.symm.trans hv)
      refine ⟨Nat.lt_of_lt_of_le hlt ?_, hiff.trans (prompt_cons (hne hkv)).symm⟩
      show _ ≤ (update s.calls i u.next k).reads
      by_cases hk : k = i
      · subst hk
        rw [update_self, u.next_reads, hp]; exact Nat.le_succ _
      · exact Nat.le_of_eq (by rw [update_of_ne hk])
  · have hsome := h.sent k ch msg hm
    rcases htook k .sender with ⟨rfl, rfl, -⟩ | ⟨-, heq⟩
    · cases hnone.symm.trans hsome
    · exact heq.trans hsome

theorem Reachable.readsOk (h : s.Reachable) : s.ReadsOk := by
  refine Reach.invariant (fun s h0 => ?_) (fun s e t hr h hst => ?_) h
  · subst h0; exact ⟨fun _ _ _ => List.not_mem_nil, nofun, nofun⟩
  cases hst with
  | start hp | wrap hp | codec hp | wrapFails hp | codecFails hp =>
    exact h.mono rfl rfl (.inl rfl) (reads_update (hp ▸ rfl))
  | closeOld hp =>
    refine h.mono (close_took s) (close_sent s) (.inr ⟨.close, nofun, close_log s⟩) fun k => ?_
    show _ ≤ (update s.close.calls _ _ k).reads
    rw [close_calls]; exact reads_update (hp ▸ rfl) k
  | install hp => exact h.mono rfl rfl (.inr ⟨.install _, nofun, rfl⟩) (reads_update (hp ▸ rfl))
  | read hp => exact h.next (Reachable.inv hr) hp
  | put | closeStarts => exact ⟨h.unread, h.read, h.sent⟩
  | @send i ch msg rest hu =>
    refine ⟨h.unread, h.read, fun k ch' msg' hm => ?_⟩
    rcases update_cases ((ch', msg') ∈ ·) hm with ⟨rfl, hm'⟩ | ⟨-, hm'⟩
    · rcases List.mem_append.mp hm' with hm' | hm'
      · exact h.sent k ch' msg' hm'
      · cases List.mem_singleton.mp hm'
        exact hu
    · exact h.sent k ch' msg' hm'
  | close =>
    refine h.mono (close_took s) (close_sent s) (.inr ⟨.close, nofun, close_log s⟩) fun k => Nat.le_of_eq ?_
    rw [close_calls]

/-! ## What callers rely on -/

theorem Inv.atMostOne (hi : s.Inv) (hs : Separated s.log) : s.AtMostOne := by
  intro i j hup hup' hopen hopen'
  exact Option.some.inj ((hi.separated hs i hup hopen).symm.trans (hi.separated hs j hup' hopen'))

theorem Inv.separated_step (hi : s.Inv) (hst : ClientUDPStep s e t) (hs : Separated s.log) (ht : t.AtMostOne) :
    Separated t.log := by
  have hi' := hi.step hst
  have hclose : Separated s.close.log := by
    rw [close_log]; exact (separated_cons (x := .close) nofun).mpr hs
  cases hst with
  | @install i =>
    refine Classical.byContradiction fun hsep => ?_
    obtain ⟨c, hup, hopen, hne⟩ := hi'.leaked hsep
    obtain ⟨hupi, hopeni⟩ := hi'.current i rfl
    exact hne (congrArg some (ht i c hupi hup hopeni hopen))
  | @read i u => exact (separated_cons (x := .read i u) nofun).mpr hs
  | closeOld | close => exact hclose
  | _ => exact hs

theorem Inv.allClosed_iff (hi : s.Inv) (hset : s.Settled) : s.AllClosed ↔ Separated s.log ∧ Ended s.log := by
  constructor
  · intro hall
    have hclosed : ∀ {c}, (s.calls c).setUp = true → s.connClosed c = true := by
      intro c hup
      refine hall c fun h => ?_
      rw [h] at hup; cases hup
    constructor
    · refine Classical.byContradiction fun hsep => ?_
      obtain ⟨c, hup, hopen, -⟩ := hi.leaked hsep
      cases hopen.symm.trans (hclosed hup)
    · rw [hi.ended]
      cases hnew : newest s.log with
      | none => exact .inr rfl
      | some c => exact .inl ((hi.current c hnew).2.symm.trans (hclosed (hi.current c hnew).1))
  · intro h i hidle
    obtain ⟨hsep, hend⟩ := h
    cases hp : s.calls i with
    | failed => exact hi.failed i hp
    | forwarding =>
      -- an open connection would be the proxy's own, which is closed
      have hup : (s.calls i).setUp = true := by rw [hp]; rfl
      cases hopen : s.connClosed i with
      | true => rfl
      | false =>
        have hnew := hi.separated hsep i hup hopen
        rcases hi.ended.mp hend with hcl | hnone
        · exact hopen.symm.trans ((hi.current i hnew).2.trans hcl)
        · cases hnew.symm.trans hnone
    | idle => exact absurd hp hidle
    | _ =>
      have hs := hset.1 i
      rw [hp] at hs; cases hs

end ClientUDPProxy

structure OneWorkConn (ρ : Run ClientUDPStep) : Prop where
  single : (∀ n, (ρ.state n).AtMostOne) ↔ ∀ n, Separated (ρ.state n).log
  sends : ∀ n i ch msg, (ch, msg) ∈ (ρ.state n).sent i → (ρ.state n).took i .sender = some ch
  own : ∀ n i ch, (ρ.state n).took i .sender = some ch → (ch = i ↔ Prompt i .sender (ρ.state n).log)
  closed : ∀ n, (ρ.state n).Settled →
    ((ρ.state n).AllClosed ↔ Separated (ρ.state n).log ∧ Ended (ρ.state n).log)

open ClientUDPProxy

/-- At most one connection is open at any moment if and only if a section of `Close` runs between
any two installs; in the end all are closed if and only if, besides, one comes last. -/
theorem client_udp_work_conns (ρ : Run ClientUDPStep) (h0 : ρ.state 0 = {}) : OneWorkConn ρ := by
  have hreach : ∀ n, (ρ.state n).Reachable := fun n => ρ.reach h0 n
  refine ⟨⟨fun hone n => ?_, fun hsep n => (hreach n).inv.atMostOne (hsep n)⟩,
    fun n i ch msg hm => (hreach n).readsOk.sent i ch msg hm, fun n i ch hu => ((hreach n).readsOk.read i _ ch hu).2,
    fun n hset => (hreach n).inv.allClosed_iff hset⟩
  induction n with
  | zero =>
    rw [h0]
    intro late j between i early heq
    cases late <;> cases heq
  | succ n ih =>
    rcases ρ.next n with ⟨-, heq⟩ | ⟨e, -, hst⟩
    · rw [heq]; exact ih
    · exact (hreach n).inv.separated_step hst ih (hone (n + 1))

theorem client_udp_work_conns_once :
    ∃ (ρ : Run ClientUDPStep) (N : Nat), ρ.state 0 = {} ∧ OneWorkConn ρ ∧ (ρ.state N).Settled ∧
      (ρ.state N).calls 0 = .forwarding ∧ Separated (ρ.state N).log ∧ Ended (ρ.state N).log := by
  have h := (.start rfl : Reachable {})
    |>.next (.start (i := 0) rfl)
    |>.next (.closeOld (i := 0) rfl)
    |>.next (.wrap (i := 0) rfl)
    |>.next (.codec (i := 0) rfl)
    |>.next (.install (i := 0) rfl)
    |>.next (.read (i := 0) rfl)
    |>.next (.read (i := 0) rfl)
    |>.next (.read (i := 0) rfl)
    |>.next (.read (i := 0) rfl)
    |>.next (.read (i := 0) rfl)
    |>.next (.closeStarts (j := 0) rfl)
    |>.next (.close (j := 0) rfl)
  obtain ⟨ρ, N, hinit, hN⟩ := h.exists_run
  have hone := client_udp_work_conns ρ hinit
  have hset : (ρ.state N).Settled := by
    rw [hN N (Nat.le_refl N)]; exact ⟨fun i => by cases i <;> rfl, fun j => by cases j <;> nofun⟩
  have hall : (ρ.state N).AllClosed := by
    rw [hN N (Nat.le_refl N)]
    intro i hi
    cases i with
    | zero => rfl
    | succ => exact absurd rfl hi
  exact ⟨ρ, N, hinit, hone, hset, by rw [hN N (Nat.le_refl N)]; rfl, (hone.closed N hset).mp hall⟩

theorem ClientUDPProxy.overlapping_calls :
    ∃ s : ClientUDPProxy, s.Reachable ∧ ¬ s.AtMostOne ∧ s.sent 0 = [(1, 7)] := by
  have h16 := (.start rfl : Reachable {})
    |>.next (.start (i := 0) rfl)
    |>.next (.closeOld (i := 0) rfl)
    |>.next (.wrap (i := 0) rfl)
    |>.next (.codec (i := 0) rfl)
    |>.next (.start (i := 1) rfl)
    |>.next (.closeOld (i := 1) rfl)
    |>.next (.wrap (i := 1) rfl)
    |>.next (.codec (i := 1) rfl)
    |>.next (.install (i := 0) rfl)
    |>.next (.install (i := 1) rfl)
    |>.next (.read (i := 0) rfl)
    |>.next (.read (i := 1) rfl)
    |>.next (.read (i := 1) rfl)
    |>.next (.read (i := 1) rfl)
    |>.next (.put (i := 1) 7 (.inl rfl) rfl rfl)
    |>.next (.send (i := 0) rfl rfl)
  exact ⟨_, h16, fun h => absurd (h 0 1 rfl rfl rfl rfl) (by decide), rfl⟩

theorem ClientUDPProxy.close_before_install :
    ∃ s : ClientUDPProxy, s.Reachable ∧ s.starts = [.close 0, .inWorkConn 0] ∧ s.Settled ∧ ¬ s.AllClosed := by
  have h12 := (.start rfl : Reachable {})
    |>.next (.start (i := 0) rfl)
    |>.next (.closeOld (i := 0) rfl)
    |>.next (.closeStarts (j := 0) rfl)
    |>.next (.close (j := 0) rfl)
    |>.next (.wrap (i := 0) rfl)
    |>.next (.codec (i := 0) rfl)
    |>.next (.install (i := 0) rfl)
    |>.next (.read (i := 0) rfl)
    |>.next (.read (i := 0) rfl)
    |>.next (.read (i := 0) rfl)
    |>.next (.read (i := 0) rfl)
    |>.next (.read (i := 0) rfl)
  refine ⟨_, h12, rfl, ⟨fun i => by cases i <;> rfl, fun j => by cases j <;> nofun⟩, fun h => ?_⟩
  exact absurd (h 0 nofun) (by decide)

theorem ClientUDPProxy.chansOk_close_before_install :
    ∃ s : ClientUDPProxy, s.Reachable ∧ s.starts = [.close 0, .inWorkConn 0] ∧ s.Settled ∧ s.ChansOk := by
  obtain ⟨s, h, hstarts, hset, -⟩ := close_before_install
  exact ⟨s, h, hstarts, hset, h.chansOk⟩

theorem client_udp_left_open :
    (∃ s : ClientUDPProxy, s.Reachable ∧ ¬ s.AtMostOne ∧ s.sent 0 = [(1, 7)]) ∧
      ∃ s : ClientUDPProxy, s.Reachable ∧ s.starts = [.close 0, .inWorkConn 0] ∧ s.Settled ∧ ¬ s.AllClosed :=
  ⟨ClientUDPProxy.overlapping_calls, ClientUDPProxy.close_before_install⟩

end Frp
