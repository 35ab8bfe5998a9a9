import Frp.XtcpTunnel

/-!
# Sessions of an XTCP tunnel

A session that is installed over an open one leaves that one open for good, and so does one
that is installed after the last `Close`.
-/

namespace Frp

def tunnelOps (log : List TunnelSection) : List (HoldOp Nat) := log.filterMap TunnelSection.op

open TunnelSection

/-! ## Histories -/

namespace TunnelSection

def Installs (e : TunnelSection) : Prop := ∃ x, e = .install x

def Closes (e : TunnelSection) : Prop := ∃ k, e = .close k

theorem installs_iff (e : TunnelSection) : e.Installs ↔ ∃ y, e.op = some y ∧ y.IsPut := by
  cases e <;> simp [Installs, op, HoldOp.IsPut]

theorem closes_iff (e : TunnelSection) : e.Closes ↔ ∃ y, e.op = some y ∧ y = .close := by
  cases e <;> simp [Closes, op]

end TunnelSection

section
variable {log : List TunnelSection}

theorem closedAfter_iff : ClosedAfter log ↔ heldAfter (tunnelOps log) = none := by
  rw [heldAfter_eq_none, tunnelOps, ← afterEach_filterMap installs_iff closes_iff]
  constructor
  · intro h late e early heq he
    obtain ⟨x, rfl⟩ := he
    obtain ⟨k, hk⟩ := h late x early heq
    exact ⟨_, hk, k, rfl⟩
  · intro h late x early heq
    obtain ⟨e, he, k, rfl⟩ := h late _ early heq ⟨x, rfl⟩
    exact ⟨k, he⟩

theorem closedBetween_iff : ClosedBetween log ↔ Spaced (tunnelOps log) := by
  rw [Spaced, tunnelOps, ← betweenEach_filterMap installs_iff closes_iff]
  constructor
  · intro h late e between e' early heq he he'
    obtain ⟨y, rfl⟩ := he
    obtain ⟨x, rfl⟩ := he'
    obtain ⟨k, hk⟩ := h late y between x early heq
    exact ⟨_, hk, k, rfl⟩
  · intro h late y between x early heq
    obtain ⟨e, he, k, rfl⟩ := h late _ between _ early heq ⟨y, rfl⟩ ⟨x, rfl⟩
    exact ⟨k, he⟩

end

/-! ## The fields follow the history -/

namespace XtcpTunnel

variable {s t : XtcpTunnel} {a : XtcpActor} {x : Nat}

structure Inv (s : XtcpTunnel) : Prop where
  session : s.session = heldAfter (tunnelOps s.log)
  installed : ∀ x, s.installed x = true ↔ x ∈ puts (tunnelOps s.log)
  closed : ∀ x, s.sessionClosed x = true ↔ ClosedIn (tunnelOps s.log) x
  nodup : (puts (tunnelOps s.log)).Nodup
  made : ∀ x ∈ puts (tunnelOps s.log), x < s.made
  initing : ∀ x, s.processor = .initing x → x < s.made ∧ x ∉ puts (tunnelOps s.log)

theorem Inv.init (h : s.Init) : s.Inv := by
  have hnew : ∀ w, ({ worker := w } : XtcpTunnel).Inv := fun w =>
    ⟨rfl, fun x => by simp [tunnelOps, puts], fun x => by simp [tunnelOps, ClosedIn], List.nodup_nil,
      fun x hx => absurd hx List.not_mem_nil, fun x hx => by cases hx⟩
  rcases h with rfl | rfl
  · exact hnew .off
  · exact hnew .starting

theorem Inv.keep (h : s.Inv) (hsession : t.session = s.session) (hinstalled : t.installed = s.installed)
    (hclosed : t.sessionClosed = s.sessionClosed) (hops : tunnelOps t.log = tunnelOps s.log) (hmade : t.made = s.made)
    (hinit : ∀ x, t.processor = .initing x → s.processor = .initing x) : t.Inv := by
  refine ⟨?_, fun x => ?_, fun x => ?_, ?_, fun x hx => ?_, fun x hx => ?_⟩
  · rw [hsession, hops]; exact h.session
  · rw [hinstalled, hops]; exact h.installed x
  · rw [hclosed, hops]; exact h.closed x
  · rw [hops]; exact h.nodup
  · rw [hmade]; exact h.made x (hops ▸ hx)
  · rw [hmade, hops]; exact h.initing x (hinit x hx)

theorem Inv.closeSession (h : s.Inv) (c : Option Nat) : (s.closeSession c).Inv := by
  refine { h with session := rfl, closed := fun x => ?_ }
  have hops : tunnelOps (s.closeSession c).log = .close :: tunnelOps s.log := rfl
  rw [hops, ClosedIn, ← h.session, ← h.closed x]
  simp only [XtcpTunnel.closeSession]
  split
  · rename_i heq
    simp [heq]
  · rename_i hne
    simp [hne]

theorem Inv.install (h : s.Inv) (hp : s.processor = .initing x) :
    ({ s.install x with processor := .sleeping } : XtcpTunnel).Inv := by
  obtain ⟨hlt, hnew⟩ := h.initing x hp
  refine ⟨rfl, fun y => ?_, h.closed, List.nodup_cons.mpr ⟨hnew, h.nodup⟩, fun y hy => ?_, fun y hy => ?_⟩
  · show Function.update s.installed x true y = true ↔ y ∈ x :: puts (tunnelOps s.log)
    rw [List.mem_cons, ← h.installed y, Function.update_apply]
    by_cases hy : y = x <;> simp [hy]
  · rcases List.mem_cons.mp hy with rfl | hy
    · exact hlt
    · exact h.made y hy
  · cases hy

theorem Inv.make (h : s.Inv) : ({ s with processor := .initing s.made, made := s.made + 1 } : XtcpTunnel).Inv := by
  refine { h with made := fun x hx => Nat.lt_succ_of_lt (h.made x hx), initing := fun x hx => ?_ }
  cases hx; exact ⟨Nat.lt_succ_self _, fun hmem => Nat.lt_irrefl _ (h.made _ hmem)⟩

theorem Inv.step (h : s.Inv) (hs : XtcpStep s a t) : t.Inv := by
  cases hs with
  | opened | openFails | noSignal | closeStarts | cancel => exact h.keep rfl rfl rfl rfl rfl fun _ => id
  | closeFailed => exact (h.closeSession (some _)).keep rfl rfl rfl rfl rfl fun _ => id
  | signal | start | noHole | wakeUp | processorEnds => exact h.keep rfl rfl rfl rfl rfl fun _ hx => by cases hx
  | make => exact h.make
  | install hp => exact h.install hp
  | close => exact (h.closeSession none).keep rfl rfl rfl rfl rfl fun _ => id

theorem Reachable.inv (h : s.Reachable) : s.Inv :=
  h.invariant (fun _ hi => .init hi) fun _ _ _ _ hi hs => hi.step hs

theorem Inv.onlyStored_iff (h : s.Inv) : s.OnlyStored ↔ NoneLost (tunnelOps s.log) := by
  unfold OnlyStored NoneLost; simp only [h.installed, ← Bool.not_eq_true, h.closed, h.session]

theorem Inv.allClosed_iff (h : s.Inv) :
    s.AllClosed ↔ NoneLost (tunnelOps s.log) ∧ heldAfter (tunnelOps s.log) = none := by
  rw [← Frp.allClosed_iff h.nodup]
  unfold AllClosed; simp only [h.installed, h.closed]

end XtcpTunnel

/-- No session but the stored one is open if and only if a `Close` runs between any two installs, and
none at all if and only if one runs after the last, too. -/
theorem xtcp_sessions_iff {s : XtcpTunnel} (h : s.Reachable) :
    (s.OnlyStored ↔ ClosedBetween s.log) ∧ (s.AllClosed ↔ ClosedBetween s.log ∧ ClosedAfter s.log) := by
  have hi := h.inv
  rw [hi.onlyStored_iff, hi.allClosed_iff, noneLost_iff_spaced hi.nodup, closedBetween_iff, closedAfter_iff]
  exact ⟨Iff.rfl, Iff.rfl⟩

theorem xtcp_sessions_iff_again :
    ∃ s : XtcpTunnel, s.Reachable ∧ s.installed 0 = true ∧ s.installed 1 = true ∧ s.OnlyStored := by
  have h := (.start (.inr rfl) : XtcpTunnel.Reachable { worker := .starting })
    |>.next (.start rfl rfl)
    |>.next (.make rfl)
    |>.next (.install rfl)
    |>.next (.wakeUp rfl)
    |>.next (.openFails (k := 0) rfl)
    |>.next (.closeFailed (k := 0) rfl)
    |>.next (.signal (k := 0) rfl rfl)
    |>.next (.make rfl)
    |>.next (.install rfl)
  refine ⟨_, h, rfl, rfl, (xtcp_sessions_iff h).1.mpr ?_⟩
  rw [closedBetween_iff]
  exact spaced_put.mpr ⟨spaced_close.mpr (spaced_put.mpr ⟨betweenEach_nil, rfl⟩), rfl⟩

/-- A user connection has its tunnel made while the first event of `keepTunnelOpenWorker` waits;
served next, the event replaces the session. -/
theorem xtcp_session_lost :
    (∃ s : XtcpTunnel, s.Reachable ∧ s.installed 0 = true ∧ s.sessionClosed 0 = false ∧ s.session = some 1) ∧
      ∃ s : XtcpTunnel, s.Reachable ∧ s.closePc = .returned ∧ s.processor = .sleeping ∧ s.installed 0 = true ∧
        s.sessionClosed 0 = false := by
  constructor
  · have h0 : XtcpTunnel.Reachable { worker := .starting } := .start (.inr rfl)
    have h1 := h0.next (.openFails (k := 0) rfl)
    have h2 := h1.next (.closeFailed (k := 0) rfl)
    have h3 := h2.next (.signal (k := 0) rfl rfl)
    have h4 := h3.next (.make rfl)
    have h5 := h4.next (.install rfl)
    have h6 := h5.next (.wakeUp rfl)
    have h9 := h6
      |>.next (.start rfl rfl)
      |>.next (.make rfl)
      |>.next (.install rfl)
    exact ⟨_, h9, rfl, rfl, rfl⟩
  · have h0 : XtcpTunnel.Reachable { worker := .starting } := .start (.inr rfl)
    have h6 := h0
      |>.next (.start rfl rfl)
      |>.next (.make rfl)
      |>.next (.closeStarts (.inl rfl))
      |>.next (.cancel rfl)
      |>.next (.close rfl)
      |>.next (.install rfl)
    exact ⟨_, h6, rfl, rfl, rfl, rfl⟩

/-! ## Whose session a failed call closes -/

def ClosesOwn (k x : Nat) (early : List TunnelSection) : Prop :=
  (∃ j, .openFailed j (some x) ∈ early) ∨
    ∃ since o before, early = since ++ .openFailed k o :: before ∧ .install x ∈ since

namespace XtcpTunnel

variable {s t : XtcpTunnel} {a : XtcpActor} {x k : Nat}

structure Callers (s : XtcpTunnel) : Prop where
  failed : ∀ k, s.calls k = .failed → ∃ since o before, s.log = since ++ .openFailed k o :: before ∧
    ∀ x, s.session = some x → o = some x ∨ .install x ∈ since
  closes : ∀ late k early x, s.log = late ++ .close (some k) :: early → heldAfter (tunnelOps early) = some x →
    ClosesOwn k x early

theorem Callers.init (h : s.Init) : s.Callers := by
  have hnew : ∀ w, ({ worker := w } : XtcpTunnel).Callers := fun w =>
    ⟨fun k hk => (by cases hk), fun late k early x heq => absurd heq (by simp)⟩
  rcases h with rfl | rfl
  · exact hnew .off
  · exact hnew .starting

theorem Callers.keep (h : s.Callers) (hsession : t.session = s.session) (hlog : t.log = s.log)
    (hcalls : ∀ k, t.calls k = .failed → s.calls k = .failed) : t.Callers := by
  refine ⟨fun k hk => ?_, ?_⟩
  · rw [hsession, hlog]; exact h.failed k (hcalls k hk)
  · rw [hlog]; exact h.closes

theorem Callers.add (h : s.Callers) {e : TunnelSection} (hlog : t.log = e :: s.log)
    (hcalls : ∀ k, t.calls k = .failed → s.calls k = .failed ∨ ∃ o, e = .openFailed k o ∧ t.session = o)
    (hsession : ∀ x, t.session = some x → s.session = some x ∨ e = .install x)
    (hclose : ∀ k x, e = .close (some k) → heldAfter (tunnelOps s.log) = some x → ClosesOwn k x s.log) : t.Callers := by
  refine ⟨fun k hk => ?_, fun late k early x heq hx => ?_⟩
  · rcases hcalls k hk with hk | ⟨o, rfl, ho⟩
    · obtain ⟨since, o, before, heq, hheld⟩ := h.failed k hk
      refine ⟨e :: since, o, before, by rw [hlog, heq]; rfl, fun x hx => ?_⟩
      rcases hsession x hx with hx | rfl
      · exact (hheld x hx).imp id (List.mem_cons_of_mem _)
      · exact .inr List.mem_cons_self
    · exact ⟨[], o, s.log, hlog, fun x hx => .inl (ho ▸ hx)⟩
  · rw [hlog] at heq
    cases late with
    | nil =>
      obtain ⟨he, rfl⟩ := List.cons.inj heq
      exact hclose k x he hx
    | cons y late => exact h.closes late k early x (List.cons.inj heq).2 hx

theorem Callers.closesOwn (h : s.Callers) (hk : s.calls k = .failed) (hx : s.session = some x) :
    ClosesOwn k x s.log := by
  obtain ⟨since, o, before, heq, hheld⟩ := h.failed k hk
  rcases hheld x hx with rfl | hmem
  · exact .inl ⟨k, by rw [heq]; exact List.mem_append_right _ List.mem_cons_self⟩
  · exact .inr ⟨since, o, before, heq, hmem⟩

theorem calls_failed_of_setCall {p : TunnelCallPc} (hp : p ≠ .failed) {j : Nat}
    (h : (s.setCall k p).calls j = .failed) : s.calls j = .failed := by
  exact of_update (· = TunnelCallPc.failed) h hp

theorem Callers.step (h : s.Callers) (hi : s.Inv) (hs : XtcpStep s a t) : t.Callers := by
  cases hs with
  | opened | signal | noSignal => exact h.keep rfl rfl fun _ => calls_failed_of_setCall (by decide)
  | openFails =>
    refine h.add rfl (fun j hj => ?_) (fun x hx => .inl hx) (fun j x he => by cases he)
    rcases update_cases (· = TunnelCallPc.failed) hj with ⟨rfl, -⟩ | ⟨-, hj⟩
    · exact .inr ⟨s.session, rfl, rfl⟩
    · exact .inl hj
  | @closeFailed k hk =>
    refine h.add rfl (fun j hj => ?_) (fun x hx => by cases hx) (fun j x he hx => ?_)
    · exact .inl (calls_failed_of_setCall (by decide) hj)
    · cases he; exact h.closesOwn hk (hi.session.trans hx)
  | @install x =>
    refine h.add rfl (fun _ => .inl) (fun y hy => ?_) (fun j x he => by cases he)
    cases hy; exact .inr rfl
  | close => exact h.add rfl (fun _ => .inl) (fun x hx => by cases hx) (fun j x he => by cases he)
  | start | noHole | make | wakeUp | processorEnds | closeStarts | cancel => exact h.keep rfl rfl fun _ => id

theorem Reachable.callers (h : s.Reachable) : s.Callers :=
  h.invariant (fun _ hi => .init hi) fun _ _ _ hr hi hs => hi.step (Reachable.inv hr) hs

end XtcpTunnel

/-- A session that a failed open closes has failed an open, or was installed between the failed open
and its `Close`. -/
theorem xtcp_closes_own {s : XtcpTunnel} (h : s.Reachable) {late early : List TunnelSection} {k x : Nat}
    (hlog : s.log = late ++ .close (some k) :: early) (hx : heldAfter (tunnelOps early) = some x) :
    (∃ j, .openFailed j (some x) ∈ early) ∨
      ∃ since o before, early = since ++ .openFailed k o :: before ∧ .install x ∈ since :=
  h.callers.closes late k early x hlog hx

theorem xtcp_closes_own_failed :
    ∃ (s : XtcpTunnel) (early : List TunnelSection), s.Reachable ∧ s.log = .close (some 0) :: early ∧
      heldAfter (tunnelOps early) = some 0 ∧ ClosesOwn 0 0 early := by
  have h := (.start (.inr rfl) : XtcpTunnel.Reachable { worker := .starting })
    |>.next (.start rfl rfl)
    |>.next (.make rfl)
    |>.next (.install rfl)
    |>.next (.openFails (k := 0) rfl)
    |>.next (.closeFailed (k := 0) rfl)
  exact ⟨_, _, h, rfl, rfl, @xtcp_closes_own _ h [] _ _ _ rfl rfl⟩

theorem xtcp_closes_other :
    ∃ s : XtcpTunnel, s.Reachable ∧ s.closePc = .idle ∧ s.installed 0 = true ∧ s.sessionClosed 0 = true ∧
      s.log = [.close (some 1), .install 0, .close (some 0), .openFailed 1 none, .openFailed 0 none] := by
  have h := (.start (.inl rfl) : XtcpTunnel.Reachable {})
    |>.next (.openFails (k := 0) rfl)
    |>.next (.openFails (k := 1) rfl)
    |>.next (.closeFailed (k := 0) rfl)
    |>.next (.signal (k := 0) rfl rfl)
    |>.next (.make rfl)
    |>.next (.install rfl)
    |>.next (.closeFailed (k := 1) rfl)
  exact ⟨_, h, rfl, rfl, rfl, rfl⟩

end Frp
