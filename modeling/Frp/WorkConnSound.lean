import Frp.WorkConn
import Frp.Ownership

/-!
# Every work connection has one owner

A connection that was registered is in the channel, with the `GetWorkConn` that took it, or
closed by the worker, and in one of these places only.
-/

namespace Frp

open Function

inductive Spot
  | channel
  | getter (g : Nat)
  | worker
  deriving DecidableEq

def GetPc.conns : GetPc → List Nat
  | got conn | returned (.ok conn) => [conn]
  | _ => []

def WorkerPc.past : WorkerPc → Bool
  | stopped | draining | drained | finished => true
  | off | serving => false

def WorkerPc.closes : WorkerPc → Bool
  | draining | drained | finished => true
  | off | serving | stopped => false

def WorkerPc.empties : WorkerPc → Bool
  | drained | finished => true
  | off | serving | stopped | draining => false

attribute [local simp] WorkerPc.empties

namespace Pool

variable {s s' : Pool}

def own (s : Pool) : Spot → List Nat
  | .channel => s.workConnCh
  | .getter g => (s.get g).conns
  | .worker => s.closed

/-! ## The state of the control and of the channel -/

structure Life (s : Pool) : Prop where
  locked : ∀ r, s.reg r = .locked → s.lifecycleMu = some r ∧ s.ctl.state = .running
  sound : ∀ r, s.reg r ≠ .panicked
  begun : s.worker ≠ .off → s.ctl.state ≠ .created ∧ s.ctl.state ≠ .pending
  past : s.worker.past = true → s.ctl.state ≠ .running
  chClosed : s.chClosed = s.worker.closes
  empty : s.worker.empties = true → s.workConnCh = []

theorem Life.init (h : s.Init) : s.Life := by
  obtain ⟨runID, login, rfl⟩ := h
  exact ⟨by simp, by simp, by simp, by simp [WorkerPc.past], rfl, by simp⟩

theorem Life.open_of_locked (h : s.Life) {r : Nat} (hr : s.reg r = .locked) : s.chClosed = false := by
  have hrun := (h.locked r hr).2
  rw [h.chClosed]
  cases hw : s.worker with
  | off => rfl
  | serving => rfl
  | stopped => rfl
  | draining | drained | finished => exact absurd hrun (h.past (hw ▸ rfl))

theorem Life.register (h : s.Life) {r : Nat} {p : RegisterPc} (hc : s'.ctl = s.ctl) (hw : s'.worker = s.worker)
    (hx : s'.chClosed = s.chClosed) (hreg : s'.reg = update s.reg r p) (hp : p ≠ .panicked)
    (hq : s.worker.empties = true → s'.workConnCh = [])
    (hl : p = .locked → s'.lifecycleMu = some r ∧ s.ctl.state = .running)
    (ho : ∀ q, q ≠ r → s.lifecycleMu = some q → s'.lifecycleMu = some q) : s'.Life := by
  refine ⟨?_, ?_, by rw [hw, hc]; exact h.begun, by rw [hw, hc]; exact h.past, by rw [hx, hw]; exact h.chClosed,
    by rw [hw]; exact hq⟩
  · intro q hlq
    rw [hc]
    by_cases hqr : q = r
    · subst hqr
      rw [hreg, update_self] at hlq; exact hl hlq
    · rw [hreg, update_of_ne hqr] at hlq
      obtain ⟨hmu, hrun⟩ := h.locked q hlq
      exact ⟨ho q hqr hmu, hrun⟩
  · intro q
    by_cases hqr : q = r
    · subst hqr
      rw [hreg, update_self]; exact hp
    · rw [hreg, update_of_ne hqr]; exact h.sound q

theorem Life.section (h : s.Life) (hmu : s.lifecycleMu = none)
    (hr : s'.reg = s.reg) (hbegun : s'.worker ≠ .off → s'.ctl.state ≠ .created ∧ s'.ctl.state ≠ .pending)
    (hpast : s'.worker.past = true → s'.ctl.state ≠ .running) (hx : s'.chClosed = s'.worker.closes)
    (hq : s'.worker.empties = true → s'.workConnCh = []) : s'.Life := by
  refine ⟨?_, by rw [hr]; exact h.sound, hbegun, hpast, hx, hq⟩
  intro r hl
  rw [hr] at hl
  have := (h.locked r hl).1
  rw [hmu] at this; cases this

end Pool

theorem Control.close_state (x : Control) :
    x.close.state ≠ .created ∧ x.close.state ≠ .pending ∧ x.close.state ≠ .running := by
  unfold Control.close
  cases hx : x.state <;> simp [finishLocked, hx]

theorem Control.markReplaced_state (x : Control) (self : Nat) :
    (x.markReplaced self).1.state ≠ .created ∧ (x.markReplaced self).1.state ≠ .pending ∧
      (x.markReplaced self).1.state ≠ .running := by
  unfold Control.markReplaced
  cases hx : x.state <;> simp [finishLocked, hx]

namespace Pool

variable {s s' : Pool}

theorem Life.same (h : s.Life) (hc : s'.ctl = s.ctl) (hw : s'.worker = s.worker) (hx : s'.chClosed = s.chClosed)
    (hr : s'.reg = s.reg) (hmu : s'.lifecycleMu = s.lifecycleMu)
    (hq : s.worker.empties = true → s'.workConnCh = []) : s'.Life := by
  refine ⟨?_, by rw [hr]; exact h.sound, by rw [hw, hc]; exact h.begun, by rw [hw, hc]; exact h.past,
    by rw [hx, hw]; exact h.chClosed, by rw [hw]; exact hq⟩
  rw [hr, hmu, hc]; exact h.locked

theorem Life.off_of_pending (h : s.Life) (hp : s.ctl.state = .created ∨ s.ctl.state = .pending) : s.worker = .off := by
  by_contra hw
  obtain ⟨h1, h2⟩ := h.begun hw
  rcases hp with hp | hp
  · exact h1 hp
  · exact h2 hp

end Pool

open Pool

attribute [local simp] Control.finishLocked

theorem PoolStep.life {capacity : Nat} {s s' : Pool} {e : PoolEvent} (h : s.Life) (hst : PoolStep capacity s e s') :
    s'.Life := by
  cases hst with
  | register | lookMissing | look | lookOther | gateStale | gateCurrent
  | acquireGate | lockNotRunning =>
    exact h.register rfl rfl rfl rfl (by simp) h.empty (by simp) fun _ _ hq => hq
  | lockRunning hp hmu hrun =>
    refine h.register rfl rfl rfl rfl (by simp) h.empty (fun _ => ⟨rfl, hrun⟩) ?_
    intro q _ hq
    rw [hmu] at hq; cases hq
  | @send r hp hopen =>
    refine h.register rfl rfl rfl rfl (by simp) ?_ (by simp) ?_
    · intro hw
      have hcl : s.worker.closes = false := h.chClosed.symm.trans hopen
      cases hs : s.worker <;> rw [hs] at hw hcl <;> cases hw <;> cases hcl
    · intro q hne hq
      rw [(h.locked r hp).1] at hq; exact absurd (Option.some.inj hq).symm hne
  | @sendFull r hp =>
    refine h.register rfl rfl rfl rfl (by simp) h.empty (by simp) ?_
    intro q hne hq
    rw [(h.locked r hp).1] at hq; exact absurd (Option.some.inj hq).symm hne
  | sendClosed hp hcl => rw [h.open_of_locked hp] at hcl; cases hcl
  | get | receiveClosed | none | ask | askClosed | timeout | replace | leaveRun | closeManager | readError =>
    exact h.same rfl rfl rfl rfl rfl h.empty
  | receive hp hq =>
    refine h.same rfl rfl rfl rfl rfl fun hw => ?_
    rw [h.empty hw] at hq; cases hq
  | stop hw _ hmu =>
    obtain ⟨h1, h2⟩ := h.begun (by rw [hw]; simp)
    have hstop : s.ctl.stop.state ≠ .created ∧ s.ctl.stop.state ≠ .pending ∧ s.ctl.stop.state ≠ .running := by
      unfold Control.stop
      split_ifs with hr
      · simp
      · exact ⟨h1, h2, hr⟩
    refine h.section hmu rfl (fun _ => ⟨hstop.1, hstop.2.1⟩) (fun _ => hstop.2.2) ?_ (by simp)
    rw [show s.chClosed = _ from h.chClosed, hw]; rfl
  | closeChannel hw =>
    have hnot := h.past (hw ▸ rfl)
    refine ⟨h.locked, h.sound, fun _ => h.begun (by rw [hw]; simp), fun _ => hnot, rfl, by simp⟩
  | drain hw => exact h.same rfl rfl rfl rfl rfl fun he => by rw [hw] at he; cases he
  | drained hw hq =>
    refine ⟨h.locked, h.sound, fun _ => h.begun (by rw [hw]; simp), fun _ => h.past (hw ▸ rfl), ?_, fun _ => hq⟩
    rw [show s.chClosed = _ from h.chClosed, hw]; rfl
  | finish hw hmu =>
    refine h.section hmu rfl (fun _ => ⟨by simp, by simp⟩)
      (fun _ => by simp) ?_ (fun _ => h.empty (hw ▸ rfl))
    rw [show s.chClosed = _ from h.chClosed, hw]; rfl
  | @admitted x id hmu hx =>
    unfold Control.admitAs at hx
    split_ifs at hx with hcr
    cases hx
    have hoff := h.off_of_pending (.inl hcr)
    exact h.section hmu rfl (fun hw => absurd hoff hw) (fun _ => by simp) h.chClosed h.empty
  | activate hmu => exact h.section hmu rfl h.begun h.past h.chClosed h.empty
  | @start x hmu hx =>
    unfold Control.startLocked at hx
    split_ifs at hx with hpend
    cases hx
    have hoff := h.off_of_pending (.inr hpend.1)
    refine h.section hmu rfl (fun _ => by simp) (fun hw => by cases hw) ?_ (fun hw => by cases hw)
    rw [show s.chClosed = _ from h.chClosed, hoff]; rfl
  | close hmu =>
    have hcl := s.ctl.close_state
    exact h.section hmu rfl (fun _ => ⟨hcl.1, hcl.2.1⟩) (fun _ => hcl.2.2) h.chClosed h.empty
  | replaced self hmu =>
    have hcl := s.ctl.markReplaced_state self
    exact h.section hmu rfl (fun _ => ⟨hcl.1, hcl.2.1⟩) (fun _ => hcl.2.2) h.chClosed h.empty

/-! ## The connections -/

namespace Pool

variable {s s' : Pool}

def Owned (s : Pool) : Prop :=
  ∃ owner : Nat → Option Spot, OwnedBy owner s.own ∧ ∀ r, (∃ o, owner r = some o) ↔ s.reg r = .returned none

theorem Owned.init (h : s.Init) : s.Owned := by
  obtain ⟨runID, login, rfl⟩ := h
  have hown : ∀ o, own ⟨.new runID login, false, false, none, none, [], false, false, .off, fun _ => .idle,
      fun _ => .idle, []⟩ o = [] := by
    intro o
    cases o <;> rfl
  refine ⟨fun _ => none, ⟨?_, ?_⟩, by simp⟩
  · intro r o; simp [hown o]
  · intro o; simp [hown o]

theorem Owned.same (h : s.Owned) (ho : s'.own = s.own)
    (hr : ∀ r, s'.reg r = .returned none ↔ s.reg r = .returned none) : s'.Owned := by
  obtain ⟨owner, hown, hreg⟩ := h
  exact ⟨owner, by rw [ho]; exact hown, fun r => (hreg r).trans (hr r).symm⟩

theorem setReg_returned {r : Nat} {p : RegisterPc} (hp : p ≠ .returned none) (hr : s.reg r ≠ .returned none) (q : Nat) :
    update s.reg r p q = .returned none ↔ s.reg q = .returned none := by
  by_cases hq : q = r
  · subst hq
    rw [update_self]; exact iff_of_false hp hr
  · rw [update_of_ne hq]

theorem own_setGet (s : Pool) (g : Nat) (p : GetPc) : (s.setGet g p).own = update s.own (.getter g) p.conns := by
  funext o
  cases o with
  | channel => rfl
  | worker => rfl
  | getter g' =>
    by_cases hg : g' = g
    · subst hg; simp [own, setGet]
    · simp [own, setGet, hg]

theorem own_setGet_same {g : Nat} {p : GetPc} (hp : p.conns = (s.get g).conns) : (s.setGet g p).own = s.own := by
  rw [own_setGet, hp]; exact update_eq_self (Spot.getter g) s.own

theorem Owned.pop (h : s.Owned) {conn : Nat} {rest l : List Nat} {o : Spot} (hq : s.workConnCh = conn :: rest)
    (hne : o ≠ .channel) (hl : l.Perm (conn :: s.own o)) (hr : s'.reg = s.reg)
    (ho : s'.own = update (update s.own .channel rest) o l) : s'.Owned := by
  obtain ⟨owner, hown, hreg⟩ := h
  have hch : s.own .channel = conn :: rest := hq
  have hconn : owner conn = some .channel := (hown.mem conn .channel).mpr (by rw [hch]; exact List.mem_cons_self)
  refine ⟨_, by rw [ho]; exact hown.transfer hne (.of_eq hch) hl, fun r => ?_⟩
  rw [hr, ← hreg r]
  by_cases hrc : r = conn
  · subst hrc
    rw [update_self, hconn]; simp
  · rw [update_of_ne hrc]

theorem Owned.send (h : s.Owned) {r : Nat} (hr : s.reg r = .locked) :
    ({ s with workConnCh := s.workConnCh ++ [r], lifecycleMu := none }.leave r none).Owned := by
  obtain ⟨owner, hown, hreg⟩ := h
  have hfree : owner r = none := by
    cases hro : owner r with
    | none => rfl
    | some o =>
      have := (hreg r).mp ⟨o, hro⟩
      rw [hr] at this; cases this
  have hown' : ({ s with workConnCh := s.workConnCh ++ [r], lifecycleMu := none }.leave r none).own =
      update s.own .channel (s.workConnCh ++ [r]) := by
    funext o
    cases o <;> simp [own, leave, setReg]
  refine ⟨update owner r (some .channel), ?_, fun q => ?_⟩
  · rw [hown']; exact hown.take hfree (List.perm_append_singleton r s.workConnCh)
  · show _ ↔ update s.reg r (.returned none) q = .returned none
    by_cases hq : q = r
    · subst hq; simp
    · rw [update_of_ne hq, update_of_ne hq]; exact hreg q

end Pool

theorem PoolStep.owned {capacity : Nat} {s s' : Pool} {e : PoolEvent} (h : s.Owned) (hst : PoolStep capacity s e s') :
    s'.Owned := by
  cases hst with
  | register hp | lookMissing hp | look hp | lookOther hp | gateStale hp | gateCurrent hp
  | acquireGate hp | lockRunning hp | lockNotRunning hp | sendFull hp | sendClosed hp =>
    refine h.same ?_ (setReg_returned (by simp) (by rw [hp]; simp))
    funext o
    cases o <;> rfl
  | send hp => exact h.send hp
  | get hp | none hp | ask hp | askClosed hp | timeout hp | replace hp =>
    exact h.same (own_setGet_same (hp ▸ rfl)) fun _ => Iff.rfl
  | receiveClosed hp =>
    refine h.same (own_setGet_same ?_) fun _ => Iff.rfl
    rcases hp with hp | hp <;> rw [hp] <;> rfl
  | @receive g conn rest hp hq =>
    have hnone : s.own (.getter g) = [] := by
      show (s.get g).conns = []
      rcases hp with hp | hp <;> rw [hp] <;> rfl
    refine h.pop hq (o := .getter g) (by simp) (by rw [hnone]) rfl ?_
    rw [own_setGet]
    congr 1
    funext o
    cases o <;> simp [own]
  | @drain conn rest hw hq =>
    refine h.pop hq (o := .worker) (by simp) (.refl _) rfl ?_
    funext o
    cases o <;> simp [own]
  | readError | stop | closeChannel | drained | finish | admitted | activate | start
  | close | replaced | leaveRun | closeManager =>
    refine h.same ?_ fun _ => Iff.rfl
    funext o
    cases o <;> rfl

theorem Pool.inv_of_reach {capacity : Nat} {s : Pool} (h : Reach Pool.Init (PoolStep capacity) s) :
    s.Life ∧ s.Owned := by
  apply h.invariant
  · intro s h0; exact ⟨Life.init h0, Owned.init h0⟩
  · intro s e s' _ hi hst; exact ⟨hst.life hi.1, hst.owned hi.2⟩

theorem Pool.Owned.unique {s : Pool} (h : s.Owned) {r : Nat} {o : Spot} (hr : r ∈ s.own o) (o' : Spot) :
    r ∈ s.own o' ↔ o' = o := by
  obtain ⟨owner, hown, -⟩ := h
  rw [← hown.mem, (hown.mem r o).mpr hr, Option.some.injEq, eq_comm]

/-- A connection that was registered is in one place, once: the channel, one `GetWorkConn` or the
worker; nothing is sent on a closed channel. -/
theorem work_conn_ownership {capacity : Nat} {s : Pool} (h : Reach Pool.Init (PoolStep capacity) s) :
    (∀ r, s.reg r ≠ .panicked) ∧
    (∀ r, s.reg r = .returned none → ∃ o, ∀ o', r ∈ s.own o' ↔ o' = o) ∧
    (∀ o, (s.own o).Nodup) ∧
    (∀ r, s.worker = .finished → s.reg r = .returned none →
      (∃ g, ∀ o, r ∈ s.own o ↔ o = .getter g) ∨ ∀ o, r ∈ s.own o ↔ o = .worker) ∧
    (∀ r err, s.reg r = .returned (some err) → ∀ o, r ∉ s.own o) ∧
    ∀ g conn, s.get g = .got conn → (∃ s', PoolStep capacity s (.get g) s') ∧
      ∀ s', PoolStep capacity s (.get g) s' → s'.get g = .returned (.ok conn) := by
  obtain ⟨hlife, hown⟩ := Pool.inv_of_reach h
  obtain ⟨owner, hby, hreg⟩ := id hown
  have hplace : ∀ r, s.reg r = .returned none → ∃ o, r ∈ s.own o := by
    intro r hr
    obtain ⟨o, ho⟩ := (hreg r).mpr hr
    exact ⟨o, (hby.mem r o).mp ho⟩
  refine ⟨hlife.sound, ?_, hby.nodup, ?_, ?_, ?_⟩
  · intro r hr
    obtain ⟨o, ho⟩ := hplace r hr
    exact ⟨o, hown.unique ho⟩
  · intro r hw hr
    obtain ⟨o, ho⟩ := hplace r hr
    cases o with
    | channel => rw [show s.own .channel = [] from hlife.empty (hw ▸ rfl)] at ho; cases ho
    | getter g => exact .inl ⟨g, hown.unique ho⟩
    | worker => exact .inr (hown.unique ho)
  · intro r err hr o ho
    have hnil := (hreg r).mp ⟨o, (hby.mem r o).mpr ho⟩
    rw [hr] at hnil; cases hnil
  · intro g conn hg
    refine ⟨⟨_, .replace hg⟩, fun s' hst => ?_⟩
    cases hst with
    | replace hp =>
      rw [hg] at hp; cases hp
      exact update_self _ _ _
    | get hp | none hp | ask hp | askClosed hp | timeout hp => rw [hg] at hp; cases hp
    | receive hp | receiveClosed hp => rcases hp with hp | hp <;> rw [hg] at hp <;> cases hp

theorem work_conn_ownership_two :
    ∃ s, Reach Pool.Init (PoolStep 10) s ∧ s.worker = .finished ∧ s.get 0 = .returned (.ok 0) ∧ s.closed = [1] ∧
      ∀ r err, s.reg r = .returned (some err) → ∀ o, r ∉ s.own o := by
  have h := (.start ⟨lit "run", ⟨lit "alice", lit "pc", [], [], [], []⟩, rfl⟩ : Reach Pool.Init (PoolStep 10) _)
    |>.next (.admitted 1 rfl rfl)
    |>.next (.activate rfl rfl)
    |>.next (.start rfl rfl)
    |>.next (.register (r := 0) rfl)
    |>.next (.look (r := 0) rfl rfl)
    |>.next (.acquireGate (r := 0) rfl rfl)
    |>.next (.gateCurrent (r := 0) rfl rfl rfl)
    |>.next (.lockRunning (r := 0) rfl rfl rfl)
    |>.next (.send (r := 0) rfl rfl (by decide))
    |>.next (.register (r := 1) rfl)
    |>.next (.look (r := 1) rfl rfl)
    |>.next (.acquireGate (r := 1) rfl rfl)
    |>.next (.gateCurrent (r := 1) rfl rfl rfl)
    |>.next (.lockRunning (r := 1) rfl rfl rfl)
    |>.next (.send (r := 1) rfl rfl (by decide))
    |>.next (.get (g := 0) rfl)
    |>.next (.readError rfl)
    |>.next (.stop rfl rfl rfl)
    |>.next (.closeChannel rfl)
    |>.next (.receive (g := 0) (.inl rfl) rfl)
    |>.next (.drain rfl rfl)
    |>.next (.drained rfl rfl)
    |>.next (.finish rfl rfl)
    |>.next (.replace (g := 0) rfl)
  exact ⟨_, h, rfl, rfl, rfl, (work_conn_ownership h).2.2.2.2.1⟩

end Frp
