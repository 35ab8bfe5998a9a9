import Frp.Manager

/-!
# Control sessions of the server

The handler of a login (`RegisterControl`, `completeControlLogin` and the ways out of
`handleConnection`), the worker of a control, the heartbeat, and `ControlManager.Close`. A step
is one section under the manager's lock or a lifecycle lock, the taking of a run lock, or one
operation on a proxy.
-/

namespace Frp

open Function

inductive Thread
  | handler (c : Nat)
  | worker (c : Nat)
  | closer (k : Nat)
  deriving DecidableEq

/-- Where `lockCurrentRun` is: before the first read, with the lock to wait for, with the lock
held, and past the second look at the entry. -/
inductive LockPc
  | read
  | wait (runMu : Nat)
  | held (runMu : Nat)
  | locked (e : EntryRef)

/-- What a goroutine calls `lockCurrentRun` for. `abandon`, `exit` and `shutdown` are the calls
of `Remove` by a handler, a worker and the closing manager. -/
inductive Task
  | activate
  | complete
  | abandon
  | exit
  | shutdown (c : Nat) (rest : List Nat)

/-- The message the dispatcher of a control is at: a proxy that was started, then filed with the
proxy manager; or one taken out of the control's map, then closed. -/
inductive DispatcherPc
  | idle
  | opened (name : Str)
  | filed (name : Str)
  | dropped (name : Str)
  | closed (name : Str)

inductive Pc
  | idle
  -- the handler of a login
  | new
  | addWait (old : EntryRef)
  | addHeld (old : Option EntryRef)
  | waiting
  | lock (task : Task) (l : LockPc)
  | writing (e : EntryRef)
  | closing
  | done
  -- the worker of a control
  | serving (d : DispatcherPc)
  | stopped
  | stopping
  | draining (rest : List Str)
  | drainClosed (name : Str) (rest : List Str)
  | finishing
  | exited
  -- the closing manager
  | shutNext (rest : List Nat)
  | shutClosing (c : Nat) (rest : List Nat)

def Task.target : Thread → Task → Nat
  | .handler c, _ => c
  | .worker c, _ => c
  | .closer _, .shutdown c _ => c
  | .closer k, _ => k

def Task.allowClosed : Task → Bool
  | .activate | .complete => false
  | .abandon | .exit | .shutdown _ _ => true

def Task.next : Task → Pc
  | .activate | .complete => .lock .abandon .read
  | .abandon => .closing
  | .exit => .finishing
  | .shutdown c rest => .shutClosing c rest

/-- `mus` are the holders of the run locks; `opened` the proxies a control has started and not
closed; `pxys` the owners of the names in the proxy manager. -/
structure Server where
  m : Manager
  mus : Nat → Option Thread
  nextMu : Nat
  pc : Thread → Pc
  proxies : Nat → List Str
  opened : Nat → List Str
  pxys : Str → Option Nat

namespace Server

def Init (s : Server) : Prop :=
  s.m.Init ∧ s = ⟨s.m, fun _ => none, 0, fun _ => .idle, fun _ => [], fun _ => [], fun _ => none⟩

def goto (s : Server) (t : Thread) (p : Pc) : Server := { s with pc := update s.pc t p }

def lock (s : Server) (t : Thread) (mu : Nat) : Server := { s with mus := update s.mus mu (some t) }

def unlock (s : Server) (mu : Nat) : Server := { s with mus := update s.mus mu none }

def unlockOld (s : Server) (old : Option EntryRef) : Server :=
  match old with
  | some e => s.unlock e.runMu
  | none => s

def withManager (s : Server) (m : Manager) : Server := { s with m := m }

def setControl (s : Server) (c : Nat) (x : Control) : Server := s.withManager (s.m.setControl c x)

def setOpened (s : Server) (c : Nat) (l : List Str) : Server := { s with opened := update s.opened c l }

def setProxies (s : Server) (c : Nat) (l : List Str) : Server := { s with proxies := update s.proxies c l }

def setOwner (s : Server) (name : Str) (o : Option Nat) : Server := { s with pxys := update s.pxys name o }

def current (s : Server) (runID : Str) : Option EntryRef := (s.m.ctlsByRunID runID).map (·.toEntryRef)

def LifecycleFree (s : Server) (c : Nat) : Prop := ∀ e, s.pc (.handler c) ≠ .writing e

def Allows (s : Server) (task : Task) : Prop := s.m.closed = true → task.allowClosed = true

def Done (s : Server) (c : Nat) : Prop := ∃ x, s.m.controls c = some x ∧ x.state = .closed

end Server

inductive ServerEvent
  | login (c : Nat)
  | run (t : Thread)
  | heartbeat (c : Nat)
  | shutdown (k : Nat)

open Server in
inductive ServerStep : Server → ServerEvent → Server → Prop
  -- `RegisterControl`: a new control, and `Add`
  | login {s c} (runID : Str) (login : ClientLogin) : s.pc (.handler c) = .idle → s.m.controls c = none →
      ServerStep s (.login c) ((s.setControl c (.new runID login)).goto (.handler c) .new)
  | addReadNone {s c x} : s.pc (.handler c) = .new → s.m.controls c = some x → s.m.ctlsByRunID x.runID = none →
      ServerStep s (.run (.handler c)) (s.goto (.handler c) (.addHeld none))
  | addRead {s c x e} : s.pc (.handler c) = .new → s.m.controls c = some x → s.m.ctlsByRunID x.runID = some e →
      ServerStep s (.run (.handler c)) (s.goto (.handler c) (.addWait e.toEntryRef))
  | addLock {s c old} : s.pc (.handler c) = .addWait old → s.mus old.runMu = none →
      ServerStep s (.run (.handler c)) ((s.lock (.handler c) old.runMu).goto (.handler c) (.addHeld (some old)))
  | addRetry {s c x old} : s.pc (.handler c) = .addHeld old → s.m.controls c = some x → s.m.closed = false →
      s.current x.runID ≠ old →
      ServerStep s (.run (.handler c)) ((s.unlockOld old).goto (.handler c) .new)
  | added {s c x old m} : s.pc (.handler c) = .addHeld old → s.m.controls c = some x → s.current x.runID = old →
      (∀ e, old = some e → s.LifecycleFree e.ctl) → s.m.add c x s.nextMu = (m, none) →
      ServerStep s (.run (.handler c))
        ({ (s.withManager m).unlockOld old with nextMu := s.nextMu + 1 }.goto (.handler c) .waiting)
  | addRefused {s c x old m err} : s.pc (.handler c) = .addHeld old → s.m.controls c = some x →
      s.m.closed = true ∨ s.current x.runID = old → s.m.add c x s.nextMu = (m, some err) →
      ServerStep s (.run (.handler c)) (((s.withManager m).unlockOld old).goto (.handler c) (.lock .abandon .read))
  -- `WaitForHandoff`
  | handedOff {s c x} : s.pc (.handler c) = .waiting → s.m.controls c = some x →
      (∀ b, x.handoffBarrier = some b → s.Done b) →
      ServerStep s (.run (.handler c)) (s.goto (.handler c) (.lock .activate .read))
  -- `lockCurrentRun`
  | lockMissing {s t task x} : s.pc t = .lock task .read → s.m.controls (task.target t) = some x →
      s.m.ctlsByRunID x.runID = none ∨ ¬ s.Allows task →
      ServerStep s (.run t) (s.goto t task.next)
  | lockFound {s t task x e} : s.pc t = .lock task .read → s.m.controls (task.target t) = some x →
      s.m.ctlsByRunID x.runID = some e → s.Allows task →
      ServerStep s (.run t) (s.goto t (.lock task (.wait e.runMu)))
  | lockAcquire {s t task mu} : s.pc t = .lock task (.wait mu) → s.mus mu = none →
      ServerStep s (.run t) ((s.lock t mu).goto t (.lock task (.held mu)))
  | lockValid {s t task mu x e} : s.pc t = .lock task (.held mu) → s.m.controls (task.target t) = some x →
      s.m.ctlsByRunID x.runID = some e → e.runMu = mu → s.Allows task →
      ServerStep s (.run t) (s.goto t (.lock task (.locked e.toEntryRef)))
  | lockInvalid {s t task mu x} : s.pc t = .lock task (.held mu) → s.m.controls (task.target t) = some x →
      (∀ e, s.m.ctlsByRunID x.runID = some e → e.runMu ≠ mu) ∨ ¬ s.Allows task →
      ServerStep s (.run t) ((s.unlock mu).goto t task.next)
  -- `Activate`
  | activated {s c x e m} (now : Nat) : s.pc (.handler c) = .lock .activate (.locked e) → s.m.controls c = some x →
      s.current x.runID = some e → s.m.activate now c x = (m, .active) →
      ServerStep s (.run (.handler c))
        (((s.withManager m).unlock e.runMu).goto (.handler c) (.lock .complete .read))
  | notActivated {s c x e} (now : Nat) : s.pc (.handler c) = .lock .activate (.locked e) → s.m.controls c = some x →
      s.current x.runID ≠ some e ∨ (s.m.activate now c x).2 ≠ .active →
      ServerStep s (.run (.handler c)) ((s.unlock e.runMu).goto (.handler c) (.lock .abandon .read))
  -- `completeLogin`
  | checked {s c x e} : s.pc (.handler c) = .lock .complete (.locked e) → s.m.controls c = some x →
      e.ctl = c → e.id = x.controlID → x.state = .pending → x.activated = true →
      ServerStep s (.run (.handler c)) (s.goto (.handler c) (.writing e))
  | notChecked {s c x e} : s.pc (.handler c) = .lock .complete (.locked e) → s.m.controls c = some x →
      ¬ (e.ctl = c ∧ e.id = x.controlID ∧ x.state = .pending ∧ x.activated = true) →
      ServerStep s (.run (.handler c)) ((s.unlock e.runMu).goto (.handler c) (.lock .abandon .read))
  | writeFailed {s c e} : s.pc (.handler c) = .writing e →
      ServerStep s (.run (.handler c)) ((s.unlock e.runMu).goto (.handler c) (.lock .abandon .read))
  | commit {s c x y e} : s.pc (.handler c) = .writing e → s.m.controls c = some x → x.startLocked = some y →
      ServerStep s (.run (.handler c))
        ((((s.setControl c y).unlock e.runMu).goto (.handler c) .done).goto (.worker c) (.serving .idle))
  -- `Remove`, and the close after it
  | removed {s t task x e} (now : Nat) : s.pc t = .lock task (.locked e) → task.allowClosed = true →
      s.m.controls (task.target t) = some x → s.current x.runID = some e →
      ServerStep s (.run t)
        (((s.withManager (s.m.remove now (task.target t) x)).unlock e.runMu).goto t task.next)
  | notRemoved {s t task x e} : s.pc t = .lock task (.locked e) → task.allowClosed = true →
      s.m.controls (task.target t) = some x → s.current x.runID ≠ some e →
      ServerStep s (.run t) ((s.unlock e.runMu).goto t task.next)
  | abandoned {s c x} : s.pc (.handler c) = .closing → s.m.controls c = some x →
      ServerStep s (.run (.handler c)) ((s.setControl c x.close).goto (.handler c) .done)
  -- the dispatcher: `RegisterProxy` and `CloseProxy`
  | openProxy {s c} (name : Str) : s.pc (.worker c) = .serving .idle → s.pxys name = none →
      ServerStep s (.run (.worker c))
        ((s.setOpened c (name :: s.opened c)).goto (.worker c) (.serving (.opened name)))
  | nameTaken {s c name} : s.pc (.worker c) = .serving (.opened name) → s.pxys name ≠ none →
      ServerStep s (.run (.worker c))
        ((s.setOpened c ((s.opened c).erase name)).goto (.worker c) (.serving .idle))
  | fileProxy {s c name} : s.pc (.worker c) = .serving (.opened name) → s.pxys name = none →
      ServerStep s (.run (.worker c)) ((s.setOwner name (some c)).goto (.worker c) (.serving (.filed name)))
  | keepProxy {s c name} : s.pc (.worker c) = .serving (.filed name) →
      ServerStep s (.run (.worker c))
        ((s.setProxies c ((s.proxies c).insert name)).goto (.worker c) (.serving .idle))
  | dropProxy {s c} (name : Str) : s.pc (.worker c) = .serving .idle → name ∈ s.proxies c →
      ServerStep s (.run (.worker c))
        ((s.setProxies c ((s.proxies c).erase name)).goto (.worker c) (.serving (.dropped name)))
  | closeProxy {s c name} : s.pc (.worker c) = .serving (.dropped name) →
      ServerStep s (.run (.worker c))
        ((s.setOpened c ((s.opened c).erase name)).goto (.worker c) (.serving (.closed name)))
  | deleteProxy {s c name} : s.pc (.worker c) = .serving (.closed name) →
      ServerStep s (.run (.worker c)) ((s.setOwner name none).goto (.worker c) (.serving .idle))
  | dispatcherDone {s c} : s.pc (.worker c) = .serving .idle →
      ServerStep s (.run (.worker c)) (s.goto (.worker c) .stopped)
  -- the end of the worker
  | stop {s c x} : s.pc (.worker c) = .stopped → s.m.controls c = some x →
      ServerStep s (.run (.worker c)) ((s.setControl c x.stop).goto (.worker c) .stopping)
  | takeProxies {s c} : s.pc (.worker c) = .stopping →
      ServerStep s (.run (.worker c)) ((s.setProxies c []).goto (.worker c) (.draining (s.proxies c)))
  | drainClose {s c name rest} : s.pc (.worker c) = .draining (name :: rest) →
      ServerStep s (.run (.worker c))
        ((s.setOpened c ((s.opened c).erase name)).goto (.worker c) (.drainClosed name rest))
  | drainDelete {s c name rest} : s.pc (.worker c) = .drainClosed name rest →
      ServerStep s (.run (.worker c)) ((s.setOwner name none).goto (.worker c) (.draining rest))
  | drained {s c} : s.pc (.worker c) = .draining [] →
      ServerStep s (.run (.worker c)) (s.goto (.worker c) (.lock .exit .read))
  | finish {s c x} : s.pc (.worker c) = .finishing → s.m.controls c = some x →
      ServerStep s (.run (.worker c)) ((s.setControl c x.finishLocked).goto (.worker c) .exited)
  | heartbeat {s c x} : s.pc (.worker c) ≠ .idle → s.m.controls c = some x →
      ServerStep s (.heartbeat c) (s.setControl c x.close)
  -- `ControlManager.Close`
  | shutdown {s k} (ctls : List Nat) : s.pc (.closer k) = .idle →
      (∀ c, c ∈ ctls ↔ ∃ r e, s.m.ctlsByRunID r = some e ∧ e.ctl = c) →
      ServerStep s (.shutdown k) ((s.withManager { s.m with closed := true }).goto (.closer k) (.shutNext ctls))
  | shutNext {s k c rest} : s.pc (.closer k) = .shutNext (c :: rest) →
      ServerStep s (.run (.closer k)) (s.goto (.closer k) (.lock (.shutdown c rest) .read))
  | shutClose {s k c x rest} : s.pc (.closer k) = .shutClosing c rest → s.m.controls c = some x →
      s.LifecycleFree c →
      ServerStep s (.run (.closer k)) ((s.setControl c x.close).goto (.closer k) (.shutNext rest))

end Frp
