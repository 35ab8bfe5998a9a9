import Frp.Manager

/-!
# The pool of work connections of a control

`workConnCh` of `server/control.go`: `RegisterWorkConn` sends on it under the run gate and the
lifecycle lock, `GetWorkConn` receives with no lock, and the worker closes and drains it. A
connection has the number of the call that brings it.
-/

namespace Frp

inductive RegisterError
  | managerClosed
  | notCurrent
  | notRunning
  | poolFull
  deriving DecidableEq

/-- `waiting` and `held` are inside `lockCurrentRun`; `gated` is past it; `locked` holds the
lifecycle lock of a running control and is about to send. -/
inductive RegisterPc
  | idle
  | looking
  | waiting
  | held
  | gated
  | locked
  | returned (err : Option RegisterError)
  | panicked
  deriving DecidableEq

inductive GetError
  | ctlClosed
  | alreadyClosed
  | timeout
  deriving DecidableEq

/-- `asking` sends the request for more connections, `receiving` waits for one, and `got` sends the
request that replaces the one taken. -/
inductive GetPc
  | idle
  | first
  | asking
  | receiving
  | got (conn : Nat)
  | returned (r : Except GetError Nat)

inductive WorkerPc
  | off
  | serving
  | stopped
  | draining
  | drained
  | finished
  deriving DecidableEq

/-- `current`: the entry of the run is this control's; `done`: the dispatcher has ended. -/
structure Pool where
  ctl : Control
  current : Bool
  managerClosed : Bool
  runMu : Option Nat
  lifecycleMu : Option Nat
  workConnCh : List Nat
  chClosed : Bool
  done : Bool
  worker : WorkerPc
  reg : Nat → RegisterPc
  get : Nat → GetPc
  closed : List Nat

namespace Pool

def Init (s : Pool) : Prop :=
  ∃ runID login,
    s = ⟨.new runID login, false, false, none, none, [], false, false, .off, fun _ => .idle, fun _ => .idle, []⟩

def setReg (s : Pool) (r : Nat) (p : RegisterPc) : Pool := { s with reg := Function.update s.reg r p }

def setGet (s : Pool) (g : Nat) (p : GetPc) : Pool := { s with get := Function.update s.get g p }

def leave (s : Pool) (r : Nat) (err : Option RegisterError) : Pool :=
  { s with runMu := none }.setReg r (.returned err)

end Pool

inductive PoolEvent
  | register (r : Nat)
  | get (g : Nat)
  | worker
  | control

inductive PoolStep (capacity : Nat) : Pool → PoolEvent → Pool → Prop
  -- `RegisterWorkConn`
  | register {s r} : s.reg r = .idle → PoolStep capacity s (.register r) (s.setReg r .looking)
  | lookMissing {s r} : s.reg r = .looking → s.current = false ∨ s.managerClosed = true →
      PoolStep capacity s (.register r)
        (s.setReg r (.returned (some (if s.managerClosed then .managerClosed else .notCurrent))))
  | look {s r} : s.reg r = .looking → s.managerClosed = false → PoolStep capacity s (.register r) (s.setReg r .waiting)
  | lookOther {s r} : s.reg r = .waiting → s.current = false →
      PoolStep capacity s (.register r) (s.setReg r (.returned (some .notCurrent)))
  | acquireGate {s r} : s.reg r = .waiting → s.runMu = none →
      PoolStep capacity s (.register r) ({ s with runMu := some r }.setReg r .held)
  | gateStale {s r} : s.reg r = .held → s.current = false ∨ s.managerClosed = true →
      PoolStep capacity s (.register r)
        (s.leave r (some (if s.managerClosed then .managerClosed else .notCurrent)))
  | gateCurrent {s r} : s.reg r = .held → s.current = true → s.managerClosed = false →
      PoolStep capacity s (.register r) (s.setReg r .gated)
  | lockRunning {s r} : s.reg r = .gated → s.lifecycleMu = none → s.ctl.state = .running →
      PoolStep capacity s (.register r) ({ s with lifecycleMu := some r }.setReg r .locked)
  | lockNotRunning {s r} : s.reg r = .gated → s.lifecycleMu = none → s.ctl.state ≠ .running →
      PoolStep capacity s (.register r) (s.leave r (some .notRunning))
  | send {s r} : s.reg r = .locked → s.chClosed = false → s.workConnCh.length < capacity →
      PoolStep capacity s (.register r)
        ({ s with workConnCh := s.workConnCh ++ [r], lifecycleMu := none }.leave r none)
  | sendFull {s r} : s.reg r = .locked → s.chClosed = false → ¬ s.workConnCh.length < capacity →
      PoolStep capacity s (.register r) ({ s with lifecycleMu := none }.leave r (some .poolFull))
  | sendClosed {s r} : s.reg r = .locked → s.chClosed = true →
      PoolStep capacity s (.register r) (s.setReg r .panicked)
  -- `GetWorkConn`
  | get {s g} : s.get g = .idle → PoolStep capacity s (.get g) (s.setGet g .first)
  | receive {s g conn rest} : s.get g = .first ∨ s.get g = .receiving → s.workConnCh = conn :: rest →
      PoolStep capacity s (.get g) ({ s with workConnCh := rest }.setGet g (.got conn))
  | receiveClosed {s g} : s.get g = .first ∨ s.get g = .receiving → s.workConnCh = [] → s.chClosed = true →
      PoolStep capacity s (.get g) (s.setGet g (.returned (.error .ctlClosed)))
  | none {s g} : s.get g = .first → s.workConnCh = [] → s.chClosed = false →
      PoolStep capacity s (.get g) (s.setGet g .asking)
  | ask {s g} : s.get g = .asking → PoolStep capacity s (.get g) (s.setGet g .receiving)
  | askClosed {s g} : s.get g = .asking → s.done = true →
      PoolStep capacity s (.get g) (s.setGet g (.returned (.error .alreadyClosed)))
  | timeout {s g} : s.get g = .receiving → PoolStep capacity s (.get g) (s.setGet g (.returned (.error .timeout)))
  | replace {s g conn} : s.get g = .got conn → PoolStep capacity s (.get g) (s.setGet g (.returned (.ok conn)))
  -- the worker
  | readError {s} : s.worker = .serving → PoolStep capacity s .worker { s with done := true }
  | stop {s} : s.worker = .serving → s.done = true → s.lifecycleMu = none →
      PoolStep capacity s .worker { s with ctl := s.ctl.stop, worker := .stopped }
  | closeChannel {s} : s.worker = .stopped →
      PoolStep capacity s .worker { s with chClosed := true, worker := .draining }
  | drain {s conn rest} : s.worker = .draining → s.workConnCh = conn :: rest →
      PoolStep capacity s .worker { s with workConnCh := rest, closed := conn :: s.closed }
  | drained {s} : s.worker = .draining → s.workConnCh = [] → PoolStep capacity s .worker { s with worker := .drained }
  | finish {s} : s.worker = .drained → s.lifecycleMu = none →
      PoolStep capacity s .worker { s with ctl := s.ctl.finishLocked, worker := .finished }
  -- the manager and other controls
  | admitted {s x} (id : Nat) : s.lifecycleMu = none → s.ctl.admitAs id = some x →
      PoolStep capacity s .control { s with ctl := x, current := true }
  | activate {s} : s.lifecycleMu = none → s.ctl.state = .pending →
      PoolStep capacity s .control { s with ctl := { s.ctl with activated := true } }
  | start {s x} : s.lifecycleMu = none → s.ctl.startLocked = some x →
      PoolStep capacity s .control { s with ctl := x, worker := .serving }
  | close {s} : s.lifecycleMu = none → PoolStep capacity s .control { s with ctl := s.ctl.close }
  | replaced {s} (self : Nat) : s.lifecycleMu = none →
      PoolStep capacity s .control { s with ctl := (s.ctl.markReplaced self).1 }
  | leaveRun {s} : s.runMu = none → PoolStep capacity s .control { s with current := false }
  | closeManager {s} : PoolStep capacity s .control { s with managerClosed := true }

end Frp
