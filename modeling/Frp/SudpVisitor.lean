import Frp.Custody
import Frp.ForwardUser
import Frp.Lts

/-!
# The SUDP visitor

`client/visitor/sudp.go`: calls of `Run` and `Close`, the dispatcher with its requests and
its worker, and the forwarder. A section under `lifecycleMu` or under the lock of a request
is one step. Packets are left out.
-/

namespace Frp

inductive SudpLifecycleState
  | notStarted
  | starting
  | running
  | closed
  deriving DecidableEq

/-- `refused` has found the visitor started or closed, `failed` gave up later. -/
inductive SudpRunPc
  | idle
  | starting
  | listening
  | bound (c : Nat)
  | dropping (c : Nat)
  | failing
  | failBase
  | spawnDispatcher
  | spawnForward
  | ok
  | failed
  | refused

inductive SudpClosePc
  | idle
  | base (u : Option Nat)
  | socket (u : Option Nat)
  | done

inductive SudpCloseCall
  | idle
  | first
  | waiting
  | returned

inductive SudpGo
  | watcher
  | reader
  | sender
  deriving DecidableEq

inductive SudpGoPc
  | running
  | closing
  | done
  deriving DecidableEq

/-- One call of `worker`; `stop` says that `workerCloseCh` is closed. -/
structure SudpWorker where
  go : SudpGo → SudpGoPc := fun _ => .running
  stop : Bool := false

def SudpWorker.set (w : SudpWorker) (g : SudpGo) (p : SudpGoPc) : SudpWorker :=
  { w with go := Function.update w.go g p }

inductive SudpDispatcherPc
  | off
  | reserved
  | selecting
  | waiting (k : Nat)
  | took (k : Nat) (r : Option Nat)
  | cancelling (k : Nat) (o : Option Nat)
  | recycling (l : List Nat)
  | retrying
  | serving (c : Nat)
  | working (c : Nat) (w : SudpWorker)
  | finishing (c : Nat)
  | checking
  | leaving
  | ended

/-- `closes` counts the closings of `checkCloseCh`; `socks` are the sockets of `ListenUDP`, `conns` the
connections of `newVisitorConn`. -/
structure SudpVisitor where
  lifecycle : SudpLifecycleState := .notStarted
  closes : Nat := 0
  udpConn : Option Nat := none
  workers : Int := 0
  runs : Nat → SudpRunPc := fun _ => .idle
  close : SudpClosePc := .idle
  closeCalls : Nat → SudpCloseCall := fun _ => .idle
  dispatcher : SudpDispatcherPc := .off
  forward : Forward := {}
  requests : List Delivery := []
  socks : Custody := {}
  conns : Custody := {}

inductive SudpEvent
  | run (i : Nat)
  | closeCall (j : Nat)
  | close
  | dispatcher
  | go (g : SudpGo)
  | forward
  | producer (k : Nat)

namespace SudpVisitor

def Init (s : SudpVisitor) : Prop := s = {}

def closeReady (s : SudpVisitor) : Prop := 0 < s.closes

def goto (s : SudpVisitor) (i : Nat) (p : SudpRunPc) : SudpVisitor := { s with runs := Function.update s.runs i p }

def call (s : SudpVisitor) (j : Nat) (p : SudpCloseCall) : SudpVisitor :=
  { s with closeCalls := Function.update s.closeCalls j p }

def request (s : SudpVisitor) : SudpVisitor :=
  { s with requests := s.requests ++ [{}], dispatcher := .waiting s.requests.length }

end SudpVisitor

inductive SudpStep : SudpVisitor → SudpEvent → SudpVisitor → Prop
  -- Run
  | run {s i} : s.runs i = .idle → s.lifecycle = .notStarted →
      SudpStep s (.run i) { s.goto i .starting with lifecycle := .starting }
  | refuse {s i} : s.runs i = .idle → s.lifecycle ≠ .notStarted → SudpStep s (.run i) (s.goto i .refused)
  | resolve {s i} : s.runs i = .starting → SudpStep s (.run i) (s.goto i .listening)
  | resolveFails {s i} : s.runs i = .starting → SudpStep s (.run i) (s.goto i .failing)
  | listen {s i} : s.runs i = .listening →
      SudpStep s (.run i) { s.goto i (.bound s.socks.next) with socks := s.socks.acquire }
  | listenFails {s i} : s.runs i = .listening → SudpStep s (.run i) (s.goto i .failing)
  | commit {s i} (c : Nat) : s.runs i = .bound c → s.lifecycle = .starting →
      SudpStep s (.run i)
        { s.goto i .spawnDispatcher with
          lifecycle := .running
          udpConn := some c
          workers := s.workers + 2
          dispatcher := .reserved
          forward := { main := .reserved } }
  | commitLate {s i} (c : Nat) : s.runs i = .bound c → s.lifecycle ≠ .starting →
      SudpStep s (.run i) (s.goto i (.dropping c))
  | drop {s i} (c : Nat) : s.runs i = .dropping c →
      SudpStep s (.run i) { s.goto i .failed with socks := s.socks.close c }
  | spawnDispatcher {s i} : s.runs i = .spawnDispatcher →
      SudpStep s (.run i) { s.goto i .spawnForward with dispatcher := .selecting }
  | spawnForward {s i} : s.runs i = .spawnForward → SudpStep s (.run i) { s.goto i .ok with forward := .started }
  -- failStartup
  | failStartup {s i} : s.runs i = .failing → s.lifecycle = .starting →
      SudpStep s (.run i) { s.goto i .failBase with lifecycle := .closed, closes := s.closes + 1 }
  | failLate {s i} : s.runs i = .failing → s.lifecycle ≠ .starting → SudpStep s (.run i) (s.goto i .failed)
  | failBase {s i} : s.runs i = .failBase → SudpStep s (.run i) (s.goto i .failed)
  -- Close
  | closeFirst {s j} : s.closeCalls j = .idle → s.lifecycle ≠ .closed →
      SudpStep s (.closeCall j)
        { s.call j .first with lifecycle := .closed, closes := s.closes + 1, close := .base s.udpConn }
  | closeAgain {s j} : s.closeCalls j = .idle → s.lifecycle = .closed → SudpStep s (.closeCall j) (s.call j .waiting)
  | closeBase {s} (u : Option Nat) : s.close = .base u → SudpStep s .close { s with close := .socket u }
  | closeSocket {s} (c : Nat) : s.close = .socket (some c) →
      SudpStep s .close { s with close := .done, socks := s.socks.close c }
  | noSocket {s} : s.close = .socket none → SudpStep s .close { s with close := .done }
  | closeWait {s j} : s.closeCalls j = .first → s.close = .done → SudpStep s (.closeCall j) (s.call j .waiting)
  | closeReturns {s j} : s.closeCalls j = .waiting → s.workers = 0 → SudpStep s (.closeCall j) (s.call j .returned)
  -- dispatcher
  | packet {s} : s.dispatcher = .selecting → SudpStep s .dispatcher s.request
  | selectClosed {s} : s.dispatcher = .selecting → s.closeReady →
      SudpStep s .dispatcher { s with dispatcher := .leaving }
  | take {s} (k : Nat) (d : Delivery) (r : Option Nat) : s.dispatcher = .waiting k → s.requests[k]? = some d →
      d.slot = some r →
      SudpStep s .dispatcher { s with dispatcher := .took k r, requests := s.requests.set k d.take }
  | waitClosed {s} (k : Nat) : s.dispatcher = .waiting k → s.closeReady →
      SudpStep s .dispatcher { s with dispatcher := .cancelling k none }
  | tookClosed {s} (k : Nat) (r : Option Nat) : s.dispatcher = .took k r → s.closeReady →
      SudpStep s .dispatcher { s with dispatcher := .cancelling k r }
  | cancel {s} (k : Nat) (o : Option Nat) (d : Delivery) : s.dispatcher = .cancelling k o → s.requests[k]? = some d →
      SudpStep s .dispatcher
        { s with
          dispatcher := .recycling (d.slot.join.toList ++ o.toList)
          requests := s.requests.set k d.cancel }
  | recycle {s} (c : Nat) (l : List Nat) : s.dispatcher = .recycling (c :: l) →
      SudpStep s .dispatcher { s with dispatcher := .recycling l, conns := s.conns.close c }
  | recycled {s} : s.dispatcher = .recycling [] → SudpStep s .dispatcher { s with dispatcher := .leaving }
  | tookError {s} (k : Nat) : s.dispatcher = .took k none → ¬ s.closeReady →
      SudpStep s .dispatcher { s with dispatcher := .retrying }
  | tookConn {s} (k c : Nat) : s.dispatcher = .took k (some c) → ¬ s.closeReady →
      SudpStep s .dispatcher { s with dispatcher := .serving c }
  -- waitForConnRetry, with the packet kept
  | retry {s} : s.dispatcher = .retrying → SudpStep s .dispatcher s.request
  | retryClosed {s} : s.dispatcher = .retrying → s.closeReady → SudpStep s .dispatcher { s with dispatcher := .leaving }
  -- worker
  | workerFails {s} (c : Nat) : s.dispatcher = .serving c →
      SudpStep s .dispatcher { s with dispatcher := .finishing c, conns := s.conns.close c }
  | worker {s} (c : Nat) : s.dispatcher = .serving c → SudpStep s .dispatcher { s with dispatcher := .working c {} }
  | watch {s} (c : Nat) (w : SudpWorker) : s.dispatcher = .working c w → w.go .watcher = .running →
      s.closeReady ∨ w.stop = true →
      SudpStep s (.go .watcher) { s with dispatcher := .working c (w.set .watcher .closing) }
  | goEnds {s} (c : Nat) (w : SudpWorker) (g : SudpGo) : s.dispatcher = .working c w → g ≠ .watcher →
      w.go g = .running →
      SudpStep s (.go g) { s with dispatcher := .working c { w.set g .closing with stop := true } }
  | goCloses {s} (c : Nat) (w : SudpWorker) (g : SudpGo) : s.dispatcher = .working c w → w.go g = .closing →
      SudpStep s (.go g) { s with dispatcher := .working c (w.set g .done), conns := s.conns.close c }
  | workerDone {s} (c : Nat) (w : SudpWorker) : s.dispatcher = .working c w → (∀ g, w.go g = .done) →
      SudpStep s .dispatcher { s with dispatcher := .finishing c }
  | finish {s} (c : Nat) : s.dispatcher = .finishing c →
      SudpStep s .dispatcher { s with dispatcher := .checking, conns := s.conns.close c }
  | checkClosed {s} : s.dispatcher = .checking → s.closeReady → SudpStep s .dispatcher { s with dispatcher := .leaving }
  | checkOpen {s} : s.dispatcher = .checking → ¬ s.closeReady →
      SudpStep s .dispatcher { s with dispatcher := .selecting }
  | dispatcherDone {s} : s.dispatcher = .leaving →
      SudpStep s .dispatcher { s with dispatcher := .ended, workers := s.workers - 1 }
  -- ForwardUserConn
  | forward {s} (f : Forward) : ForwardStep s.forward .silent f → SudpStep s .forward { s with forward := f }
  | forwardClose {s} (c : Nat) (f : Forward) : ForwardStep s.forward .closeSocket f → s.udpConn = some c →
      SudpStep s .forward { s with forward := f, socks := s.socks.close c }
  | forwardDone {s} (f : Forward) : ForwardStep s.forward .done f →
      SudpStep s .forward { s with forward := f, workers := s.workers - 1 }
  -- the goroutine of a request
  | produce {s} (k : Nat) (d d' : Delivery) (l : Custody) : s.requests[k]? = some d → d.Produce s.conns d' l →
      SudpStep s (.producer k) { s with requests := s.requests.set k d', conns := l }

end Frp
