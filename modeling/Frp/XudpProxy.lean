import Frp.Closers
import Frp.Lts

/-!
# The connections of the client's XUDP proxy

`client/proxy/xudp.go`: calls of `InWorkConn`, the worker goroutines of those that have a data
plane, and calls of `Close`. A section under `lifecycleMu` or under the lock of a lifecycle is
one step, and so is the run of one closer.
-/

namespace Frp

open Function

inductive XudpRole
  | p2p
  | relay

inductive XudpRes
  | conn
  | workConn
  | listenConn
  | newListenConn
  | listener
  | quicConn
  deriving DecidableEq

namespace XudpRole

def closers : XudpRole → List XudpRes
  | p2p => [.conn, .listenConn, .newListenConn, .listener, .quicConn]
  | relay => [.conn, .workConn]

def workers : XudpRole → Nat
  | p2p => 3
  | relay => 4

end XudpRole

inductive InWorkPc
  | idle
  | start
  | refused
  | classifying (id : Nat)
  | reading (id : Nat)
  | preparing (id : Nat)
  | promoting (id : Nat) (role : XudpRole)
  | dropping (id : Nat)
  | finishing (id : Nat)
  | closing
  | setup (id : Nat) (role : XudpRole) (todo : List XudpRes)
  | late (id : Nat) (role : XudpRole) (r : XudpRes) (todo : List XudpRes)
  | joining (id : Nat)
  | finishActive (id : Nat)
  | stopping (id : Nat)
  | removing (id : Nat)
  | done (id : Nat)
  | returned

inductive XudpWorkerPc
  | running
  | stopping
  | ended
  deriving DecidableEq

inductive StopBy
  | main
  | worker (w : Nat)
  | close

abbrev XudpLifecycle := Closers StopBy XudpRes

inductive XudpClosePc
  | idle
  | start
  | pending (conns active : List Nat)
  | active (active : List Nat)
  | stopping (i : Nat) (active : List Nat)
  | base
  | done

inductive CloseCallPc
  | idle
  | waiting
  | returned

/-- Calls of `InWorkConn`, their connections and their lifecycles have the same numbers; `counted` are
the calls that `activeWG` counts. -/
structure XudpProxy where
  closed : Bool
  nextConnID : Nat
  pendingConns : List (Nat × Nat)
  activeConns : List (Nat × Nat)
  activeWG : Int
  pc : Nat → InWorkPc
  lc : Nat → XudpLifecycle
  workers : Nat → List XudpWorkerPc
  connClosed : Nat → Bool
  close : XudpClosePc
  closeCalls : Nat → CloseCallPc
  counted : List Nat

inductive XudpEvent
  | call (i : Nat)
  | worker (i w : Nat)
  | closeCall (j : Nat)
  | close

namespace XudpProxy

def Init (s : XudpProxy) : Prop :=
  s = ⟨false, 0, [], [], 0, fun _ => .idle, fun _ => {}, fun _ => [], fun _ => false, .idle, fun _ => .idle, []⟩

def goto (s : XudpProxy) (i : Nat) (q : InWorkPc) : XudpProxy := { s with pc := update s.pc i q }

def setLc (s : XudpProxy) (i : Nat) (lc : XudpLifecycle) : XudpProxy := { s with lc := update s.lc i lc }

def setWorkers (s : XudpProxy) (i : Nat) (ws : List XudpWorkerPc) : XudpProxy :=
  { s with workers := update s.workers i ws }

def closeConn (s : XudpProxy) (i : Nat) : XudpProxy := { s with connClosed := update s.connClosed i true }

def closeRes (s : XudpProxy) (i : Nat) : XudpRes → XudpProxy
  | .conn => s.closeConn i
  | _ => s

def registerPending (s : XudpProxy) (i : Nat) : XudpProxy :=
  { s with nextConnID := s.nextConnID + 1, pendingConns := s.pendingConns ++ [(s.nextConnID + 1, i)] }

def deletePending (s : XudpProxy) (id i : Nat) : XudpProxy := { s with pendingConns := s.pendingConns.erase (id, i) }

def activate (s : XudpProxy) (id i : Nat) : XudpProxy :=
  { s with
    pendingConns := s.pendingConns.erase (id, i)
    activeConns := s.activeConns ++ [(id, i)]
    activeWG := s.activeWG + 1
    counted := s.counted ++ [i] }

def deleteActive (s : XudpProxy) (id i : Nat) : XudpProxy := { s with activeConns := s.activeConns.erase (id, i) }

def wgDone (s : XudpProxy) (i : Nat) : XudpProxy :=
  { s with activeWG := s.activeWG - 1, counted := s.counted.erase i }

end XudpProxy

def XudpRole.rejected (id : Nat) : XudpRole → InWorkPc
  | .p2p => .dropping id
  | .relay => .finishing id

inductive XudpStep : XudpProxy → XudpEvent → XudpProxy → Prop
  -- InWorkConn
  | call {s i} : s.pc i = .idle → XudpStep s (.call i) (s.goto i .start)
  | refuse {s i} : s.pc i = .start → s.closed = true → XudpStep s (.call i) (s.goto i .refused)
  | register {s i} : s.pc i = .start → s.closed = false →
      XudpStep s (.call i) ((s.registerPending i).goto i (.classifying (s.nextConnID + 1)))
  | closeRefused {s i} : s.pc i = .refused → XudpStep s (.call i) ((s.closeConn i).goto i .returned)
  | classifyFails {s i} (id : Nat) : s.pc i = .classifying id → XudpStep s (.call i) (s.goto i (.finishing id))
  | relay {s i} (id : Nat) : s.pc i = .classifying id → XudpStep s (.call i) (s.goto i (.promoting id .relay))
  | p2p {s i} (id : Nat) : s.pc i = .classifying id → XudpStep s (.call i) (s.goto i (.reading id))
  -- handleP2PWorkConn up to the promotion
  | sidFails {s i} (id : Nat) : s.pc i = .reading id → XudpStep s (.call i) (s.goto i (.finishing id))
  | sid {s i} (id : Nat) : s.pc i = .reading id → XudpStep s (.call i) (s.goto i (.preparing id))
  | prepareFails {s i} (id : Nat) : s.pc i = .preparing id → XudpStep s (.call i) (s.goto i (.finishing id))
  | prepare {s i} (id : Nat) : s.pc i = .preparing id → XudpStep s (.call i) (s.goto i (.promoting id .p2p))
  -- promotePending
  | promoteMissing {s i} (id : Nat) (role : XudpRole) : s.pc i = .promoting id role → (id, i) ∉ s.pendingConns →
      XudpStep s (.call i) (s.goto i (role.rejected id))
  | promoteClosed {s i} (id : Nat) (role : XudpRole) : s.pc i = .promoting id role → (id, i) ∈ s.pendingConns →
      s.closed = true → XudpStep s (.call i) ((s.deletePending id i).goto i (role.rejected id))
  | promote {s i} (id : Nat) (role : XudpRole) : s.pc i = .promoting id role → (id, i) ∈ s.pendingConns →
      s.closed = false →
      XudpStep s (.call i) (((s.activate id i).setLc i {}).goto i (.setup id role role.closers))
  | dropListenConn {s i} (id : Nat) : s.pc i = .dropping id → XudpStep s (.call i) (s.goto i (.finishing id))
  -- finishPending
  | finishPending {s i} (id : Nat) : s.pc i = .finishing id →
      XudpStep s (.call i) ((s.deletePending id i).goto i .closing)
  | closeConn {s i} : s.pc i = .closing → XudpStep s (.call i) ((s.closeConn i).goto i .returned)
  -- the data plane: addCloser
  | addCloser {s i} (id : Nat) (role : XudpRole) (r : XudpRes) (todo : List XudpRes) :
      s.pc i = .setup id role (r :: todo) → (s.lc i).phase = .going →
      XudpStep s (.call i) ((s.setLc i ((s.lc i).add r)).goto i (.setup id role todo))
  | addStopped {s i} (id : Nat) (role : XudpRole) (r : XudpRes) (todo : List XudpRes) :
      s.pc i = .setup id role (r :: todo) → (s.lc i).phase ≠ .going →
      XudpStep s (.call i) ((s.setLc i ((s.lc i).addLate r)).goto i (.late id role r todo))
  | runLate {s i} (id : Nat) (role : XudpRole) (r : XudpRes) (todo : List XudpRes) : s.pc i = .late id role r todo →
      XudpStep s (.call i) (((s.closeRes i r).setLc i ((s.lc i).runLate r)).goto i (.setup id role todo))
  -- MakeHole gives the socket it was given
  | sameSocket {s i} (id : Nat) (role : XudpRole) (todo : List XudpRes) :
      s.pc i = .setup id role (.newListenConn :: todo) → XudpStep s (.call i) (s.goto i (.setup id role todo))
  -- a failure, once the connection and the socket of Prepare have their closers
  | setupFails {s i} (id : Nat) (role : XudpRole) (todo : List XudpRes) : s.pc i = .setup id role todo →
      .conn ∉ todo → .listenConn ∉ todo → XudpStep s (.call i) (s.goto i (.finishActive id))
  -- runXUDPWorkers
  | spawn {s i} (id : Nat) (role : XudpRole) : s.pc i = .setup id role [] →
      XudpStep s (.call i) ((s.setWorkers i (List.replicate role.workers .running)).goto i (.joining id))
  | join {s i} (id : Nat) : s.pc i = .joining id → (∀ w ∈ s.workers i, w = .ended) →
      XudpStep s (.call i) (s.goto i (.finishActive id))
  -- finishActive
  | stop {s i} (id : Nat) : s.pc i = .finishActive id → (s.lc i).phase = .going →
      XudpStep s (.call i) ((s.setLc i ((s.lc i).stopBy .main)).goto i (.stopping id))
  | stopAgain {s i} (id : Nat) : s.pc i = .finishActive id → (s.lc i).phase ≠ .going →
      XudpStep s (.call i) (s.goto i (.removing id))
  | runCloser {s i} (id : Nat) (r : XudpRes) (todo : List XudpRes) : s.pc i = .stopping id →
      (s.lc i).phase = .running .main (r :: todo) →
      XudpStep s (.call i) ((s.closeRes i r).setLc i ((s.lc i).run .main r todo))
  | stopped {s i} (id : Nat) : s.pc i = .stopping id → (s.lc i).phase = .running .main [] →
      XudpStep s (.call i) ((s.setLc i (s.lc i).finish).goto i (.removing id))
  | deleteActive {s i} (id : Nat) : s.pc i = .removing id →
      XudpStep s (.call i) ((s.deleteActive id i).goto i (.done id))
  | wgDone {s i} (id : Nat) : s.pc i = .done id → XudpStep s (.call i) ((s.wgDone i).goto i .returned)
  -- a worker has ended and stops the lifecycle
  | workerStop {s i} (w : Nat) : (s.workers i)[w]? = some .running → (s.lc i).phase = .going →
      XudpStep s (.worker i w)
        ((s.setLc i ((s.lc i).stopBy (.worker w))).setWorkers i ((s.workers i).set w .stopping))
  | workerStopAgain {s i} (w : Nat) : (s.workers i)[w]? = some .running → (s.lc i).phase ≠ .going →
      XudpStep s (.worker i w) (s.setWorkers i ((s.workers i).set w .ended))
  | workerCloser {s i} (w : Nat) (r : XudpRes) (todo : List XudpRes) : (s.workers i)[w]? = some .stopping →
      (s.lc i).phase = .running (.worker w) (r :: todo) →
      XudpStep s (.worker i w) ((s.closeRes i r).setLc i ((s.lc i).run (.worker w) r todo))
  | workerStopped {s i} (w : Nat) : (s.workers i)[w]? = some .stopping → (s.lc i).phase = .running (.worker w) [] →
      XudpStep s (.worker i w) ((s.setLc i (s.lc i).finish).setWorkers i ((s.workers i).set w .ended))
  -- Close
  | closeFirst {s j} : s.closeCalls j = .idle → s.close = .idle →
      XudpStep s (.closeCall j) { s with closeCalls := update s.closeCalls j .waiting, close := .start }
  | closeNext {s j} : s.closeCalls j = .idle → s.close ≠ .idle →
      XudpStep s (.closeCall j) { s with closeCalls := update s.closeCalls j .waiting }
  | closeReturns {s j} : s.closeCalls j = .waiting → s.close = .done →
      XudpStep s (.closeCall j) { s with closeCalls := update s.closeCalls j .returned }
  | snapshot {s} (conns active : List Nat) : s.close = .start → conns.Perm (s.pendingConns.map Prod.snd) →
      active.Perm (s.activeConns.map Prod.snd) →
      XudpStep s .close { s with closed := true, close := .pending conns active }
  | closePending {s} (i : Nat) (conns active : List Nat) : s.close = .pending (i :: conns) active →
      XudpStep s .close { s.closeConn i with close := .pending conns active }
  | pendingClosed {s} (active : List Nat) : s.close = .pending [] active →
      XudpStep s .close { s with close := .active active }
  | stopActive {s} (i : Nat) (active : List Nat) : s.close = .active (i :: active) → (s.lc i).phase = .going →
      XudpStep s .close { s.setLc i ((s.lc i).stopBy .close) with close := .stopping i active }
  | stopActiveAgain {s} (i : Nat) (active : List Nat) : s.close = .active (i :: active) → (s.lc i).phase ≠ .going →
      XudpStep s .close { s with close := .active active }
  | activeCloser {s} (i : Nat) (active : List Nat) (r : XudpRes) (todo : List XudpRes) :
      s.close = .stopping i active → (s.lc i).phase = .running .close (r :: todo) →
      XudpStep s .close ((s.closeRes i r).setLc i ((s.lc i).run .close r todo))
  | activeStopped {s} (i : Nat) (active : List Nat) : s.close = .stopping i active →
      (s.lc i).phase = .running .close [] →
      XudpStep s .close { s.setLc i (s.lc i).finish with close := .active active }
  -- activeWG.Wait, then BaseProxy.Close
  | wait {s} : s.close = .active [] → s.activeWG = 0 → XudpStep s .close { s with close := .base }
  | baseClose {s} : s.close = .base → XudpStep s .close { s with close := .done }

end Frp
