import Frp.Custody
import Frp.ForwardUser
import Frp.Visitor

/-!
# The life of the XUDP visitor

`client/visitor/xudp.go` around the session of `Frp.Visitor`: calls of `Run` and `Close` with
the lock `mu`, the forwarder, and the connections of the transports. `dialP2P` asks
`nathole.Prepare` for a socket by a request it may give up.
-/

namespace Frp

variable {α : Type*}

/-- The call holds `mu` from `resolving` to `unlocking`. -/
inductive XudpRunPc
  | idle
  | resolving
  | listening
  | spawnDispatcher
  | spawnForward
  | unlocking
  | ok
  | failed
  | refused

/-- The body of the first `Close`, which holds `mu` from `cancel` to `channel`. -/
inductive XudpClosing
  | idle
  | cancel
  | socket
  | channel
  | closers
  | waiting
  | done

inductive XudpCloseCall
  | idle
  | waiting
  | returned

inductive XudpDispatcherPc
  | off
  | reserved
  | running
  | ended

/-- What the dispatcher has in hand while it dials: `many c l` is `MakeHole` with the socket `c` of
`Prepare`, where the goroutines of the sockets `l` still wait for an answer. -/
inductive DialHand
  | none
  | waiting (k : Nat)
  | took (k : Nat) (r : Option Nat)
  | cancelling (k : Nat) (o : Option Nat)
  | recycling (l : List Nat)
  | listen (c : Nat)
  | many (c : Nat) (l : List Nat)
  | conn (c : Nat)
  | failed

inductive Grip
  | none
  | dial
  | conn
  | relay

def DialStage.grip : DialStage → Grip
  | .handshake _ => .dial
  | .dial _ => .conn
  | _ => .none

def SessionPc.grip : SessionPc α → Grip
  | .dialP2P _ st | .probe _ _ st => st.grip
  | .activateP2P _ | .cancelRelay _ | .joinRelay _ | .activateRecovered _ => .conn
  | .relayConnect _ => .relay
  | _ => .none

def Grip.Fits : Grip → DialHand → Prop
  | .none, h => h = .none
  | .dial, h => h ≠ .none
  | .conn, h => ∃ c, h = .conn c
  | .relay, h => h = .none ∨ ∃ c, h = .conn c

/-- `sock` is `udpConn`, if there is one, and whether it is closed; `owners` are the connections of the
transports, `holes` those left to goroutines of `MakeHole`, of which `ended` read no longer. -/
structure XudpVisitor (α : Type*) where
  visitor : Visitor α := {}
  mu : Bool := false
  closed : Bool := false
  runOnce : Bool := false
  started : Bool := false
  closes : Nat := 0
  sock : Option Bool := none
  workers : Int := 0
  runs : Nat → XudpRunPc := fun _ => .idle
  close : XudpClosing := .idle
  closeCalls : Nat → XudpCloseCall := fun _ => .idle
  dispatcher : XudpDispatcherPc := .off
  forward : Forward := {}
  hand : DialHand := .none
  requests : List Delivery := []
  owners : List Nat := []
  holes : List Nat := []
  ended : List Nat := []
  conns : Custody := {}

inductive XudpVisitorEvent (α : Type*)
  | run (i : Nat)
  | closeCall (j : Nat)
  | close
  | visitor (e : Event α)
  | dispatcher
  | port
  | forward
  | producer (k : Nat)
  | datagram (c : Nat)
  | readEnds (c : Nat)
  | hole (c : Nat)

namespace XudpVisitor

def Init (s : XudpVisitor α) : Prop := s = {}

def goto (s : XudpVisitor α) (i : Nat) (p : XudpRunPc) : XudpVisitor α := { s with runs := Function.update s.runs i p }

def call (s : XudpVisitor α) (j : Nat) (p : XudpCloseCall) : XudpVisitor α :=
  { s with closeCalls := Function.update s.closeCalls j p }

def Allows (s : XudpVisitor α) : Event α → Prop
  | .enqueue _ | .full => s.forward.main = .reading
  | .written => s.forward.writer = .running
  | .transport _ _ => True
  | .session | .beginSession | .beginTransport => s.dispatcher = .running
  | .close => False

def closeReady (s : XudpVisitor α) : Prop := s.visitor.closing = .closed

end XudpVisitor

inductive XudpVisitorStep : XudpVisitor α → XudpVisitorEvent α → XudpVisitor α → Prop
  -- Run
  | run {s i} : s.runs i = .idle → s.mu = false → s.closed = false → s.runOnce = false →
      XudpVisitorStep s (.run i) { s.goto i .resolving with mu := true, runOnce := true }
  | refuse {s i} : s.runs i = .idle → s.mu = false → s.closed = true ∨ s.runOnce = true →
      XudpVisitorStep s (.run i) (s.goto i .refused)
  | resolve {s i} : s.runs i = .resolving → XudpVisitorStep s (.run i) (s.goto i .listening)
  | resolveFails {s i} : s.runs i = .resolving → XudpVisitorStep s (.run i) { s.goto i .failed with mu := false }
  | listen {s i} : s.runs i = .listening →
      XudpVisitorStep s (.run i)
        { s.goto i .spawnDispatcher with
          started := true
          sock := some false
          workers := s.workers + 2
          dispatcher := .reserved
          forward := { main := .reserved } }
  | listenFails {s i} : s.runs i = .listening → XudpVisitorStep s (.run i) { s.goto i .failed with mu := false }
  | spawnDispatcher {s i} : s.runs i = .spawnDispatcher →
      XudpVisitorStep s (.run i) { s.goto i .spawnForward with dispatcher := .running }
  | spawnForward {s i} : s.runs i = .spawnForward →
      XudpVisitorStep s (.run i) { s.goto i .unlocking with forward := .started }
  | unlock {s i} : s.runs i = .unlocking → XudpVisitorStep s (.run i) { s.goto i .ok with mu := false }
  -- Close
  | closeFirst {s j} : s.closeCalls j = .idle → s.mu = false → s.closed = false →
      XudpVisitorStep s (.closeCall j) { s.call j .waiting with mu := true, closed := true, close := .cancel }
  | closeNext {s j} : s.closeCalls j = .idle → s.mu = false → s.closed = true →
      XudpVisitorStep s (.closeCall j) (s.call j .waiting)
  | closeReturns {s j} : s.closeCalls j = .waiting → s.close = .done →
      XudpVisitorStep s (.closeCall j) (s.call j .returned)
  | cancel {s v} : s.close = .cancel → s.started = true → Step s.visitor .close v →
      XudpVisitorStep s .close { s with close := .socket, visitor := v }
  | cancelNone {s} : s.close = .cancel → s.started = false → XudpVisitorStep s .close { s with close := .socket }
  | closeSocket {s} : s.close = .socket →
      XudpVisitorStep s .close { s with close := .channel, sock := s.sock.map fun _ => true }
  | closeChannel {s v} : s.close = .channel → s.started = true → Step s.visitor .close v →
      XudpVisitorStep s .close { s with close := .closers, mu := false, closes := s.closes + 1, visitor := v }
  | noChannel {s} : s.close = .channel → s.started = false →
      XudpVisitorStep s .close { s with close := .closers, mu := false }
  -- the closers are steps of the transports
  | closersRun {s} : s.close = .closers → (∀ t ∈ s.visitor.transports, t.registered = true → t.closed = true) →
      XudpVisitorStep s .close { s with close := .waiting }
  | wait {s} : s.close = .waiting → s.workers = 0 → XudpVisitorStep s .close { s with close := .done }
  -- the session, the transports and the channels
  | keep {s e v} : Step s.visitor e v → s.Allows e → v.transports.length = s.visitor.transports.length →
      v.session.grip.Fits s.hand → XudpVisitorStep s (.visitor e) { s with visitor := v }
  -- newXUDPPrepareRequest
  | request {s e v} : Step s.visitor e v → s.Allows e → v.transports.length = s.visitor.transports.length →
      v.session.grip = .dial → s.hand = .none →
      XudpVisitorStep s (.visitor e)
        { s with visitor := v, hand := .waiting s.requests.length, requests := s.requests ++ [{}] }
  | lose {s e v} : Step s.visitor e v → s.Allows e → v.transports.length = s.visitor.transports.length →
      v.session.grip = .none → s.hand = .failed → XudpVisitorStep s (.visitor e) { s with visitor := v, hand := .none }
  -- the connection is closed on the way out, or goes to runActiveTransport
  | drop {s e v} (c : Nat) : Step s.visitor e v → s.Allows e → v.transports.length = s.visitor.transports.length →
      v.session.grip = .none → s.hand = .conn c →
      XudpVisitorStep s (.visitor e) { s with visitor := v, hand := .none, conns := s.conns.close c }
  | give {s e v} (c : Nat) : Step s.visitor e v → s.Allows e → v.transports.length = s.visitor.transports.length + 1 →
      v.session.grip = .none → s.hand = .conn c →
      XudpVisitorStep s (.visitor e) { s with visitor := v, hand := .none, owners := s.owners ++ [c] }
  | dispatcherDone {s} : s.dispatcher = .running → s.visitor.session = .done →
      XudpVisitorStep s .dispatcher { s with dispatcher := .ended, workers := s.workers - 1 }
  -- wait and cancel of a request
  | take {s} (k : Nat) (d : Delivery) (r : Option Nat) : s.hand = .waiting k → s.requests[k]? = some d →
      d.slot = some r → XudpVisitorStep s .dispatcher { s with hand := .took k r, requests := s.requests.set k d.take }
  | waitClosed {s} (k : Nat) : s.hand = .waiting k → s.closeReady →
      XudpVisitorStep s .dispatcher { s with hand := .cancelling k none }
  | tookClosed {s} (k : Nat) (r : Option Nat) : s.hand = .took k r → s.closeReady →
      XudpVisitorStep s .dispatcher { s with hand := .cancelling k r }
  | cancelRequest {s} (k : Nat) (o : Option Nat) (d : Delivery) : s.hand = .cancelling k o → s.requests[k]? = some d →
      XudpVisitorStep s .dispatcher
        { s with hand := .recycling (d.slot.join.toList ++ o.toList), requests := s.requests.set k d.cancel }
  | recycle {s} (c : Nat) (l : List Nat) : s.hand = .recycling (c :: l) →
      XudpVisitorStep s .dispatcher { s with hand := .recycling l, conns := s.conns.close c }
  | recycled {s} : s.hand = .recycling [] → XudpVisitorStep s .dispatcher { s with hand := .failed }
  | tookError {s} (k : Nat) : s.hand = .took k none → ¬ s.closeReady →
      XudpVisitorStep s .dispatcher { s with hand := .failed }
  | tookConn {s} (k c : Nat) : s.hand = .took k (some c) → ¬ s.closeReady →
      XudpVisitorStep s .dispatcher { s with hand := .listen c }
  -- GenerateIdentity, ExchangeInfo or MakeHole fails
  | listenConnFails {s} (c : Nat) : s.hand = .listen c →
      XudpVisitorStep s .dispatcher { s with hand := .failed, conns := s.conns.close c }
  -- MakeHole
  | hole {s} (c : Nat) : s.hand = .listen c → XudpVisitorStep s .dispatcher { s with hand := .conn c }
  | firstPort {s} (c : Nat) : s.hand = .listen c →
      XudpVisitorStep s .dispatcher { s with hand := .many c [c, s.conns.next], conns := s.conns.acquire }
  | morePorts {s} (c : Nat) (l : List Nat) : s.hand = .many c l →
      XudpVisitorStep s .dispatcher { s with hand := .many c (s.conns.next :: l), conns := s.conns.acquire }
  | portCloses {s} (c d : Nat) (l : List Nat) : s.hand = .many c l → d ∈ l →
      XudpVisitorStep s .port { s with hand := .many c (l.erase d), conns := s.conns.close d }
  | found {s} (c d : Nat) (l : List Nat) : s.hand = .many c l → d ∈ l →
      XudpVisitorStep s .dispatcher { s with hand := .conn d, holes := s.holes ++ l.erase d }
  | notFound {s} (c : Nat) (l : List Nat) : s.hand = .many c l →
      XudpVisitorStep s .dispatcher { s with hand := .failed, holes := s.holes ++ l, conns := s.conns.close c }
  -- waitDetectMessage sets a new deadline after each datagram it skips
  | holeSkips {s} (c : Nat) : c ∈ s.holes → c ∉ s.ended → XudpVisitorStep s (.datagram c) s
  | holeEnds {s} (c : Nat) : c ∈ s.holes → XudpVisitorStep s (.readEnds c) { s with ended := c :: s.ended }
  | holeCloses {s} (c : Nat) : c ∈ s.holes → c ∈ s.ended →
      XudpVisitorStep s (.hole c) { s with holes := s.holes.erase c, conns := s.conns.close c }
  -- dialRelay has a connection
  | dialRelay {s} : s.visitor.session.grip = .relay → s.dispatcher = .running → s.hand = .none →
      XudpVisitorStep s .dispatcher { s with hand := .conn s.conns.next, conns := s.conns.acquire }
  -- ForwardUserConn
  | forward {s} (f : Forward) : ForwardStep s.forward .silent f → XudpVisitorStep s .forward { s with forward := f }
  | forwardClose {s} (f : Forward) : ForwardStep s.forward .closeSocket f →
      XudpVisitorStep s .forward { s with forward := f, sock := s.sock.map fun _ => true }
  | forwardDone {s} (f : Forward) : ForwardStep s.forward .done f →
      XudpVisitorStep s .forward { s with forward := f, workers := s.workers - 1 }
  -- the goroutine of a request
  | produce {s} (k : Nat) (d d' : Delivery) (l : Custody) : s.requests[k]? = some d → d.Produce s.conns d' l →
      XudpVisitorStep s (.producer k) { s with requests := s.requests.set k d', conns := l }

def XudpVisitor.Closed (s : XudpVisitor α) (c : Nat) : Prop :=
  s.conns.closed c = true ∨
    ∃ (k : Nat) (t : Transport α), s.owners[k]? = some c ∧ s.visitor.transports[k]? = some t ∧ t.closed = true

end Frp
