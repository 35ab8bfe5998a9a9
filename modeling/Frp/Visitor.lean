import Frp.Lts
import Frp.Machine

/-!
# The XUDP visitor's session

`client/visitor/xudp.go`: the dispatcher goroutine with `runSession` and
`runRelayWithP2PRecovery` on its stack, and one record for every call of `runActiveTransport`.
Each step is one action on shared state; `Machine.isCurrent` takes two.
-/

namespace Frp

/-- A `*msg.UDPPacket`: `addr` tells apart two packets of the same content. -/
structure Packet (α : Type*) where
  addr : Nat
  body : α
  deriving DecidableEq

def chanCap : Nat := 1024

inductive Kind where
  | p2p
  | relay
  deriving DecidableEq

inductive MainPc where
  | register
  | firstGen
  | firstEpoch
  | sendFirst
  | sentGen
  | sentEpoch
  | spawnReader
  | spawnSender
  | selecting
  | joinReader
  | joinSender
  | returned
  | joined
  deriving DecidableEq

inductive ReaderPc (α : Type*) where
  | off
  | loadGen
  | loadEpoch
  | receiving
  | gotGen (p : Packet α)
  | gotEpoch (p : Packet α)
  | putting (p : Packet α)
  | done

inductive SenderPc (α : Type*) where
  | off
  | selecting
  | recheck (p : Packet α)
  | loadGen (p : Packet α)
  | loadEpoch (p : Packet α)
  | sending (p : Packet α)
  | sentGen
  | sentEpoch
  | done

/-- One call of `runActiveTransport`. `pending` is `result.pendingPacket`, `handoff` is
`handoffPacket`; `published` numbers its epoch among all published. -/
structure Transport (α : Type*) where
  kind : Kind
  generation : UInt64
  epoch : UInt64
  published : Nat
  main : MainPc := .register
  reader : ReaderPc α := .off
  sender : SenderPc α := .off
  pending : Option (Packet α)
  handoff : Option (Packet α) := none
  cancel : Bool := false
  ctxDone : Bool := false
  closed : Bool := false
  registered : Bool := false
  watching : Bool := false

/-- `dialP2P`; `rec` says that its first snapshot saw the phase `recovering`. -/
inductive DialStage where
  | snapshot
  | prepare (rec : Bool)
  | punch (rec : Bool)
  | handshake (rec : Bool)
  | dial (rec : Bool)

/-- The dispatcher goroutine. A number is the index of the transport whose
result it waits for. -/
inductive SessionPc (α : Type*) where
  | idle
  | begin (first : Packet α)
  | top (pend : Option (Packet α))
  | dialP2P (pend : Option (Packet α)) (stage : DialStage)
  | activateP2P (pend : Option (Packet α))
  | runP2P (k : Nat)
  | afterP2P (pend : Option (Packet α))
  | dialRelay (pend : Option (Packet α))
  | relayConnect (pend : Option (Packet α))
  | relaySelect (k : Nat) (epoch : UInt64)
  | probe (k : Nat) (epoch : UInt64) (stage : DialStage)
  | cancelRelay (k : Nat)
  | joinRelay (k : Nat)
  | activateRecovered (pend : Option (Packet α))
  | runRecovered (k : Nat)
  | joinClosing (k : Nat)
  | backoff (pend : Option (Packet α))
  | done

/-- `XUDPVisitor.Close`: `cancelling` holds `mu` with the context cancelled and
`closeCh` still open. -/
inductive ClosePc where
  | running
  | cancelling
  | closed
  deriving DecidableEq

structure Visitor (α : Type*) where
  machine : Machine := .newMachine
  sendCh : List (Packet α) := []
  readCh : List (Packet α) := []
  closing : ClosePc := .running
  session : SessionPc α := .idle
  generation : UInt64 := 0
  transports : List (Transport α) := []
  nextAddr : Nat := 0
  published : Nat := 0
  enqueued : List (Packet α) := []
  accepted : List (Packet α) := []
  rejected : List (Packet α) := []

variable {α : Type*}

/-! ## One call of `runActiveTransport` -/

namespace Transport

def closeTransport (t : Transport α) : Transport α := { t with ctxDone := true, closed := true }

def ret (t : Transport α) : Transport α :=
  { t with main := .returned, ctxDone := true, registered := false, watching := false }

def genOk (t : Transport α) (s : Visitor α) : Prop := t.generation = s.machine.generation

def epochOk (t : Transport α) (s : Visitor α) : Prop := t.epoch = s.machine.transportEpoch

def ctxReady (t : Transport α) (s : Visitor α) : Prop := t.ctxDone = true ∨ s.closing ≠ .running

def closeReady (s : Visitor α) : Prop := s.closing = .closed

def stopReady (t : Transport α) (s : Visitor α) : Prop :=
  t.cancel = true ∨ t.reader = .done ∨ closeReady s ∨ t.ctxReady s

def afterRegister (t : Transport α) : MainPc := if t.pending.isSome then .firstGen else .spawnReader

end Transport

inductive Effect (α : Type*) where
  | silent
  | take (p : Packet α)
  | accept (p : Packet α)
  | reject (p : Packet α)
  | put (p : Packet α)

open Transport in
inductive TStep (s : Visitor α) (t : Transport α) : Effect α → Transport α → Prop
  -- registerActiveCloser, serialized with Close by sv.mu
  | register : t.main = .register → s.closing = .running →
      TStep s t .silent { t with main := t.afterRegister, registered := true, watching := true }
  | registerClosed : t.main = .register → s.closing = .closed → TStep s t .silent t.closeTransport.ret
  -- the packet handed over is sent before any worker starts
  | firstGen : t.main = .firstGen → t.genOk s → TStep s t .silent { t with main := .firstEpoch }
  | firstGenStale : t.main = .firstGen → ¬ t.genOk s → TStep s t .silent t.closeTransport.ret
  | firstEpoch : t.main = .firstEpoch → t.epochOk s → TStep s t .silent { t with main := .sendFirst }
  | firstEpochStale : t.main = .firstEpoch → ¬ t.epochOk s → TStep s t .silent t.closeTransport.ret
  | firstOk {p} : t.main = .sendFirst → t.pending = some p →
      TStep s t (.accept p) { t with main := .sentGen, pending := none }
  | firstTooLarge {p} : t.main = .sendFirst → t.pending = some p →
      TStep s t (.reject p) { t with main := .spawnReader, pending := none }
  | firstErr {p} : t.main = .sendFirst → t.pending = some p → TStep s t .silent t.closeTransport.ret
  | sentGen : t.main = .sentGen → t.genOk s → TStep s t .silent { t with main := .sentEpoch }
  | sentGenStale : t.main = .sentGen → ¬ t.genOk s → TStep s t .silent t.closeTransport.ret
  | sentEpoch : t.main = .sentEpoch → t.epochOk s → TStep s t .silent { t with main := .spawnReader }
  | sentEpochStale : t.main = .sentEpoch → ¬ t.epochOk s → TStep s t .silent t.closeTransport.ret
  | spawnReader : t.main = .spawnReader →
      TStep s t .silent { t with main := .spawnSender, reader := .loadGen }
  | spawnSender : t.main = .spawnSender →
      TStep s t .silent { t with main := .selecting, sender := .selecting }
  | wake : t.main = .selecting → t.stopReady s ∨ t.sender = .done →
      TStep s t .silent { t.closeTransport with main := .joinReader }
  | joinReader : t.main = .joinReader → t.reader = .done → TStep s t .silent { t with main := .joinSender }
  | joinSender : t.main = .joinSender → t.sender = .done →
      TStep s t .silent { t with pending := t.handoff }.ret
  -- the control goroutine, and the closers that Close runs
  | watch : t.watching = true → t.cancel = true ∨ t.ctxReady s →
      TStep s t .silent { t.closeTransport with watching := false }
  | closer : t.registered = true → s.closing = .closed → TStep s t .silent t.closeTransport
  -- the reader
  | rGen : t.reader = .loadGen → t.genOk s → TStep s t .silent { t with reader := .loadEpoch }
  | rGenStale : t.reader = .loadGen → ¬ t.genOk s → TStep s t .silent { t with reader := .done }
  | rEpoch : t.reader = .loadEpoch → t.epochOk s → TStep s t .silent { t with reader := .receiving }
  | rEpochStale : t.reader = .loadEpoch → ¬ t.epochOk s → TStep s t .silent { t with reader := .done }
  | receive {p} : t.reader = .receiving → TStep s t .silent { t with reader := .gotGen p }
  | receiveErr : t.reader = .receiving → TStep s t .silent { t with reader := .done }
  | gotGen {p} : t.reader = .gotGen p → t.genOk s → TStep s t .silent { t with reader := .gotEpoch p }
  | gotGenStale {p} : t.reader = .gotGen p → ¬ t.genOk s → TStep s t .silent { t with reader := .done }
  | gotEpoch {p} : t.reader = .gotEpoch p → t.epochOk s → TStep s t .silent { t with reader := .putting p }
  | gotEpochStale {p} : t.reader = .gotEpoch p → ¬ t.epochOk s → TStep s t .silent { t with reader := .done }
  | put {p} : t.reader = .putting p → s.readCh.length < chanCap →
      TStep s t (.put p) { t with reader := .loadGen }
  | putCtx {p} : t.reader = .putting p → t.ctxReady s → TStep s t .silent { t with reader := .loadGen }
  -- the sender
  | take {p rest} : t.sender = .selecting → s.sendCh = p :: rest →
      TStep s t (.take p) { t with sender := .recheck p }
  | stop : t.sender = .selecting → t.stopReady s → TStep s t .silent { t with sender := .done }
  | keep {p} : t.sender = .recheck p → t.stopReady s →
      TStep s t .silent { t with sender := .done, handoff := some p }
  | go {p} : t.sender = .recheck p → ¬ t.stopReady s → TStep s t .silent { t with sender := .loadGen p }
  | sGen {p} : t.sender = .loadGen p → t.genOk s → TStep s t .silent { t with sender := .loadEpoch p }
  | sGenStale {p} : t.sender = .loadGen p → ¬ t.genOk s →
      TStep s t .silent { t with sender := .done, handoff := some p }
  | sEpoch {p} : t.sender = .loadEpoch p → t.epochOk s → TStep s t .silent { t with sender := .sending p }
  | sEpochStale {p} : t.sender = .loadEpoch p → ¬ t.epochOk s →
      TStep s t .silent { t with sender := .done, handoff := some p }
  | sendOk {p} : t.sender = .sending p → TStep s t (.accept p) { t with sender := .sentGen }
  | sendTooLarge {p} : t.sender = .sending p → TStep s t (.reject p) { t with sender := .selecting }
  | sendErr {p} : t.sender = .sending p →
      TStep s t .silent { t with sender := .done, handoff := some p }
  | sSentGen : t.sender = .sentGen → t.genOk s → TStep s t .silent { t with sender := .sentEpoch }
  | sSentGenStale : t.sender = .sentGen → ¬ t.genOk s → TStep s t .silent { t with sender := .done }
  | sSentEpoch : t.sender = .sentEpoch → t.epochOk s → TStep s t .silent { t with sender := .selecting }
  | sSentEpochStale : t.sender = .sentEpoch → ¬ t.epochOk s → TStep s t .silent { t with sender := .done }

/-! ## `dialP2P` -/

inductive DialOut where
  | more (stage : DialStage)
  | failed
  | conn

def dialPhase (rec : Bool) (next : Phase) : Phase := if rec then .recovering else next

inductive DialStep (g : UInt64) (m : Machine) : DialStage → Machine → DialOut → Prop
  | snapshot : DialStep g m .snapshot m (.more (.prepare (m.snapshot.1 == .recovering)))
  | prepare {r} : g = m.generation →
      DialStep g m (.prepare r) (m.setPhaseForGeneration g (dialPhase r .natHolePrepare)).1 (.more (.punch r))
  | prepareStale {r} : g ≠ m.generation → DialStep g m (.prepare r) m .failed
  | preCheckErr {r} : DialStep g m (.punch r) m .failed
  | punch {r} : g = m.generation →
      DialStep g m (.punch r) (m.setPhaseForGeneration g (dialPhase r .punching)).1 (.more (.handshake r))
  | punchStale {r} : g ≠ m.generation → DialStep g m (.punch r) m .failed
  | makeHoleErr {r} : DialStep g m (.handshake r) m .failed
  | handshake {r} : g = m.generation →
      DialStep g m (.handshake r) (m.setPhaseForGeneration g (dialPhase r .quicHandshake)).1 (.more (.dial r))
  | handshakeStale {r} : g ≠ m.generation → DialStep g m (.handshake r) m .failed
  | dialErr {r} : DialStep g m (.dial r) m .failed
  | dialOk {r} : DialStep g m (.dial r) m .conn

/-! ## The visitor -/

inductive Event (α : Type*) where
  | enqueue (p : Packet α)
  | full
  | written
  | transport (k : Nat) (e : Effect α)
  | session
  | beginSession
  | beginTransport
  | close

namespace Visitor

def apply (s : Visitor α) : Effect α → Visitor α
  | .silent => s
  | .take _ => { s with sendCh := s.sendCh.tail }
  | .accept p => { s with accepted := s.accepted ++ [p] }
  | .reject p => { s with rejected := p :: s.rejected }
  | .put p => { s with readCh := s.readCh ++ [p] }

def setTransport (s : Visitor α) (k : Nat) (t : Transport α) : Visitor α :=
  { s with transports := s.transports.set k t }

def activate (s : Visitor α) (kind : Kind) (phase : Phase) (epoch : UInt64) (pend : Option (Packet α)) :
    Visitor α :=
  { s with
    machine := (s.machine.beginTransport s.generation phase).1
    published := s.published + 1
    transports := s.transports ++
      [{ kind := kind, generation := s.generation, epoch := epoch, published := s.published + 1,
         pending := pend }] }

def join (s : Visitor α) (k : Nat) (t : Transport α) : Visitor α :=
  s.setTransport k { t with main := .joined }

end Visitor

inductive Step : Visitor α → Event α → Visitor α → Prop
  -- ForwardUserConn: a datagram that finds sendCh full is dropped before it is enqueued
  | enqueue {s body} : s.sendCh.length < chanCap →
      Step s (.enqueue ⟨s.nextAddr, body⟩)
        { s with sendCh := s.sendCh ++ [⟨s.nextAddr, body⟩], enqueued := s.enqueued ++ [⟨s.nextAddr, body⟩],
                 nextAddr := s.nextAddr + 1 }
  | full {s} : chanCap ≤ s.sendCh.length → Step s .full s
  | written {s p rest} : s.readCh = p :: rest → Step s .written { s with readCh := rest }
  | transport {s k t e t'} : s.transports[k]? = some t → TStep s t e t' →
      Step s (.transport k e) ((s.apply e).setTransport k t')
  -- Close
  | closeStart {s} : s.closing = .running → Step s .close { s with closing := .cancelling }
  | closeCh {s} : s.closing = .cancelling → Step s .close { s with closing := .closed }
  -- dispatcher
  | first {s p rest} : s.session = .idle → s.sendCh = p :: rest →
      Step s .session { s with session := .begin p, sendCh := rest }
  | exit {s} : s.session = .idle → s.closing = .closed → Step s .session { s with session := .done }
  -- runSession
  | beginSession {s p} : s.session = .begin p →
      Step s .beginSession { s with
        session := .top (some p), machine := s.machine.beginSession.1, generation := s.machine.beginSession.2,
        published := s.published + 1 }
  | topClosed {s pend} : s.session = .top pend → s.closing = .closed → Step s .session { s with session := .idle }
  | topDial {s pend} : s.session = .top pend → s.closing ≠ .closed →
      Step s .session { s with session := .dialP2P pend .snapshot }
  | dialMore {s pend st m st'} : s.session = .dialP2P pend st →
      DialStep s.generation s.machine st m (.more st') →
      Step s .session { s with session := .dialP2P pend st', machine := m }
  | dialFailed {s pend st m} : s.session = .dialP2P pend st → DialStep s.generation s.machine st m .failed →
      Step s .session { s with session := .afterP2P pend, machine := m }
  | dialConn {s pend st m} : s.session = .dialP2P pend st → DialStep s.generation s.machine st m .conn →
      Step s .session { s with session := .activateP2P pend, machine := m }
  | activateP2P {s pend e} : s.session = .activateP2P pend →
      (s.machine.beginTransport s.generation .p2pReady).2 = some e →
      Step s .beginTransport { s.activate .p2p .p2pReady e pend with session := .runP2P s.transports.length }
  | staleP2P {s pend} : s.session = .activateP2P pend →
      (s.machine.beginTransport s.generation .p2pReady).2 = none →
      Step s .beginTransport { s with session := .idle }
  | p2pEnded {s k t} : s.session = .runP2P k → s.transports[k]? = some t → t.main = .returned →
      Step s .session { s.join k t with session := .afterP2P t.pending }
  | afterClosed {s pend} : s.session = .afterP2P pend → s.closing = .closed →
      Step s .session { s with session := .idle }
  | afterRelay {s pend} : s.session = .afterP2P pend → s.closing ≠ .closed →
      Step s .session { s with session := .dialRelay pend }
  -- dialRelay
  | relayPhase {s pend} : s.session = .dialRelay pend → s.generation = s.machine.generation →
      Step s .session { s with
        session := .relayConnect pend
        machine := (s.machine.setPhaseForGeneration s.generation .relayConnect).1 }
  | relayStale {s pend} : s.session = .dialRelay pend → s.generation ≠ s.machine.generation →
      Step s .session { s with session := .backoff pend }
  | relayErr {s pend} : s.session = .relayConnect pend → Step s .session { s with session := .backoff pend }
  | activateRelay {s pend e} : s.session = .relayConnect pend →
      (s.machine.beginTransport s.generation .relayReady).2 = some e →
      Step s .beginTransport
        { s.activate .relay .relayReady e pend with session := .relaySelect s.transports.length e }
  | staleRelay {s pend} : s.session = .relayConnect pend →
      (s.machine.beginTransport s.generation .relayReady).2 = none →
      Step s .beginTransport { s with session := .backoff pend }
  -- runRelayWithP2PRecovery
  | relayClosing {s k e t} : s.session = .relaySelect k e → s.closing = .closed → s.transports[k]? = some t →
      Step s .session { s.setTransport k { t with cancel := true } with session := .joinClosing k }
  | joinClosing {s k t} : s.session = .joinClosing k → s.transports[k]? = some t → t.main = .returned →
      Step s .session { s.join k t with session := .backoff t.pending }
  | relayEnded {s k e t} : s.session = .relaySelect k e → s.transports[k]? = some t → t.main = .returned →
      Step s .session { s.join k t with
        session := .backoff t.pending
        machine := (s.machine.setPhaseForTransport s.generation e .closed).1 }
  | probeReady {s k e} : s.session = .relaySelect k e →
      Step s .session { s with
        session := .probe k e .snapshot
        machine := (s.machine.setPhaseForGeneration s.generation .recovering).1 }
  | probeMore {s k e st m st'} : s.session = .probe k e st →
      DialStep s.generation s.machine st m (.more st') →
      Step s .session { s with session := .probe k e st', machine := m }
  | probeFailed {s k e st m} : s.session = .probe k e st → DialStep s.generation s.machine st m .failed →
      Step s .session { s with
        session := .relaySelect k e
        machine := (m.setPhaseForTransport s.generation e .relayReady).1 }
  | probeConn {s k e st m} : s.session = .probe k e st → DialStep s.generation s.machine st m .conn →
      Step s .session { s with session := .cancelRelay k, machine := m }
  | cancelRelay {s k t} : s.session = .cancelRelay k → s.transports[k]? = some t →
      Step s .session { s.setTransport k { t with cancel := true } with session := .joinRelay k }
  | joinRelay {s k t} : s.session = .joinRelay k → s.transports[k]? = some t → t.main = .returned →
      Step s .session { s.join k t with session := .activateRecovered t.pending }
  | recoveredClosed {s pend} : s.session = .activateRecovered pend → s.closing = .closed →
      Step s .session { s with session := .backoff pend }
  | activateRecovered {s pend e} : s.session = .activateRecovered pend → s.closing ≠ .closed →
      (s.machine.beginTransport s.generation .p2pReady).2 = some e →
      Step s .beginTransport
        { s.activate .p2p .p2pReady e pend with session := .runRecovered s.transports.length }
  | staleRecovered {s pend} : s.session = .activateRecovered pend → s.closing ≠ .closed →
      (s.machine.beginTransport s.generation .p2pReady).2 = none →
      Step s .beginTransport { s with session := .backoff pend }
  | recoveredEnded {s k t} : s.session = .runRecovered k → s.transports[k]? = some t → t.main = .returned →
      Step s .session { s.join k t with session := .top t.pending }
  | backoffClosed {s pend} : s.session = .backoff pend → s.closing = .closed →
      Step s .session { s with session := .idle }
  | backoffTimer {s pend} : s.session = .backoff pend → Step s .session { s with session := .top pend }

namespace Visitor

def Init (s : Visitor α) : Prop := s = {}

abbrev Reachable (s : Visitor α) : Prop := Reach Init Step s

/-! ## What is held -/

end Visitor

def SenderPc.held : SenderPc α → List (Packet α)
  | .recheck p | .loadGen p | .loadEpoch p | .sending p => [p]
  | _ => []

/-- The packet of a call of `runActiveTransport`: in its `pendingPacket`, in the
sender's hands or in `handoffPacket`. -/
def Transport.held (t : Transport α) : List (Packet α) :=
  match t.main with
  | .returned => t.pending.toList
  | .joined => []
  | _ => t.pending.toList ++ t.sender.held ++ t.handoff.toList

def SessionPc.held : SessionPc α → List (Packet α)
  | .begin p => [p]
  | .top pend | .dialP2P pend _ | .activateP2P pend | .afterP2P pend | .dialRelay pend | .relayConnect pend
  | .activateRecovered pend | .backoff pend => pend.toList
  | _ => []

/-- The packets taken out of `sendCh` and neither accepted nor rejected: the
dispatcher's `firstPkt` or `pendingPacket`, and those of the transports. -/
def Visitor.held (s : Visitor α) : List (Packet α) := s.session.held ++ s.transports.flatMap Transport.held

def Transport.readerLive (t : Transport α) : Prop := t.reader ≠ .off ∧ t.reader ≠ .done

def Transport.senderLive (t : Transport α) : Prop := t.sender ≠ .off ∧ t.sender ≠ .done

def Transport.live (t : Transport α) : Prop := t.readerLive ∨ t.senderLive

end Frp
