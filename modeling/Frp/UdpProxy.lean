import Frp.Fair
import Frp.WorkStream
import Mathlib.Logic.Function.Basic

/-!
# The UDP proxy of the server

`UDPProxy.Run` and `UDPProxy.Close` of `server/proxy/udp.go`: the dispatcher, the reader and
the sender of the current work connection, the goroutine that reads from users, and the
shutdown. Packets are numbers.
-/

namespace Frp

/-- `wrapped` has built the stream, `replaced` has stored it in `pxy.workConn` in place of `old`;
`shuttingDown` when the select after the start of the workers saw `doneCh`. -/
inductive UDPDispatcherPc
  | sleeping
  | top
  | requesting
  | retrying
  | building
  | wrapped
  | replaced (old : Option Nat)
  | starting
  | selecting
  | cancelling (shuttingDown : Bool)
  | closing (shuttingDown : Bool)
  | joining (shuttingDown : Bool)
  | exited
  deriving DecidableEq

/-- `closing` after a read error, `leaving` after a packet that could not be delivered. -/
inductive UDPReaderPc
  | reading
  | delivering (packet : Nat)
  | closing
  | notifying
  | leaving
  | exited
  deriving DecidableEq

inductive UDPSenderPc
  | picking
  | checking (packet : Nat)
  | writing (packet : Nat)
  | closing (packet : Nat)
  | exited (result : Option Nat)
  deriving DecidableEq

inductive ShutdownPc
  | none
  | begun (workConn : Option Nat)
  | connClosed
  | finished
  deriving DecidableEq

structure UDPWorld where
  done : Bool
  workConn : Option Nat
  udpOpen : Bool
  sendCh : List Nat
  readCh : List Nat
  reconnectCh : Bool
  streams : Nat → StreamHeap
  gen : Nat
  next : Nat
  ctxDone : Bool
  pendingPacket : Option Nat
  written : List Nat
  disp : UDPDispatcherPc
  reader : UDPReaderPc
  sender : UDPSenderPc
  forwarding : Bool
  shutdown : ShutdownPc

namespace UDPWorld

def init : UDPWorld where
  done := false
  workConn := none
  udpOpen := true
  sendCh := []
  readCh := []
  reconnectCh := false
  streams _ := StreamHeap.pooled
  gen := 0
  next := 0
  ctxDone := false
  pendingPacket := none
  written := []
  disp := .sleeping
  reader := .exited
  sender := .exited none
  forwarding := true
  shutdown := .none

def connClosed (s : UDPWorld) (g : Nat) : Bool := 0 < (s.streams g).closes

def closeStream (s : UDPWorld) (g : Nat) : UDPWorld :=
  { s with streams := Function.update s.streams g (s.streams g).closeTop }

def closeStored (s : UDPWorld) : Option Nat → UDPWorld
  | some g => s.closeStream g
  | none => s

end UDPWorld

def udpChannelCap : Nat := 1024

inductive UDPEvent
  | dispatcher
  | reader
  | sender
  | network
  | user
  | shutdown
  deriving DecidableEq

inductive UDPStep (t : TransportConfig) : UDPWorld → UDPEvent → UDPWorld → Prop
  -- the dispatcher; its timers and the pool of work connections are part of the network
  | slept {s} : s.disp = .sleeping → UDPStep t s .network { s with disp := .top }
  | sleepDone {s} : s.disp = .sleeping → s.done = true → UDPStep t s .dispatcher { s with disp := .exited }
  | topDone {s} : s.disp = .top → s.done = true → UDPStep t s .dispatcher { s with disp := .exited }
  | request {s} : s.disp = .top → s.done = false → UDPStep t s .dispatcher { s with disp := .requesting }
  | requestDone {s} : s.disp = .requesting → s.done = true → UDPStep t s .dispatcher { s with disp := .exited }
  | requestFailed {s} : s.disp = .requesting → s.done = false → UDPStep t s .network { s with disp := .retrying }
  | requestGot {s} : s.disp = .requesting → s.done = false → UDPStep t s .network { s with disp := .building }
  | retried {s} : s.disp = .retrying → UDPStep t s .network { s with disp := .top }
  | retryDone {s} : s.disp = .retrying → s.done = true → UDPStep t s .dispatcher { s with disp := .exited }
  | encryptionError {s} : s.disp = .building → t.useEncryption = true →
      UDPStep t s .dispatcher { s with disp := .top }
  | build {s} : s.disp = .building →
      UDPStep t s .dispatcher
        { s with
          streams := Function.update s.streams s.next (udpPayloadConn t), gen := s.next, next := s.next + 1
          disp := .wrapped }
  | codecError {s} : s.disp = .wrapped → UDPStep t s .dispatcher { s.closeStream s.gen with disp := .top }
  | replaceClosed {s} : s.disp = .wrapped → s.done = true →
      UDPStep t s .dispatcher { s.closeStream s.gen with disp := .exited }
  | replace {s} : s.disp = .wrapped → s.done = false →
      UDPStep t s .dispatcher { s with workConn := some s.gen, disp := .replaced s.workConn }
  | closeOld {s old} : s.disp = .replaced old →
      UDPStep t s .dispatcher { s.closeStored old with disp := .starting }
  | start {s} : s.disp = .starting →
      UDPStep t s .dispatcher
        { s with
          ctxDone := false, pendingPacket := none, reader := .reading
          sender := match s.pendingPacket with
            | some packet => .checking packet
            | none => .picking
          disp := .selecting }
  | reconnect {s} : s.disp = .selecting → s.reconnectCh = true →
      UDPStep t s .dispatcher { s with reconnectCh := false, disp := .cancelling false }
  | selectDone {s} : s.disp = .selecting → s.done = true →
      UDPStep t s .dispatcher { s with disp := .cancelling true }
  | cancel {s shuttingDown} : s.disp = .cancelling shuttingDown →
      UDPStep t s .dispatcher { s with ctxDone := true, disp := .closing shuttingDown }
  | closeConn {s shuttingDown} : s.disp = .closing shuttingDown →
      UDPStep t s .dispatcher { s.closeStream s.gen with disp := .joining shuttingDown }
  | join {s shuttingDown result} : s.disp = .joining shuttingDown → s.reader = .exited → s.sender = .exited result →
      UDPStep t s .dispatcher
        { s with pendingPacket := result, disp := if shuttingDown then .exited else .top }
  -- the reader
  | ping {s} : s.reader = .reading → s.connClosed s.gen = false → UDPStep t s .network s
  | receive {s} (packet : Nat) : s.reader = .reading → s.connClosed s.gen = false →
      UDPStep t s .network { s with reader := .delivering packet }
  | readError {s} : s.reader = .reading → s.connClosed s.gen = false →
      UDPStep t s .network { s with reader := .closing }
  | readClosed {s} : s.reader = .reading → s.connClosed s.gen = true →
      UDPStep t s .reader { s with reader := .closing }
  | deliver {s packet} : s.reader = .delivering packet → s.readCh.length < udpChannelCap →
      UDPStep t s .reader { s with readCh := s.readCh ++ [packet], reader := .reading }
  | deliverDone {s packet} : s.reader = .delivering packet → s.done = true →
      UDPStep t s .reader { s with reader := .leaving }
  | leave {s} : s.reader = .leaving → UDPStep t s .reader { s.closeStream s.gen with reader := .exited }
  | readerClose {s} : s.reader = .closing → UDPStep t s .reader { s.closeStream s.gen with reader := .notifying }
  | notify {s} : s.reader = .notifying → s.reconnectCh = false →
      UDPStep t s .reader { s with reconnectCh := true, reader := .exited }
  | notifyDone {s} : s.reader = .notifying → s.done = true → UDPStep t s .reader { s with reader := .exited }
  -- the sender
  | pick {s packet rest} : s.sender = .picking → s.sendCh = packet :: rest →
      UDPStep t s .sender { s with sendCh := rest, sender := .checking packet }
  | pickDone {s} : s.sender = .picking → s.ctxDone = true ∨ s.done = true →
      UDPStep t s .sender { s with sender := .exited none }
  | checkDone {s packet} : s.sender = .checking packet → s.ctxDone = true ∨ s.done = true →
      UDPStep t s .sender { s with sender := .exited (some packet) }
  | check {s packet} : s.sender = .checking packet → s.ctxDone = false → s.done = false →
      UDPStep t s .sender { s with sender := .writing packet }
  | write {s packet} : s.sender = .writing packet → s.connClosed s.gen = false →
      UDPStep t s .network { s with written := s.written ++ [packet], sender := .picking }
  | writeError {s packet} : s.sender = .writing packet → s.connClosed s.gen = false →
      UDPStep t s .network { s with sender := .closing packet }
  | writeClosed {s packet} : s.sender = .writing packet → s.connClosed s.gen = true →
      UDPStep t s .sender { s with sender := .closing packet }
  | senderClose {s packet} : s.sender = .closing packet →
      UDPStep t s .sender { s.closeStream s.gen with sender := .exited (some packet) }
  -- users
  | enqueue {s} (packet : Nat) : s.forwarding = true → s.udpOpen = true → s.sendCh.length < udpChannelCap →
      UDPStep t s .user { s with sendCh := s.sendCh ++ [packet] }
  | respond {s packet rest} : s.forwarding = true → s.readCh = packet :: rest →
      UDPStep t s .user { s with readCh := rest }
  | forwardEnds {s} : s.forwarding = true → UDPStep t s .user { s with forwarding := false, udpOpen := false }
  -- `initiateShutdown`, called from any `Close`
  | shutdown {s} : s.shutdown = .none →
      UDPStep t s .shutdown { s with done := true, shutdown := .begun s.workConn, workConn := none }
  | shutdownConn {s workConn} : s.shutdown = .begun workConn →
      UDPStep t s .shutdown { s.closeStored workConn with shutdown := .connClosed }
  | shutdownUDP {s} : s.shutdown = .connClosed →
      UDPStep t s .shutdown { s with udpOpen := false, shutdown := .finished }

end Frp
