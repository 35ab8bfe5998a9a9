import Frp.Closers
import Frp.Lts
import Frp.UdpBinary
import Mathlib.Logic.Function.Basic

/-!
# The managed forwarder

`managedForwarder` of `pkg/proto/udp/udp.go`: the dispatcher, the reader of each connection,
and the watcher that waits for the context. What is done under `mu` is one step, and so is a
call of `entry.close`.
-/

namespace Frp

/-- What `managedForwarder` is called with. `string` is `UDPAddr.String`, and
`buildProxyProtocolHeader` has no value where the function returns an error. -/
structure ForwarderConfig where
  dstAddr : UDPAddr
  bufSize : Nat
  proxyProtocolVersion : Str
  string : UDPAddr → Str
  buildProxyProtocolHeader : UDPAddr → UDPAddr → Str → Option Str

/-- The buffer that is written for a packet; `ok` says that the connection was in the map. -/
def ForwarderConfig.finalBuf (cfg : ForwarderConfig) (ok : Bool) (raddr : UDPAddr) (buf : Str) : Str :=
  if ok = false ∧ cfg.proxyProtocolVersion ≠ [] then
    match cfg.buildProxyProtocolHeader raddr cfg.dstAddr cfg.proxyProtocolVersion with
    | some ppBuf => ppBuf ++ buf
    | none => buf
  else buf

/-! ## State -/

/-- The reader of a connection; `absent` until the connection is put into the map. -/
inductive ForwardReaderPc
  | absent
  | reading
  | sending (content : Str)
  | checking
  | removing
  | closing
  | leaving
  | exited

namespace ForwardReaderPc

def serving : ForwardReaderPc → Bool
  | reading | sending _ | checking => true
  | _ => false

def listed : ForwardReaderPc → Bool
  | removing => true
  | r => r.serving

def live : ForwardReaderPc → Bool
  | absent | exited => false
  | _ => true

def past : ForwardReaderPc → Bool
  | leaving | exited => true
  | _ => false

end ForwardReaderPc

structure ForwardWrite where
  raddr : UDPAddr
  content : Str
  buf : Str

structure ManagedConn where
  raddr : UDPAddr
  closeOnce : Bool := false
  closes : Nat := 0
  reader : ForwardReaderPc := .absent
  writes : List ForwardWrite := []

def ManagedConn.close (m : ManagedConn) : ManagedConn :=
  { m with closeOnce := true, closes := if m.closeOnce then m.closes else m.closes + 1 }

/-- From `took` on the dispatcher has a packet, `raddr` and `buf`; from `dialled` on a connection.
`checking` is before the `select` that precedes `Write`. -/
inductive ForwardDispatchPc
  | selecting
  | took (raddr : UDPAddr) (buf : Str)
  | dialling (raddr : UDPAddr) (buf : Str)
  | dialled (raddr : UDPAddr) (buf : Str) (c : Nat)
  | late (c : Nat)
  | checking (raddr : UDPAddr) (buf : Str) (c : Nat) (ok : Bool)
  | writing (raddr : UDPAddr) (c : Nat)
  | removing (raddr : UDPAddr) (c : Nat)
  | closing (raddr : UDPAddr) (c : Nat)
  | returning
  | closingAll
  | waiting
  | joining
  | returned

inductive ForwardWatcherPc
  | waiting
  | closingAll
  | done

inductive ForwardCloser
  | dispatcher
  | watcher

structure ManagedForwarder where
  readCh : List (Option UDPPacket) := []
  readClosed : Bool := false
  sendCh : List UDPPacket := []
  cancelled : Bool := false
  conns : List ManagedConn := []
  udpConnMap : Str → Option Nat := fun _ => none
  stopped : Bool := false
  readerGroup : Nat := 0
  closeAll : StopPhase ForwardCloser Nat := .going
  dispatcher : ForwardDispatchPc := .selecting
  watcher : ForwardWatcherPc := .waiting

/-! ## Steps -/

inductive ForwardEvent
  | caller
  | dispatcher
  | reader (c : Nat)
  | watcher

namespace ManagedForwarder

def halts (s : ManagedForwarder) : Prop := s.stopped = true ∨ s.cancelled = true

def setConn (s : ManagedForwarder) (c : Nat) (m : ManagedConn) : ManagedForwarder := { s with conns := s.conns.set c m }

def removeManagedConn (s : ManagedForwarder) (key : Str) (entry : Nat) : ManagedForwarder :=
  { s with
    udpConnMap := if s.udpConnMap key = some entry then Function.update s.udpConnMap key none else s.udpConnMap }

def calls (s : ManagedForwarder) : ForwardCloser → Prop
  | .dispatcher => s.dispatcher = .closingAll
  | .watcher => s.watcher = .closingAll

end ManagedForwarder

def ForwardCloser.event : ForwardCloser → ForwardEvent
  | .dispatcher => .dispatcher
  | .watcher => .watcher

inductive DispatchMove (cfg : ForwarderConfig) (s : ManagedForwarder) : ForwardDispatchPc → ForwardDispatchPc → Prop
  | cancelled : s.cancelled = true → DispatchMove cfg s .selecting .returning
  | readClosed : s.readCh = [] → s.readClosed = true → DispatchMove cfg s .selecting .returning
  | halted {raddr buf} : s.halts → DispatchMove cfg s (.took raddr buf) .returning
  | found {raddr buf c} : ¬ s.halts → s.udpConnMap (cfg.string raddr) = some c →
      DispatchMove cfg s (.took raddr buf) (.checking raddr buf c true)
  | absent {raddr buf} : ¬ s.halts → s.udpConnMap (cfg.string raddr) = none →
      DispatchMove cfg s (.took raddr buf) (.dialling raddr buf)
  | dialFails {raddr buf} : DispatchMove cfg s (.dialling raddr buf) .selecting
  | late {raddr buf c} : s.halts → DispatchMove cfg s (.dialled raddr buf c) (.late c)
  | checkDone {raddr buf c ok} : s.cancelled = true → DispatchMove cfg s (.checking raddr buf c ok) .returning
  | wrote {raddr c m} : s.conns[c]? = some m → m.closes = 0 → DispatchMove cfg s (.writing raddr c) .selecting
  | writeFails {raddr c} : DispatchMove cfg s (.writing raddr c) (.removing raddr c)
  -- closeOnce.Do returns when the first call has
  | closedAll : s.closeAll = .stopped → DispatchMove cfg s .closingAll .waiting
  | wait : s.readerGroup = 0 → DispatchMove cfg s .waiting .joining
  | join : s.watcher = .done → DispatchMove cfg s .joining .returned

inductive ReaderMove (cfg : ForwarderConfig) (s : ManagedForwarder) (m : ManagedConn) :
    ForwardReaderPc → ForwardReaderPc → Prop
  | read {content} : m.closes = 0 → content.length ≤ cfg.bufSize → ReaderMove cfg s m .reading (.sending content)
  | readFails : ReaderMove cfg s m .reading .removing
  -- sendCh is full, or the context is done
  | drop {content} : ReaderMove cfg s m (.sending content) .checking
  -- sendCh is closed
  | sendPanics {content} : ReaderMove cfg s m (.sending content) .removing
  | again : s.cancelled = false → ReaderMove cfg s m .checking .reading
  | cancelled : s.cancelled = true → ReaderMove cfg s m .checking .removing

inductive ManagedStep (cfg : ForwarderConfig) : ManagedForwarder → ForwardEvent → ManagedForwarder → Prop
  | enqueue {s} (p : Option UDPPacket) : s.readClosed = false →
      ManagedStep cfg s .caller { s with readCh := s.readCh ++ [p] }
  | closeReadCh {s} : ManagedStep cfg s .caller { s with readClosed := true }
  | cancelParent {s} : ManagedStep cfg s .caller { s with cancelled := true }
  -- dispatcher
  | move {s d} : DispatchMove cfg s s.dispatcher d → ManagedStep cfg s .dispatcher { s with dispatcher := d }
  | skip {s p rest} : s.dispatcher = .selecting → s.readCh = p :: rest → p.bind UDPPacket.remoteAddr = none →
      ManagedStep cfg s .dispatcher { s with readCh := rest }
  | take {s p raddr rest} : s.dispatcher = .selecting → s.readCh = some p :: rest → p.remoteAddr = some raddr →
      ManagedStep cfg s .dispatcher { s with readCh := rest, dispatcher := .took raddr p.content }
  | dial {s raddr buf} : s.dispatcher = .dialling raddr buf →
      ManagedStep cfg s .dispatcher
        { s with conns := s.conns ++ [{ raddr }], dispatcher := .dialled raddr buf s.conns.length }
  | install {s raddr buf c m} : s.dispatcher = .dialled raddr buf c → ¬ s.halts → s.conns[c]? = some m →
      ManagedStep cfg s .dispatcher
        { s.setConn c { m with reader := .reading } with
          udpConnMap := Function.update s.udpConnMap (cfg.string raddr) (some c)
          readerGroup := s.readerGroup + 1
          dispatcher := .checking raddr buf c false }
  | closeLate {s c m} : s.dispatcher = .late c → s.conns[c]? = some m →
      ManagedStep cfg s .dispatcher { s.setConn c { m with closes := m.closes + 1 } with dispatcher := .returning }
  | write {s raddr buf c ok m} : s.dispatcher = .checking raddr buf c ok → s.cancelled = false →
      s.conns[c]? = some m →
      ManagedStep cfg s .dispatcher
        { s.setConn c { m with writes := m.writes ++ [⟨raddr, buf, cfg.finalBuf ok raddr buf⟩] } with
          dispatcher := .writing raddr c }
  | remove {s raddr c} : s.dispatcher = .removing raddr c →
      ManagedStep cfg s .dispatcher { s.removeManagedConn (cfg.string raddr) c with dispatcher := .closing raddr c }
  | close {s raddr c m} : s.dispatcher = .closing raddr c → s.conns[c]? = some m →
      ManagedStep cfg s .dispatcher { s.setConn c m.close with dispatcher := .selecting }
  | cancel {s} : s.dispatcher = .returning →
      ManagedStep cfg s .dispatcher { s with cancelled := true, dispatcher := .closingAll }
  -- closeAll; the map is read in any order
  | closeBegin {s} (t : ForwardCloser) (entries : List Nat) : s.calls t → s.closeAll = .going →
      (∀ c, c ∈ entries ↔ ∃ k, s.udpConnMap k = some c) →
      ManagedStep cfg s t.event { s with stopped := true, closeAll := .running t entries }
  | closeNext {s t c entries m} : s.closeAll = .running t (c :: entries) → s.conns[c]? = some m →
      ManagedStep cfg s t.event { s.setConn c m.close with closeAll := .running t entries }
  | closeEnd {s t} : s.closeAll = .running t [] → ManagedStep cfg s t.event { s with closeAll := .stopped }
  -- the reader of connection c
  | reader {s c m r} : s.conns[c]? = some m → ReaderMove cfg s m m.reader r →
      ManagedStep cfg s (.reader c) (s.setConn c { m with reader := r })
  | send {s c m content} : s.conns[c]? = some m → m.reader = .sending content →
      ManagedStep cfg s (.reader c)
        { s.setConn c { m with reader := .checking } with sendCh := s.sendCh ++ [⟨content, none, some m.raddr⟩] }
  | readerRemove {s c m} : s.conns[c]? = some m → m.reader = .removing →
      ManagedStep cfg s (.reader c)
        ((s.removeManagedConn (cfg.string m.raddr) c).setConn c { m with reader := .closing })
  | readerClose {s c m} : s.conns[c]? = some m → m.reader = .closing →
      ManagedStep cfg s (.reader c) (s.setConn c { m.close with reader := .leaving })
  | readerExit {s c m} : s.conns[c]? = some m → m.reader = .leaving →
      ManagedStep cfg s (.reader c)
        { s.setConn c { m with reader := .exited } with readerGroup := s.readerGroup - 1 }
  -- watcher
  | watch {s} : s.watcher = .waiting → s.cancelled = true →
      ManagedStep cfg s .watcher { s with watcher := .closingAll }
  | watched {s} : s.watcher = .closingAll → s.closeAll = .stopped →
      ManagedStep cfg s .watcher { s with watcher := .done }

def ManagedForwarder.Reachable (cfg : ForwarderConfig) : ManagedForwarder → Prop := Reach (· = {}) (ManagedStep cfg)

end Frp
