import Frp.Encoding
import Frp.Lts
import Mathlib.Logic.Function.Basic

/-!
# The bridge between two encodings of a SUDP or XUDP session

`joinSUDPMessageBridge` of `server/proxy/proxy.go`: a loop for each direction. When either
ends, both connections are closed. From then on, and once a peer is gone, a read may fail,
and a write after a part of its bytes.
-/

namespace Frp

inductive Dir
  | proxyToVisitor
  | visitorToProxy
  deriving DecidableEq

inductive BridgeError
  | codec (e : CodecError)
  | closed
  | reset
  | unexpectedMessage (t : PlainType)
  deriving DecidableEq

/-- `none` at the end of a stream and on a closed connection. -/
def normalizeSUDPBridgeError : BridgeError → Option BridgeError
  | .codec (.read .eof) => none
  | .codec (.v1 .eof) => none
  | .closed => none
  | e => some e

inductive Handling
  | write
  | drop
  | reject (e : BridgeError)
  deriving DecidableEq

section
variable [JSON]

def Dir.handle : Dir → Message → Handling
  | _, .udpPacket _ => .write
  | .proxyToVisitor, .plain .ping _ => .write
  | .visitorToProxy, .plain .ping _ => .drop
  | _, .plain t _ => .reject (.unexpectedMessage t)

def Message.contentLen : Message → Nat
  | .udpPacket p => p.content.length
  | .plain _ _ => 0

inductive LanePc
  | reading
  | handling (m : Message)
  | ended (err : Option BridgeError)
  | done (err : Option BridgeError)

structure Lane where
  input : Str
  output : Str
  count : Nat
  pc : LanePc

/-- `lost` is that a peer is gone. -/
structure Bridge where
  lane : Dir → Lane
  closing : Bool := false
  lost : Bool := false

def Bridge.down (s : Bridge) : Bool := s.closing || s.lost

structure Sides where
  proxy : Encoding
  visitor : Encoding

def Sides.src (c : Sides) : Dir → Encoding
  | .proxyToVisitor => c.proxy
  | .visitorToProxy => c.visitor

def Sides.dst (c : Sides) : Dir → Encoding
  | .proxyToVisitor => c.visitor
  | .visitorToProxy => c.proxy

def bridgeSides (proxyWireProtocol proxyUDPPacketCodec visitorWireProtocol visitorUDPPacketCodec : Str) :
    Except SelectError Sides := do
  let proxy ← newUDPPacketReadWriter proxyWireProtocol proxyUDPPacketCodec
  let visitor ← newUDPPacketReadWriter visitorWireProtocol visitorUDPPacketCodec
  return ⟨proxy, visitor⟩

def Bridge.init (streams : Dir → Str) : Bridge := { lane := fun d => ⟨streams d, [], 0, .reading⟩ }

def Bridge.returned (s : Bridge) : Prop := ∀ d, ∃ err, (s.lane d).pc = .done err

section
variable [V1Codec]

inductive LaneStep (src dst : Encoding) (d : Dir) : Bool → Lane → Lane → Prop
  | read {down l m rest} : l.pc = .reading → src.readMsg l.input = .ok (m, rest) →
      LaneStep src dst d down l { l with input := rest, pc := .handling m }
  | readError {down l e} : l.pc = .reading → src.readMsg l.input = .error e →
      LaneStep src dst d down l { l with pc := .ended (normalizeSUDPBridgeError (.codec e)) }
  | readFails {l} (e : BridgeError) : l.pc = .reading →
      LaneStep src dst d true l { l with pc := .ended (normalizeSUDPBridgeError e) }
  | write {down l m out} : l.pc = .handling m → d.handle m = .write → dst.writeMsg l.output m = (out, none) →
      LaneStep src dst d down l { l with output := out, count := l.count + m.contentLen, pc := .reading }
  | writeError {down l m out e} : l.pc = .handling m → d.handle m = .write →
      dst.writeMsg l.output m = (out, some e) →
      LaneStep src dst d down l { l with output := out, pc := .ended (normalizeSUDPBridgeError (.codec e)) }
  | writeFails {l m s} (e : BridgeError) (k : Nat) : l.pc = .handling m → d.handle m = .write →
      dst.writeMsg [] m = (s, none) → k = 0 ∨ k < s.length →
      LaneStep src dst d true l
        { l with output := l.output ++ s.take k, pc := .ended (normalizeSUDPBridgeError e) }
  | drop {down l m} : l.pc = .handling m → d.handle m = .drop →
      LaneStep src dst d down l { l with pc := .reading }
  | reject {down l m e} : l.pc = .handling m → d.handle m = .reject e →
      LaneStep src dst d down l { l with pc := .ended (some e) }

inductive BridgeStep (c : Sides) : Bridge → Dir → Bridge → Prop
  | lane {s d l} : LaneStep (c.src d) (c.dst d) d s.down (s.lane d) l →
      BridgeStep c s d { s with lane := Function.update s.lane d l }
  | lose {s d} : s.lost = false → BridgeStep c s d { s with lost := true }
  | closeBoth {s d err} : (s.lane d).pc = .ended err →
      BridgeStep c s d { s with lane := Function.update s.lane d { s.lane d with pc := .done err }, closing := true }

end

end

end Frp
