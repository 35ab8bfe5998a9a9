import Frp.Stream
import Frp.UdpBinary

/-!
# Frames and messages of wire protocol v2

`pkg/proto/wire/wire.go` for frames, `pkg/msg/wire_v2.go` for messages in them and the
binary reader and writer of `pkg/msg/udp_binary.go`. Writes to a stream are complete.
-/

namespace Frp

inductive PlainType
  | login
  | loginResp
  | newProxy
  | newProxyResp
  | closeProxy
  | newWorkConn
  | reqWorkConn
  | startWorkConn
  | newVisitorConn
  | newVisitorConnResp
  | ping
  | pong
  | natHoleVisitor
  | natHoleClient
  | natHoleResp
  | natHoleSid
  | natHoleReport
  deriving DecidableEq

class JSON where
  Body : PlainType → Type
  marshal : (t : PlainType) → Body t → Option Str
  unmarshal : (t : PlainType) → Str → Option (Body t)
  marshalUDP : UDPPacket → Option Str
  unmarshalUDP : Str → Option UDPPacket

inductive Message [JSON]
  | udpPacket (p : UDPPacket)
  | plain (t : PlainType) (b : JSON.Body t)

/-! ## Frames -/

def frameTypeMessage : UInt16 := 16

structure Frame where
  type : UInt16
  flags : UInt16
  payload : Str

inductive ReadError
  | eof
  | unexpectedEOF
  | frameFlags (flags : UInt16)
  | frameLimit (length : Nat)
  | frameType (type : UInt16)
  | payloadTooShort
  | unknownType (typeID : UInt16)
  | unmarshal
  | jsonAfterBinary
  | unexpectedType (typeID : UInt16)
  | udp (e : Fault UDPError)
  deriving DecidableEq

inductive WriteError
  | frameFlags (flags : UInt16)
  | frameLimit (length : Nat)
  | nilMessage
  | unknownType
  | marshal
  | udp (e : Fault UDPError)
  deriving DecidableEq

def readFull (s : Str) (n : Nat) : Except ReadError (Str × Str) :=
  if n = 0 then .ok ([], s)
  else if s = [] then .error .eof
  else if s.length < n then .error .unexpectedEOF
  else .ok (s.take n, s.drop n)

def uint16 (b : Str) : UInt16 := UInt16.ofNat (beNat b)

def readFrame (s : Str) : Except ReadError (Frame × Str) := do
  let (header, s) ← readFull s 8
  let frameType := uint16 (header.take 2)
  let flags := uint16 ((header.drop 2).take 2)
  let length := beNat ((header.drop 4).take 4)
  if flags ≠ 0 then .error (.frameFlags flags)
  else if length > defaultMaxFramePayloadSize then .error (.frameLimit length)
  else do
    let (payload, s) ← readFull s length
    return (⟨frameType, flags, payload⟩, s)

def writeFrame (out : Str) (f : Frame) : Str × Option WriteError :=
  if f.flags ≠ 0 then (out, some (.frameFlags f.flags))
  else if f.payload.length > defaultMaxFramePayloadSize then (out, some (.frameLimit f.payload.length))
  else
    let header := beBytes 2 f.type.toNat ++ beBytes 2 f.flags.toNat ++ beBytes 4 f.payload.length
    let out := out ++ header
    (out ++ f.payload, none)

/-! ## Message types -/

def PlainType.v2TypeID : PlainType → UInt16
  | login => 1
  | loginResp => 2
  | newProxy => 3
  | newProxyResp => 4
  | closeProxy => 5
  | newWorkConn => 6
  | reqWorkConn => 7
  | startWorkConn => 8
  | newVisitorConn => 9
  | newVisitorConnResp => 10
  | ping => 11
  | pong => 12
  | natHoleVisitor => 14
  | natHoleClient => 15
  | natHoleResp => 16
  | natHoleSid => 17
  | natHoleReport => 18

def v2TypeUDPPacket : UInt16 := 13
def v2TypeUDPPacketBinary : UInt16 := 19

def PlainType.all : List PlainType :=
  [login, loginResp, newProxy, newProxyResp, closeProxy, newWorkConn, reqWorkConn, startWorkConn,
    newVisitorConn, newVisitorConnResp, ping, pong, natHoleVisitor, natHoleClient, natHoleResp, natHoleSid,
    natHoleReport]

/-- `v2MsgReflectTypeMap` without `UDPPacket`. -/
def plainTypeOf (typeID : UInt16) : Option PlainType := PlainType.all.find? fun t => t.v2TypeID = typeID

section
variable [JSON]

/-! ## Messages in frames -/

def messageFrame (typeID : UInt16) (content : Str) : Frame :=
  ⟨frameTypeMessage, 0, beBytes 2 typeID.toNat ++ content⟩

def encodeV2MessageFrame : Message → Except WriteError Frame
  | .udpPacket p =>
    match JSON.marshalUDP p with
    | none => .error .marshal
    | some content => .ok (messageFrame v2TypeUDPPacket content)
  | .plain t b =>
    match JSON.marshal t b with
    | none => .error .marshal
    | some content => .ok (messageFrame t.v2TypeID content)

def decodeV2MessageFrame (f : Frame) : Except ReadError Message :=
  if f.type ≠ frameTypeMessage then .error (.frameType f.type)
  else if f.payload.length < 2 then .error .payloadTooShort
  else
    let typeID := uint16 (f.payload.take 2)
    if typeID = v2TypeUDPPacket then
      match JSON.unmarshalUDP (f.payload.drop 2) with
      | none => .error .unmarshal
      | some p => .ok (.udpPacket p)
    else
      match plainTypeOf typeID with
      | none => .error (.unknownType typeID)
      | some t =>
        match JSON.unmarshal t (f.payload.drop 2) with
        | none => .error .unmarshal
        | some b => .ok (.plain t b)

def isV2MessageType (f : Frame) (typeID : UInt16) : Bool :=
  f.type = frameTypeMessage ∧ f.payload.length ≥ 2 ∧ uint16 (f.payload.take 2) = typeID

def decodeV2BinaryUDPPacketFrame (f : Frame) : Except ReadError Message :=
  if f.type ≠ frameTypeMessage then .error (.frameType f.type)
  else if f.payload.length < 2 then .error .payloadTooShort
  else if uint16 (f.payload.take 2) ≠ v2TypeUDPPacketBinary then
    .error (if uint16 (f.payload.take 2) = v2TypeUDPPacket then .jsonAfterBinary
      else .unexpectedType (uint16 (f.payload.take 2)))
  else
    match decodeUDPPacketBinary (f.payload.drop 2) with
    | .error e => .error (.udp e)
    | .ok p => .ok (.udpPacket p)

/-! ## Readers and writers -/

namespace V2ReadWriter

def readMsg (s : Str) : Except ReadError (Message × Str) := do
  let (f, s) ← readFrame s
  let m ← decodeV2MessageFrame f
  return (m, s)

def writeMsg (out : Str) (m : Message) : Str × Option WriteError :=
  match encodeV2MessageFrame m with
  | .error e => (out, some e)
  | .ok f => writeFrame out f

end V2ReadWriter

/-- What a caller can hand to `WriteMsg`: a message, a nil packet pointer, a nil interface or a
value of a type that is not registered. -/
inductive Outgoing
  | nil
  | nilUDPPacket
  | unregistered
  | msg (m : Message)

namespace V2BinaryUDPPacketReadWriter

def decodeFrame (f : Frame) : Except ReadError Message :=
  if isV2MessageType f v2TypeUDPPacketBinary then decodeV2BinaryUDPPacketFrame f
  else if isV2MessageType f v2TypeUDPPacket then .error .jsonAfterBinary
  else decodeV2MessageFrame f

def readMsg (s : Str) : Except ReadError (Message × Str) := do
  let (f, s) ← readFrame s
  let m ← decodeFrame f
  return (m, s)

def writePacket (out : Str) (packet : Option UDPPacket) : Str × Option WriteError :=
  match encodeUDPPacketBinary packet with
  | .error e => (out, some (.udp e))
  | .ok body => writeFrame out (messageFrame v2TypeUDPPacketBinary body)

def writeMsg (out : Str) : Outgoing → Str × Option WriteError
  | .nil => (out, some .nilMessage)
  | .nilUDPPacket => writePacket out none
  | .unregistered => (out, some .unknownType)
  | .msg (.udpPacket p) => writePacket out (some p)
  | .msg (.plain t b) => V2ReadWriter.writeMsg out (.plain t b)

end V2BinaryUDPPacketReadWriter

end

end Frp
