import Frp.Buffer
import Frp.Utf8

/-!
# The binary body of a UDP packet message

`pkg/msg/udp_binary.go`, encoder and decoder, with what they use of `net`. A slice has its length
for capacity, so an access is in range here only if it is within the length.
-/

namespace Frp

/-! ## Addresses of the standard library -/

def ipv4len : Nat := 4
def ipv6len : Nat := 16

def v4InV6Prefix : Str := List.replicate 10 0 ++ [0xff, 0xff]

def to4 (ip : Str) : Option Str :=
  if ip.length = ipv4len then some ip
  else if ip.length = ipv6len ∧ ip.take 12 = v4InV6Prefix then some (ip.drop 12)
  else none

def to16 (ip : Str) : Option Str :=
  if ip.length = ipv4len then some (v4InV6Prefix ++ ip)
  else if ip.length = ipv6len then some ip
  else none

structure UDPAddr where
  ip : Str
  port : Int
  zone : Str
  deriving DecidableEq

structure UDPPacket where
  content : Str
  localAddr : Option UDPAddr
  remoteAddr : Option UDPAddr
  deriving DecidableEq

/-! ## Constants and errors -/

def maxUDPPayloadSize : Nat := 65507
def defaultMaxFramePayloadSize : Nat := 64 * 1024

def udpPacketFlagLocalAddr : UInt8 := 1
def udpPacketFlagRemoteAddr : UInt8 := 2
def udpPacketValidFlags : UInt8 := udpPacketFlagLocalAddr ||| udpPacketFlagRemoteAddr

inductive AddrError
  | portOutOfRange (port : Int)
  | ipv4Zone
  | invalidIP
  | zoneTooLong
  | zoneNotUTF8
  | truncatedFamily
  | unknownFamily (family : UInt8)
  | truncatedAddress
  | truncatedZone
  deriving DecidableEq

inductive UDPError
  | nilPacket
  | missingRemoteAddr
  | payloadLimit (payloadLen : Nat)
  | localAddr (e : AddrError)
  | remoteAddr (e : AddrError)
  | frameLimit (payloadLen : Nat)
  | bodyTooShort (bodyLen : Nat)
  | reservedFlags (flags : UInt8)
  | truncatedPayloadLength
  | truncatedPayload (remaining want : Int)
  | trailingBytes (n : Int)
  deriving DecidableEq

/-! ## Encoder -/

structure BinaryUDPAddr where
  family : UInt8
  ip : Str
  port : UInt16
  zone : Str

instance : Inhabited BinaryUDPAddr := ⟨⟨0, [], 0, []⟩⟩

def validateBinaryUDPAddr (addr : UDPAddr) : Checked AddrError BinaryUDPAddr :=
  if addr.port < 0 ∨ addr.port > 65535 then .fail (.portOutOfRange addr.port)
  else
    match to4 addr.ip with
    | some ip =>
      if addr.zone ≠ [] then .fail .ipv4Zone
      else .ok { family := 4, ip, port := UInt16.ofNat addr.port.toNat, zone := [] }
    | none =>
      match to16 addr.ip with
      | none => .fail .invalidIP
      | some ip =>
        if addr.zone.length > 255 then .fail .zoneTooLong
        else if !addr.zone.validUTF8 then .fail .zoneNotUTF8
        else .ok { family := 6, ip, port := UInt16.ofNat addr.port.toNat, zone := addr.zone }

def binaryUDPAddrLen (addr : BinaryUDPAddr) : Nat := 1 + addr.ip.length + 2 + 1 + addr.zone.length

def putBinaryUDPAddr (body : Str) (offset : Nat) (addr : BinaryUDPAddr) : Checked UDPError (Str × Nat) := do
  let body ← Buffer.set body offset addr.family
  let offset := offset + 1
  let body ← Buffer.copyAt body offset addr.ip
  let offset := offset + addr.ip.length
  let body ← Buffer.putUint 2 body offset addr.port.toNat
  let offset := offset + 2
  let body ← Buffer.set body offset (UInt8.ofNat addr.zone.length)
  let offset := offset + 1
  let body ← Buffer.copyAt body offset addr.zone
  return (body, offset + addr.zone.length)

def putLocalAddr (flags : UInt8) (body : Str) (offset : Nat) (localAddr : BinaryUDPAddr) :
    Checked UDPError (Str × Nat) :=
  if flags &&& udpPacketFlagLocalAddr ≠ 0 then putBinaryUDPAddr body offset localAddr else .ok (body, offset)

def writeUDPPacketBody (flags : UInt8) (localAddr remoteAddr : BinaryUDPAddr) (content : Str) (bodyLen : Nat) :
    Checked UDPError Str := do
  let body ← Buffer.set (List.replicate bodyLen 0) 0 flags
  let (body, offset) ← putLocalAddr flags body 1 localAddr
  let (body, offset) ← putBinaryUDPAddr body offset remoteAddr
  let body ← Buffer.putUint 2 body offset content.length
  let offset := offset + 2
  Buffer.copyAt body offset content

def encodeLocalAddr : Option UDPAddr → Checked UDPError (UInt8 × BinaryUDPAddr × Nat)
  | none => .ok (0, default, 0)
  | some addr => do
    let localAddr ← Checked.wrap .localAddr (validateBinaryUDPAddr addr)
    return (udpPacketFlagLocalAddr, localAddr, binaryUDPAddrLen localAddr)

def encodeUDPPacketBinary : Option UDPPacket → Checked UDPError Str
  | none => .fail .nilPacket
  | some packet =>
    match packet.remoteAddr with
    | none => .fail .missingRemoteAddr
    | some remote =>
      if packet.content.length > maxUDPPayloadSize then .fail (.payloadLimit packet.content.length)
      else do
        let bodyLen := 1 + 2 + packet.content.length
        let (flags, localAddr, localLen) ← encodeLocalAddr packet.localAddr
        let bodyLen := bodyLen + localLen
        let flags := flags ||| udpPacketFlagRemoteAddr
        let remoteAddr ← Checked.wrap .remoteAddr (validateBinaryUDPAddr remote)
        let bodyLen := bodyLen + binaryUDPAddrLen remoteAddr
        if 2 + bodyLen > defaultMaxFramePayloadSize then .fail (.frameLimit (2 + bodyLen))
        else writeUDPPacketBody flags localAddr remoteAddr packet.content bodyLen

/-! ## Decoder -/

def addrIPLen (family : UInt8) : Checked AddrError Nat :=
  if family = 4 then .ok ipv4len
  else if family = 6 then .ok ipv6len
  else .fail (.unknownFamily family)

def readBinaryUDPAddr (body : Str) (offset : Nat) : Checked AddrError (UDPAddr × Nat) :=
  if offset ≥ body.length then .fail .truncatedFamily
  else do
    let family ← Buffer.get body offset
    let offset := offset + 1
    let ipLen ← addrIPLen family
    if body.length < offset + (ipLen + 3) then .fail .truncatedAddress
    else do
      let ip ← Buffer.slice body offset (offset + ipLen)
      let offset := offset + ipLen
      let port ← Buffer.slice body offset (offset + 2)
      let offset := offset + 2
      let zoneLen ← Buffer.get body offset
      let offset := offset + 1
      if body.length < offset + zoneLen.toNat then .fail .truncatedZone
      else do
        let zone ← Buffer.slice body offset (offset + zoneLen.toNat)
        if family = 4 ∧ zoneLen ≠ 0 then .fail .ipv4Zone
        else if !Str.validUTF8 zone then .fail .zoneNotUTF8
        else .ok ({ ip, port := beNat port, zone }, offset + zoneLen.toNat)

def readFlaggedAddr (inAddr : AddrError → UDPError) (flags flag : UInt8) (body : Str) (offset : Nat) :
    Checked UDPError (Option UDPAddr × Nat) :=
  if flags &&& flag ≠ 0 then do
    let (addr, offset) ← Checked.wrap inAddr (readBinaryUDPAddr body offset)
    return (some addr, offset)
  else .ok (none, offset)

def readUDPPayload (body : Str) (offset : Nat) : Checked UDPError Str :=
  if body.length < offset + 2 then .fail .truncatedPayloadLength
  else do
    let payloadLen := beNat (← Buffer.slice body offset (offset + 2))
    let offset := offset + 2
    if payloadLen > maxUDPPayloadSize then .fail (.payloadLimit payloadLen)
    else
      let remaining : Int := body.length - offset
      if remaining < payloadLen then .fail (.truncatedPayload remaining payloadLen)
      else if remaining > payloadLen then .fail (.trailingBytes (remaining - payloadLen))
      else Buffer.slice body offset (offset + payloadLen)

def decodeUDPPacketBinary (body : Str) : Checked UDPError UDPPacket :=
  if body.length < 3 then .fail (.bodyTooShort body.length)
  else if 2 + body.length > defaultMaxFramePayloadSize then .fail (.frameLimit (2 + body.length))
  else do
    let flags ← Buffer.get body 0
    if flags &&& ~~~udpPacketValidFlags ≠ 0 then .fail (.reservedFlags flags)
    else if flags &&& udpPacketFlagRemoteAddr = 0 then .fail .missingRemoteAddr
    else do
      let (localAddr, offset) ← readFlaggedAddr .localAddr flags udpPacketFlagLocalAddr body 1
      let (remoteAddr, offset) ← readFlaggedAddr .remoteAddr flags udpPacketFlagRemoteAddr body offset
      let content ← readUDPPayload body offset
      return { content, localAddr, remoteAddr }

end Frp
