import Frp.Wire

/-!
# The hello exchange of wire protocol v2

`pkg/proto/wire/crypto.go`, with `handleClientHello` of `server/service.go` and the part of
`exchangeLogin` of `client/control_session.go` between the hello frames.
-/

namespace Frp

def aeadAlgorithmAES256GCM : Str := lit "aes-256-gcm"
def aeadAlgorithmXChaCha20Poly1305 : Str := lit "xchacha20-poly1305"
def messageCodecJSON : Str := lit "json"
def udpPacketCodecBinary : Str := lit "binary-v1"
def cryptoRandomSize : Nat := 32
def cryptoTranscriptLabel : Str := lit "frp wire v2 crypto transcript"

def frameTypeServerHello : UInt16 := 2

structure BootstrapInfo where
  transport : Str
  tls : Bool
  tcpMux : Bool
  deriving DecidableEq

structure MessageCapabilities where
  codecs : List Str
  udpPacketCodecs : List Str
  deriving DecidableEq

structure CryptoCapabilities where
  algorithms : List Str
  clientRandom : Str
  deriving DecidableEq

structure ClientCapabilities where
  message : MessageCapabilities
  crypto : CryptoCapabilities
  deriving DecidableEq

structure ClientHello where
  bootstrap : BootstrapInfo
  capabilities : ClientCapabilities
  deriving DecidableEq

structure MessageSelection where
  codec : Str
  udpPacketCodec : Str
  deriving DecidableEq

structure CryptoSelection where
  algorithm : Str
  serverRandom : Str
  deriving DecidableEq

structure ServerSelection where
  message : MessageSelection
  crypto : CryptoSelection
  deriving DecidableEq

structure ServerHello where
  selected : ServerSelection
  error : Str
  deriving DecidableEq

structure CryptoContext where
  algorithm : Str
  transcriptHash : Str
  deriving DecidableEq

class Sha256 where
  sum : Str → Str

class HelloJSON where
  marshalClient : ClientHello → Option Str
  unmarshalClient : Str → Option ClientHello
  marshalServer : ServerHello → Option Str
  unmarshalServer : Str → Option ServerHello

/-! ## Selection and validation -/

def supports (list : List Str) (value : Str) : Bool := list.contains value

def supportedAEADAlgorithms : List Str := [aeadAlgorithmAES256GCM, aeadAlgorithmXChaCha20Poly1305]

def isSupportedAEADAlgorithm (algorithm : Str) : Bool := supports supportedAEADAlgorithms algorithm

def selectAEADAlgorithm : List Str → Option Str
  | [] => none
  | algorithm :: rest => if isSupportedAEADAlgorithm algorithm then some algorithm else selectAEADAlgorithm rest

def preferredAEADAlgorithms (hasFastAESGCM : Bool) : List Str :=
  if hasFastAESGCM then [aeadAlgorithmAES256GCM, aeadAlgorithmXChaCha20Poly1305]
  else [aeadAlgorithmXChaCha20Poly1305, aeadAlgorithmAES256GCM]

def selectUDPPacketCodec (codecs : List Str) : Str :=
  if supports codecs udpPacketCodecBinary then udpPacketCodecBinary else []

inductive HelloError
  | messageCodec
  | clientRandomLength (n : Nat)
  | noAlgorithm
  | random (err : Str)

def lengthText (n : Nat) : Str := lit (toString n) ++ lit ", want " ++ lit (toString cryptoRandomSize)

def HelloError.text : HelloError → Str
  | messageCodec => lit "unsupported message codec"
  | clientRandomLength n => lit "invalid crypto client random length " ++ lengthText n
  | noAlgorithm => lit "no supported crypto algorithm"
  | random err => lit "generate crypto random: " ++ err

def validateCryptoCapabilities (c : CryptoCapabilities) : Except HelloError Unit :=
  if c.clientRandom.length ≠ cryptoRandomSize then .error (.clientRandomLength c.clientRandom.length)
  else
    match selectAEADAlgorithm c.algorithms with
    | none => .error .noAlgorithm
    | some _ => .ok ()

def validateClientHello (h : ClientHello) : Except HelloError Unit :=
  if !supports h.capabilities.message.codecs messageCodecJSON then .error .messageCodec
  else validateCryptoCapabilities h.capabilities.crypto

structure CryptoRandom where
  bytes : Str
  size : bytes.length = cryptoRandomSize

def newCryptoRandom : Except Str CryptoRandom → Except HelloError Str
  | .error err => .error (.random err)
  | .ok r => .ok r.bytes

def newClientHello (bootstrap : BootstrapInfo) (hasFastAESGCM : Bool) (rand : Except Str CryptoRandom) :
    Except HelloError ClientHello := do
  let clientRandom ← newCryptoRandom rand
  return {
    bootstrap
    capabilities := {
      message := ⟨[messageCodecJSON], [udpPacketCodecBinary]⟩
      crypto := ⟨preferredAEADAlgorithms hasFastAESGCM, clientRandom⟩ } }

def defaultServerHello : ServerHello := ⟨⟨⟨messageCodecJSON, []⟩, ⟨[], []⟩⟩, []⟩

def newServerHello (h : ClientHello) (rand : Except Str CryptoRandom) : Except HelloError ServerHello := do
  validateClientHello h
  match selectAEADAlgorithm h.capabilities.crypto.algorithms with
  | none => .error .noAlgorithm
  | some algorithm =>
    let serverRandom ← newCryptoRandom rand
    return {
      selected := {
        message := ⟨messageCodecJSON, selectUDPPacketCodec h.capabilities.message.udpPacketCodecs⟩
        crypto := ⟨algorithm, serverRandom⟩ }
      error := [] }

inductive SelectionError
  | messageCodec (codec : Str)
  | udpPacketCodec (codec : Str)
  | udpPacketCodecNotAdvertised (codec : Str)
  | algorithm (algorithm : Str)
  | algorithmNotAdvertised (algorithm : Str)
  | serverRandomLength (n : Nat)

def validateServerHelloForClient (h : ClientHello) (r : ServerHello) : Except SelectionError Unit :=
  let codec := r.selected.message.udpPacketCodec
  let crypto := r.selected.crypto
  if r.selected.message.codec ≠ messageCodecJSON then .error (.messageCodec r.selected.message.codec)
  else if codec ≠ [] ∧ codec ≠ udpPacketCodecBinary then .error (.udpPacketCodec codec)
  else if codec ≠ [] ∧ !supports h.capabilities.message.udpPacketCodecs codec then
    .error (.udpPacketCodecNotAdvertised codec)
  else if !isSupportedAEADAlgorithm crypto.algorithm then .error (.algorithm crypto.algorithm)
  else if !supports h.capabilities.crypto.algorithms crypto.algorithm then
    .error (.algorithmNotAdvertised crypto.algorithm)
  else if crypto.serverRandom.length ≠ cryptoRandomSize then .error (.serverRandomLength crypto.serverRandom.length)
  else .ok ()

/-! ## The transcript -/

/-- The hash is given its input in pieces; `written` is what it has been given so far. -/
def writeCryptoTranscriptPart (written label payload : Str) : Str :=
  written ++ [0] ++ label ++ [0] ++ beBytes 8 payload.length ++ payload

def cryptoTranscript (clientHelloPayload serverHelloPayload : Str) : Str :=
  writeCryptoTranscriptPart
    (writeCryptoTranscriptPart cryptoTranscriptLabel (lit "client hello") clientHelloPayload)
    (lit "server hello") serverHelloPayload

section
variable [Sha256]

def hashCryptoTranscript (clientHelloPayload serverHelloPayload : Str) : Str :=
  Sha256.sum (cryptoTranscript clientHelloPayload serverHelloPayload)

def newCryptoContext (algorithm clientHelloPayload serverHelloPayload : Str) : CryptoContext :=
  ⟨algorithm, hashCryptoTranscript clientHelloPayload serverHelloPayload⟩

variable [HelloJSON]

inductive ClientCryptoError
  | decodeClientHello
  | decodeServerHello
  | selection (e : SelectionError)

def newClientCryptoContext (clientHelloPayload serverHelloPayload : Str) : Except ClientCryptoError CryptoContext :=
  match HelloJSON.unmarshalClient clientHelloPayload with
  | none => .error .decodeClientHello
  | some clientHello =>
    match HelloJSON.unmarshalServer serverHelloPayload with
    | none => .error .decodeServerHello
    | some serverHello =>
      match validateServerHelloForClient clientHello serverHello with
      | .error e => .error (.selection e)
      | .ok () => .ok (newCryptoContext serverHello.selected.crypto.algorithm clientHelloPayload serverHelloPayload)

/-! ## The two ends -/

structure Negotiated where
  cryptoContext : CryptoContext
  udpPacketCodec : Str
  deriving DecidableEq

inductive ServerHandshakeError
  | decodeClientHello
  | refused (e : HelloError) (write : Option WriteError)
  | marshal
  | write (e : WriteError)

def writeRefusal (out : Str) (e : HelloError) : Str × Option WriteError :=
  match HelloJSON.marshalServer { defaultServerHello with error := e.text } with
  | none => (out, some .marshal)
  | some payload => writeFrame out ⟨frameTypeServerHello, 0, payload⟩

def handleClientHello (out : Str) (frame : Frame) (rand : Except Str CryptoRandom) :
    Str × Except ServerHandshakeError Negotiated :=
  match HelloJSON.unmarshalClient frame.payload with
  | none => (out, .error .decodeClientHello)
  | some hello =>
    match newServerHello hello rand with
    | .error e =>
      let (out, werr) := writeRefusal out e
      (out, .error (.refused e werr))
    | .ok serverHello =>
      match HelloJSON.marshalServer serverHello with
      | none => (out, .error .marshal)
      | some payload =>
        let cryptoContext := newCryptoContext serverHello.selected.crypto.algorithm frame.payload payload
        match writeFrame out ⟨frameTypeServerHello, 0, payload⟩ with
        | (out, some e) => (out, .error (.write e))
        | (out, none) => (out, .ok ⟨cryptoContext, serverHello.selected.message.udpPacketCodec⟩)

inductive ClientHandshakeError
  | read (e : ReadError)
  | frameType (type : UInt16)
  | decodeServerHello
  | refused (text : Str)
  | crypto (e : ClientCryptoError)

/-- The part of `exchangeLogin` that reads the answer to the hello sent as `clientHelloPayload`. -/
def readServerHello (clientHelloPayload s : Str) : Except ClientHandshakeError (Negotiated × Str) :=
  match readFrame s with
  | .error e => .error (.read e)
  | .ok (frame, s) =>
    if frame.type ≠ frameTypeServerHello then .error (.frameType frame.type)
    else
      match HelloJSON.unmarshalServer frame.payload with
      | none => .error .decodeServerHello
      | some serverHello =>
        if serverHello.error ≠ [] then .error (.refused serverHello.error)
        else
          match newClientCryptoContext clientHelloPayload frame.payload with
          | .error e => .error (.crypto e)
          | .ok cryptoContext => .ok (⟨cryptoContext, serverHello.selected.message.udpPacketCodec⟩, s)

end

end Frp
