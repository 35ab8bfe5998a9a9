import Frp.WireSound

/-!
# The three encodings of a UDP work connection

`NewUDPPacketReadWriter` of `pkg/msg/udp_binary.go` chooses among v1 JSON, v2 JSON and v2
binary. `V1Codec`, `JSON` and the laws of `CodecLaws` are what is assumed of the v1 reader
and writer and of JSON.
-/

namespace Frp

/-! ## The same addresses -/

def ipEqual (ip x : Str) : Bool :=
  if ip.length = x.length then ip = x
  else if ip.length = ipv4len ∧ x.length = ipv6len then x.take 12 = v4InV6Prefix ∧ ip = x.drop 12
  else if ip.length = ipv6len ∧ x.length = ipv4len then ip.take 12 = v4InV6Prefix ∧ ip.drop 12 = x
  else false

structure SameAddr (a b : UDPAddr) : Prop where
  ip : ipEqual a.ip b.ip = true
  port : a.port = b.port
  zone : a.zone = b.zone

structure SamePacket (p q : UDPPacket) : Prop where
  content : p.content = q.content
  localAddr : Option.Rel SameAddr p.localAddr q.localAddr
  remoteAddr : Option.Rel SameAddr p.remoteAddr q.remoteAddr

/-- The zones of a packet are valid UTF-8, as in every packet a reader returns. -/
def UDPPacket.Valid (p : UDPPacket) : Prop :=
  (∀ a ∈ p.localAddr, a.zone.validUTF8 = true) ∧ ∀ a ∈ p.remoteAddr, a.zone.validUTF8 = true

open V2BinaryUDPPacketReadWriter

theorem UDPPacket.valid_of_decode {b : Str} {p : UDPPacket} (h : decodeUDPPacketBinary b = .ok p) : p.Valid := by
  obtain ⟨-, f, -, rfl⟩ := decodeUDPPacketBinary_iff.mp h
  constructor
  · intro a ha
    obtain ⟨g, -, rfl⟩ := Option.map_eq_some_iff.mp ha
    exact g.zone_valid
  · intro a ha
    cases ha; exact f.remoteAddr.zone_valid

theorem ipEqual_normal (ip : Str) : ipEqual ip ((to4 ip).getD ip) = true := by
  unfold to4
  split_ifs with h4 h16
  · simp [ipEqual]
  · obtain ⟨hlen, hpre⟩ := h16
    simp [ipEqual, hlen, hpre, ipv4len, ipv6len]
  · simp [ipEqual]

theorem SamePacket.normal (p : UDPPacket) : SamePacket p p.normal := by
  have haddr : ∀ a : UDPAddr, SameAddr a a.normal := fun a => ⟨ipEqual_normal a.ip, rfl, rfl⟩
  have hopt : ∀ a : Option UDPAddr, Option.Rel SameAddr a (a.map UDPAddr.normal) := by
    intro a
    cases a with
    | none => exact .none
    | some a => exact .some (haddr a)
  exact ⟨rfl, hopt _, hopt _⟩

section
variable [JSON]

def Message.Valid : Message → Prop
  | .udpPacket p => p.Valid
  | .plain _ _ => True

inductive SameMessage : Message → Message → Prop
  | udpPacket {p q} : SamePacket p q → SameMessage (.udpPacket p) (.udpPacket q)
  | plain (t : PlainType) (b : JSON.Body t) : SameMessage (.plain t b) (.plain t b)

end

/-! ## Selection, reading and writing -/

inductive Encoding
  | v1
  | v2
  | v2Binary
  deriving DecidableEq

inductive SelectError
  | requiresV2 (udpPacketCodec : Str)
  | unsupportedCodec (udpPacketCodec : Str)
  | unsupportedProtocol (wireProtocol : Str)

def newUDPPacketReadWriter (wireProtocol udpPacketCodec : Str) : Except SelectError Encoding :=
  if wireProtocol = [] ∨ wireProtocol = lit "v1" then
    if udpPacketCodec ≠ [] then .error (.requiresV2 udpPacketCodec) else .ok .v1
  else if wireProtocol = lit "v2" then
    if udpPacketCodec = [] then .ok .v2
    else if udpPacketCodec = lit "binary-v1" then .ok .v2Binary
    else .error (.unsupportedCodec udpPacketCodec)
  else .error (.unsupportedProtocol wireProtocol)

inductive V1Error
  | eof
  | failed
  deriving DecidableEq

/-- The v1 reader and writer; `limit` is what the reader takes of a message's length. -/
class V1Codec [JSON] where
  readMsg : Str → Except V1Error (Message × Str)
  pack : Message → Option Str
  limit : Message → Prop

inductive CodecError
  | read (e : ReadError)
  | write (e : WriteError)
  | v1 (e : V1Error)
  deriving DecidableEq

namespace Encoding

variable [JSON] [V1Codec]

def readMsg : Encoding → Str → Except CodecError (Message × Str)
  | v1, s => (V1Codec.readMsg s).mapError .v1
  | v2, s => (V2ReadWriter.readMsg s).mapError .read
  | v2Binary, s => (V2BinaryUDPPacketReadWriter.readMsg s).mapError .read

def writeMsg : Encoding → Str → Message → Str × Option CodecError
  | v1, out, m =>
    match V1Codec.pack m with
    | none => (out, some (.v1 .failed))
    | some s => (out ++ s, none)
  | v2, out, m => ((V2ReadWriter.writeMsg out m).1, (V2ReadWriter.writeMsg out m).2.map .write)
  | v2Binary, out, m =>
    ((V2BinaryUDPPacketReadWriter.writeMsg out (.msg m)).1,
      (V2BinaryUDPPacketReadWriter.writeMsg out (.msg m)).2.map .write)

def Accepts (c : Encoding) (m : Message) : Prop := (c.writeMsg [] m).2 = none ∧ (c = v1 → V1Codec.limit m)

end Encoding

/-! ## What is assumed, and what a message survives -/

variable {ε δ α : Type} {f : ε → δ} {x : Except ε α}

theorem mapError_ok {a : α} (h : x = .ok a) : x.mapError f = .ok a := by
  rw [h]; rfl

theorem ok_of_mapError {a : α} (h : x.mapError f = .ok a) : x = .ok a := by
  cases x with
  | error => cases h
  | ok => simpa [Except.mapError] using h

theorem mapError_error (h : ∃ e, x = .error e) : ∃ e, x.mapError f = .error e := by
  obtain ⟨e, he⟩ := h
  exact ⟨f e, by rw [he]; rfl⟩

section
variable [JSON]

structure JSONLaws : Prop where
  plain : JSON.Inverse
  valid : ∀ s p, JSON.unmarshalUDP s = some p → p.Valid
  packet : ∀ p s, p.Valid → JSON.marshalUDP p = some s → ∃ q, JSON.unmarshalUDP s = some q ∧ SamePacket p q

variable {m : Message}

theorem decodeV2MessageFrame_valid (hL : JSONLaws) {f : Frame} (h : decodeV2MessageFrame f = .ok m) : m.Valid := by
  cases m with
  | plain => trivial
  | udpPacket p =>
    unfold decodeV2MessageFrame at h
    split_ifs at h
    by_cases hudp : uint16 (f.payload.take 2) = v2TypeUDPPacket
    · cases hu : JSON.unmarshalUDP (f.payload.drop 2) with
      | none => simp [hudp, hu] at h
      | some q =>
        obtain rfl : q = p := by simpa [hudp, hu] using h
        exact hL.valid _ _ hu
    · cases ht : plainTypeOf (uint16 (f.payload.take 2)) with
      | none => simp [hudp, ht] at h
      | some t =>
        cases hu : JSON.unmarshal t (f.payload.drop 2) with
        | none | some => simp [hudp, ht, hu] at h

theorem V2ReadWriter.readMsg_valid (hL : JSONLaws) {s t : Str} (h : readMsg s = .ok (m, t)) : m.Valid := by
  obtain ⟨r, -, h⟩ := Checked.bind_eq_ok.mp h
  obtain ⟨m', hd, h⟩ := Checked.bind_eq_ok.mp h
  cases h; exact decodeV2MessageFrame_valid hL hd

theorem decodeFrame_valid (hL : JSONLaws) {f : Frame} (h : decodeFrame f = .ok m) : m.Valid := by
  unfold decodeFrame at h
  split_ifs at h with h1 h2
  · unfold decodeV2BinaryUDPPacketFrame at h
    split_ifs at h
    cases hd : decodeUDPPacketBinary (f.payload.drop 2) with
    | error => simp [hd] at h
    | ok =>
      simp only [hd] at h
      cases h; exact UDPPacket.valid_of_decode hd
  · exact decodeV2MessageFrame_valid hL h

theorem V2ReadWriter.frame_of_write (hL : JSONLaws) (hv : m.Valid) (hw : (writeMsg [] m).2 = none) :
    ∃ f m', f.Fits ∧ encodeV2MessageFrame m = .ok f ∧ decodeV2MessageFrame f = .ok m' ∧ SameMessage m m' := by
  cases m with
  | udpPacket p =>
    simp only [writeMsg, encodeV2MessageFrame] at hw
    cases hm : JSON.marshalUDP p with
    | none => simp [hm] at hw
    | some content =>
      simp only [hm] at hw
      obtain ⟨q, hq, hsame⟩ := hL.packet p content hv hm
      exact ⟨_, _, Frame.fits_of_write hw, by simp [encodeV2MessageFrame, hm],
        by rw [decodeV2MessageFrame_udp, hq], .udpPacket hsame⟩
  | plain t b =>
    obtain ⟨content, hf, he, hd⟩ := plain_frame hL.plain hw
    exact ⟨_, _, hf, he, hd, .plain t b⟩

end

attribute [local simp] Encoding.writeMsg

section
variable [JSON] [V1Codec]

structure CodecLaws : Prop extends JSONLaws where
  v1_eof : V1Codec.readMsg [] = .error .eof
  v1_valid : ∀ s m t, V1Codec.readMsg s = .ok (m, t) → m.Valid
  v1_read : ∀ m s, m.Valid → V1Codec.limit m → V1Codec.pack m = some s →
    ∃ m', SameMessage m m' ∧ ReadAs V1Codec.readMsg s m'
  v1_cut : ∀ m s k, m.Valid → V1Codec.pack m = some s → k < s.length → ∃ e, V1Codec.readMsg (s.take k) = .error e

structure Carries (c : Encoding) (m : Message) (s : Str) (m' : Message) : Prop where
  write : ∀ out, c.writeMsg out m = (out ++ s, none)
  same : SameMessage m m'
  read : ReadAs c.readMsg s m'
  cut : ∀ k < s.length, ∃ e, c.readMsg (s.take k) = .error e

theorem Carries.v2 {f : Frame} {m m' : Message} (hf : f.Fits) (he : encodeV2MessageFrame m = .ok f)
    (hd : decodeV2MessageFrame f = .ok m') (hs : SameMessage m m') : Carries .v2 m f.bytes m' where
  write out := by simp [V2ReadWriter.writeMsg, he, writeFrame_fits out hf]
  same := hs
  read t := mapError_ok (V2ReadWriter.readMsg_frame hf hd t)
  cut _ hk := mapError_error (V2ReadWriter.readMsg_cut hf hk)

theorem Carries.v2Binary {f : Frame} {m m' : Message} (hf : f.Fits)
    (hw : ∀ out, writeMsg out (.msg m) = writeFrame out f)
    (hd : decodeFrame f = .ok m') (hs : SameMessage m m') :
    Carries .v2Binary m f.bytes m' where
  write out := by simp [hw, writeFrame_fits out hf]
  same := hs
  read t := mapError_ok (readMsg_frame hf hd t)
  cut _ hk := mapError_error (readMsg_cut hf hk)

theorem Encoding.carries (hL : CodecLaws) {c : Encoding} {m : Message} (hv : m.Valid) (ha : c.Accepts m) :
    ∃ s m', Carries c m s m' := by
  obtain ⟨hw, hlimit⟩ := ha
  cases c with
  | v1 =>
    cases hp : V1Codec.pack m with
    | none => simp [hp] at hw
    | some s =>
      obtain ⟨m', hs, hr⟩ := hL.v1_read m s hv (hlimit rfl) hp
      refine ⟨s, m', ?_, hs, fun t => mapError_ok (hr t), fun k hk => mapError_error (hL.v1_cut m s k hv hp hk)⟩
      intro out; simp [hp]
  | v2 =>
    simp only [Encoding.writeMsg, Option.map_eq_none_iff] at hw
    obtain ⟨f, m', hf, he, hd, hs⟩ := V2ReadWriter.frame_of_write hL.toJSONLaws hv hw
    exact ⟨_, _, Carries.v2 hf he hd hs⟩
  | v2Binary =>
    cases m with
    | udpPacket p =>
      simp only [Encoding.writeMsg, V2BinaryUDPPacketReadWriter.writeMsg, V2BinaryUDPPacketReadWriter.writePacket,
        Option.map_eq_none_iff] at hw
      cases hm : encodeUDPPacketBinary (some p) with
      | error => simp [hm] at hw
      | ok =>
        simp only [hm] at hw
        obtain ⟨-, hdec⟩ := decodeUDPPacketBinary_encode hm
        refine ⟨_, _, Carries.v2Binary (Frame.fits_of_write hw) ?_
          (V2BinaryUDPPacketReadWriter.decodeFrame_packet hdec) (.udpPacket (.normal p))⟩
        intro out
        simp only [V2BinaryUDPPacketReadWriter.writeMsg, V2BinaryUDPPacketReadWriter.writePacket, hm]
    | plain t b =>
      simp only [Encoding.writeMsg, V2BinaryUDPPacketReadWriter.writeMsg, Option.map_eq_none_iff] at hw
      obtain ⟨content, hf, he, hd⟩ := V2ReadWriter.plain_frame hL.plain hw
      rw [← V2BinaryUDPPacketReadWriter.decodeFrame_plain] at hd
      refine ⟨_, _, Carries.v2Binary hf ?_ hd (.plain t b)⟩
      intro out; simp only [V2BinaryUDPPacketReadWriter.writeMsg, V2ReadWriter.writeMsg, he]

theorem Encoding.readMsg_valid (hL : CodecLaws) {c : Encoding} {s t : Str} {m : Message}
    (h : c.readMsg s = .ok (m, t)) : m.Valid := by
  cases c with
  | v1 => exact hL.v1_valid s m t (ok_of_mapError h)
  | v2 => exact V2ReadWriter.readMsg_valid hL.toJSONLaws (ok_of_mapError h)
  | v2Binary =>
    obtain ⟨r, -, h⟩ := Checked.bind_eq_ok.mp (ok_of_mapError h)
    obtain ⟨m', hd, h⟩ := Checked.bind_eq_ok.mp h
    cases h; exact decodeFrame_valid hL.toJSONLaws hd

theorem Encoding.readMsg_nil (hL : CodecLaws) (c : Encoding) : ∃ e, c.readMsg [] = .error e := by
  cases c with
  | v1 => exact mapError_error ⟨_, hL.v1_eof⟩
  | v2 | v2Binary => exact ⟨.read .eof, rfl⟩

end

end Frp
