import Frp.UdpBinarySound
import Frp.Wire

/-!
# What a v2 reader gets from a v2 writer

The bytes of a frame the writer lets through are read back as that frame, whatever follows.
A stream of messages decodes to the messages in order.
-/

namespace Frp

/-! ## Frames -/

namespace Frame

def header (f : Frame) : Str :=
  beBytes 2 f.type.toNat ++ beBytes 2 f.flags.toNat ++ beBytes 4 f.payload.length

def bytes (f : Frame) : Str := f.header ++ f.payload

def Fits (f : Frame) : Prop := f.flags = 0 ∧ f.payload.length ≤ defaultMaxFramePayloadSize

end Frame

open JSON Frp.Frame V2ReadWriter

theorem readFull_append (s t : Str) : readFull (s ++ t) s.length = .ok (s, t) := by
  unfold readFull
  by_cases h0 : s.length = 0
  · obtain rfl := List.eq_nil_of_length_eq_zero h0
    rfl
  · rw [if_neg h0, if_neg (by intro h; simp_all), if_neg (by simp)]
    simp

@[simp] theorem readFull_nil {n : Nat} (h : n ≠ 0) : readFull [] n = .error .eof := by simp [readFull, h]

theorem writeFrame_fits {f : Frame} (out : Str) (h : f.Fits) : writeFrame out f = (out ++ f.bytes, none) := by
  obtain ⟨h0, hlen⟩ := h
  unfold writeFrame
  rw [if_neg (by simp [h0]), if_neg (by omega)]; simp [bytes, header]

theorem writeFrame_cases (out : Str) (f : Frame) :
    (∃ e, writeFrame out f = (out, some e)) ∨ f.Fits ∧ writeFrame out f = (out ++ f.bytes, none) := by
  by_cases h0 : f.flags = 0
  · by_cases hlen : f.payload.length ≤ defaultMaxFramePayloadSize
    · exact .inr ⟨⟨h0, hlen⟩, writeFrame_fits out ⟨h0, hlen⟩⟩
    · refine .inl ⟨.frameLimit f.payload.length, ?_⟩
      unfold writeFrame; rw [if_neg (by simp [h0]), if_pos (by omega)]
  · refine .inl ⟨.frameFlags f.flags, ?_⟩
    unfold writeFrame; rw [if_pos h0]

theorem uint16_beBytes (v : UInt16) : uint16 (beBytes 2 v.toNat) = v := by
  rw [uint16, beNat_beBytes 2 v.toNat_lt]; simp

namespace Frame

variable {f : Frame}

theorem header_length (f : Frame) : f.header.length = 8 := by simp [header]

theorem header_type (f : Frame) : uint16 (f.header.take 2) = f.type := by
  simp [header, uint16_beBytes]

theorem header_flags (f : Frame) : uint16 ((f.header.drop 2).take 2) = f.flags := by
  simp [header, uint16_beBytes]

theorem header_payload (h : f.Fits) : beNat ((f.header.drop 4).take 4) = f.payload.length := by
  have hlen := h.2
  unfold defaultMaxFramePayloadSize at hlen
  have hd : (f.header.drop 4).take 4 = beBytes 4 f.payload.length := by
    simp [header, List.drop_append, List.take_of_length_le, List.drop_of_length_le]
  rw [hd, beNat_beBytes 4 (by omega)]

end Frame

variable {f : Frame}

theorem readFrame_header (h : f.Fits) (t : Str) :
    readFrame (f.header ++ t) = (readFull t f.payload.length).map fun r => (⟨f.type, f.flags, r.1⟩, r.2) := by
  have hheader := readFull_append f.header t
  rw [f.header_length] at hheader
  unfold readFrame
  simp only [hheader, bind, Except.bind, f.header_type, f.header_flags, header_payload h]
  rw [if_neg (by simp [h.1]), if_neg (by have := h.2; omega)]
  rfl

theorem readFrame_bytes (h : f.Fits) : ReadAs readFrame f.bytes f := by
  intro t
  rw [bytes, List.append_assoc, readFrame_header h, readFull_append]; rfl

theorem Frame.fits_of_write (h : (writeFrame [] f).2 = none) : f.Fits := by
  rcases writeFrame_cases [] f with ⟨e, he⟩ | ⟨hf, -⟩
  · rw [he] at h; cases h
  · exact hf

theorem readFull_short {s : Str} {n : Nat} (h : s.length < n) : ∃ e, readFull s n = .error e := by
  unfold readFull
  rw [if_neg (by omega)]
  by_cases hs : s = []
  · exact ⟨_, if_pos hs⟩
  · exact ⟨.unexpectedEOF, by rw [if_neg hs, if_pos h]⟩

theorem readFrame_cut (hf : f.Fits) {k : Nat} (hk : k < f.bytes.length) :
    ∃ e, readFrame (f.bytes.take k) = .error e := by
  have hlen := f.header_length
  by_cases h8 : k < 8
  · obtain ⟨e, he⟩ := readFull_short (s := f.bytes.take k) (n := 8) (by simp; omega)
    exact ⟨e, by rw [readFrame, he]; rfl⟩
  · have hcut : f.bytes.take k = f.header ++ f.payload.take (k - 8) := by
      rw [bytes, List.take_append, List.take_of_length_le (by omega), hlen]
    rw [bytes, List.length_append] at hk
    obtain ⟨e, he⟩ := readFull_short (s := f.payload.take (k - 8)) (n := f.payload.length) (by simp; omega)
    exact ⟨e, by rw [hcut, readFrame_header hf, he]; rfl⟩

/-! ## Messages -/

theorem PlainType.typeOf_v2TypeID (t : PlainType) : plainTypeOf t.v2TypeID = some t := by cases t <;> rfl

theorem PlainType.v2TypeID_ne (t : PlainType) :
    t.v2TypeID ≠ v2TypeUDPPacket ∧ t.v2TypeID ≠ v2TypeUDPPacketBinary := by
  cases t <;> decide

theorem messageFrame_fits_iff {typeID : UInt16} {content : Str} :
    (messageFrame typeID content).Fits ↔ content.length ≤ 65534 := by
  simp only [Frame.Fits, messageFrame, List.length_append, beBytes_length, defaultMaxFramePayloadSize, true_and]
  omega

@[simp] theorem messageFrame_typeID (typeID : UInt16) (content : Str) :
    uint16 ((messageFrame typeID content).payload.take 2) = typeID := by
  simp [messageFrame, uint16_beBytes]

@[simp] theorem messageFrame_content (typeID : UInt16) (content : Str) :
    (messageFrame typeID content).payload.drop 2 = content := by
  simp [messageFrame]

theorem messageFrame_length (typeID : UInt16) (content : Str) :
    ¬ (messageFrame typeID content).payload.length < 2 := by
  simp only [messageFrame, List.length_append, beBytes_length]; omega

theorem isV2MessageType_messageFrame (typeID typeID' : UInt16) (content : Str) :
    isV2MessageType (messageFrame typeID content) typeID' = decide (typeID = typeID') := by
  have h := messageFrame_length typeID content
  have ht : (messageFrame typeID content).type = frameTypeMessage := rfl
  simp only [isV2MessageType, messageFrame_typeID, ge_iff_le, Nat.not_lt.mp h, ht, true_and]

section
variable [JSON]

theorem decodeV2MessageFrame_plain (t : PlainType) (content : Str) :
    decodeV2MessageFrame (messageFrame t.v2TypeID content) =
      match unmarshal t content with
      | none => .error .unmarshal
      | some b => .ok (.plain t b) := by
  unfold decodeV2MessageFrame
  rw [if_neg (by simp [messageFrame]), if_neg (messageFrame_length _ _)]
  simp only [messageFrame_typeID, messageFrame_content, t.v2TypeID_ne.1, if_false]
  cases h : unmarshal t content with
  | none | some => simp only [t.typeOf_v2TypeID, h]

theorem decodeV2MessageFrame_udp (content : Str) :
    decodeV2MessageFrame (messageFrame v2TypeUDPPacket content) =
      match unmarshalUDP content with
      | none => .error .unmarshal
      | some p => .ok (.udpPacket p) := by
  unfold decodeV2MessageFrame
  rw [if_neg (by simp [messageFrame]), if_neg (messageFrame_length _ _)]
  cases h : unmarshalUDP content with
  | none | some => simp only [messageFrame_typeID, messageFrame_content, if_true, h]

def Message.normal : Message → Message
  | .udpPacket p => .udpPacket p.normal
  | .plain t b => .plain t b

def JSON.Inverse : Prop := ∀ (t : PlainType) (b : JSON.Body t) (s : Str),
  JSON.marshal t b = some s → JSON.unmarshal t s = some b

theorem V2ReadWriter.readMsg_frame {f : Frame} {m : Message} (hf : f.Fits) (hm : decodeV2MessageFrame f = .ok m) :
    ReadAs readMsg f.bytes m := by
  intro t
  simp only [readMsg, readFrame_bytes hf t, hm, bind, Except.bind]; rfl

theorem V2ReadWriter.readMsg_cut {f : Frame} (hf : f.Fits) {k : Nat} (hk : k < f.bytes.length) :
    ∃ e, readMsg (f.bytes.take k) = .error e := by
  obtain ⟨e, he⟩ := readFrame_cut hf hk
  exact ⟨e, by rw [readMsg, he]; rfl⟩

theorem V2ReadWriter.plain_frame (hJ : JSON.Inverse) {t : PlainType} {b : JSON.Body t}
    (hw : (writeMsg [] (.plain t b)).2 = none) : ∃ content,
      (messageFrame t.v2TypeID content).Fits ∧
      encodeV2MessageFrame (.plain t b) = .ok (messageFrame t.v2TypeID content) ∧
      decodeV2MessageFrame (messageFrame t.v2TypeID content) = .ok (.plain t b) := by
  simp only [writeMsg, encodeV2MessageFrame] at hw
  cases hm : marshal t b with
  | none => simp [hm] at hw
  | some content =>
    simp only [hm] at hw
    exact ⟨content, fits_of_write hw, by simp [encodeV2MessageFrame, hm],
      by rw [decodeV2MessageFrame_plain, hJ t b content hm]⟩

namespace V2BinaryUDPPacketReadWriter

theorem readMsg_cut {f : Frame} (hf : f.Fits) {k : Nat} (hk : k < f.bytes.length) :
    ∃ e, readMsg (f.bytes.take k) = .error e := by
  obtain ⟨e, he⟩ := readFrame_cut hf hk
  exact ⟨e, by rw [readMsg, he]; rfl⟩

theorem readMsg_frame {f : Frame} {m : Message} (hf : f.Fits) (hm : decodeFrame f = .ok m) :
    ReadAs readMsg f.bytes m := by
  intro t
  simp only [readMsg, readFrame_bytes hf t, hm, bind, Except.bind]; rfl

theorem decodeFrame_plain (t : PlainType) (content : Str) :
    decodeFrame (messageFrame t.v2TypeID content) = decodeV2MessageFrame (messageFrame t.v2TypeID content) := by
  simp [decodeFrame, isV2MessageType_messageFrame, t.v2TypeID_ne]

theorem decodeFrame_packet {body : Str} {p : UDPPacket} (h : decodeUDPPacketBinary body = .ok p) :
    decodeFrame (messageFrame v2TypeUDPPacketBinary body) = .ok (.udpPacket p) := by
  unfold decodeFrame decodeV2BinaryUDPPacketFrame
  rw [isV2MessageType_messageFrame, if_pos (by simp), if_neg (by simp [messageFrame]),
    if_neg (messageFrame_length _ _)]
  simp [h]

theorem writeMsg_cases (hJ : JSON.Inverse) (out : Str) (o : Outgoing) :
    (∃ e, writeMsg out o = (out, some e)) ∨
      ∃ m bytes, o = .msg m ∧ writeMsg out o = (out ++ bytes, none) ∧ ReadAs readMsg bytes m.normal := by
  cases o with
  | nil | nilUDPPacket | unregistered => exact .inl ⟨_, rfl⟩
  | msg m =>
    cases m with
    | udpPacket p =>
      simp only [writeMsg, writePacket]
      cases he : encodeUDPPacketBinary (some p) with
      | error => exact .inl ⟨_, rfl⟩
      | ok body =>
        obtain ⟨hlen, hdec⟩ := decodeUDPPacketBinary_encode he
        have hfits : (messageFrame v2TypeUDPPacketBinary body).Fits := messageFrame_fits_iff.mpr hlen
        exact .inr ⟨_, _, rfl, writeFrame_fits out hfits, readMsg_frame hfits (decodeFrame_packet hdec)⟩
    | plain t b =>
      simp only [writeMsg, V2ReadWriter.writeMsg, encodeV2MessageFrame]
      cases hm : marshal t b with
      | none => exact .inl ⟨_, rfl⟩
      | some content =>
        have hdec : decodeFrame (messageFrame t.v2TypeID content) = .ok (.plain t b) := by
          rw [decodeFrame_plain, decodeV2MessageFrame_plain, hJ t b content hm]
        rcases writeFrame_cases out (messageFrame t.v2TypeID content) with ⟨e, he⟩ | ⟨hfits, hw⟩
        · exact .inl ⟨e, he⟩
        · exact .inr ⟨_, _, rfl, hw, readMsg_frame hfits hdec⟩

def writeAll : Str → List Outgoing → Str × List Message
  | out, [] => (out, [])
  | out, o :: os =>
    match writeMsg out o, o with
    | (out, none), .msg m => ((writeAll out os).1, m :: (writeAll out os).2)
    | (out, _), _ => writeAll out os

theorem writeAll_frames (hJ : JSON.Inverse) (out : Str) (os : List Outgoing) :
    ∃ frames : List (Str × Message), (∀ x ∈ frames, ReadAs readMsg x.1 x.2) ∧
      (writeAll out os).1 = out ++ (frames.map Prod.fst).flatten ∧
      (writeAll out os).2.map Message.normal = frames.map Prod.snd := by
  induction os generalizing out with
  | nil => exact ⟨[], nofun, by simp [writeAll], rfl⟩
  | cons o os ih =>
    rcases writeMsg_cases hJ out o with ⟨e, he⟩ | ⟨m, bytes, rfl, hw, hread⟩
    · have hall : writeAll out (o :: os) = writeAll out os := by
        unfold writeAll
        rw [he]
        cases os <;> rfl
      rw [hall]; exact ih out
    · obtain ⟨frames, hf, h1, h2⟩ := ih (out ++ bytes)
      refine ⟨(bytes, m.normal) :: frames, ?_, ?_, ?_⟩
      · intro x hx
        rcases List.mem_cons.mp hx with rfl | hx
        · exact hread
        · exact hf x hx
      · simp [writeAll, hw, h1]
      · simp [writeAll, hw, h2]

theorem readMsg_nil : readMsg [] = .error .eof := by
  simp [readMsg, readFrame, bind, Except.bind]

/-- What was written without an error is read back in order, and then the end of the stream; a write
that fails writes nothing. -/
theorem stream_faithful (hJ : JSON.Inverse) (os : List Outgoing) :
    Reads readMsg (writeAll [] os).1 ((writeAll [] os).2.map Message.normal) .eof ∧
      ∀ out o, (writeMsg out o).2.isSome → (writeMsg out o).1 = out := by
  constructor
  · obtain ⟨frames, hf, h1, h2⟩ := writeAll_frames hJ [] os
    have := Reads.flatten hf (.stop readMsg_nil)
    rw [h1, h2]; simpa using this
  · intro out o he
    rcases writeMsg_cases hJ out o with ⟨e, h⟩ | ⟨m, bytes, rfl, h, -⟩
    · rw [h]
    · rw [h] at he; cases he

end V2BinaryUDPPacketReadWriter

end

/-! A packet, a packet without remote address, whose write fails, and a ping. -/

def emptyJSON : Str := lit "\x7b\x7d"

def sampleJSON : Str :=
  lit "\x7b\"c\":\"cGF5bG9hZA==\",\"l\":\x7b\"IP\":\"2001:db8::1\",\"Port\":1234,\"Zone\":\"en0\"\x7d," ++
    lit "\"r\":\x7b\"IP\":\"203.0.113.9\",\"Port\":54321,\"Zone\":\"\"\x7d\x7d"

/-- What `encoding/json` makes of messages without fields and of two packets. -/
@[reducible] def JSON.samples : JSON where
  Body _ := Unit
  marshal _ _ := some emptyJSON
  unmarshal _ s := if s = emptyJSON then some () else none
  marshalUDP p :=
    if p = ⟨[], none, none⟩ then some emptyJSON
    else if p = samplePacket.normal then some sampleJSON
    else none
  unmarshalUDP s :=
    if s = emptyJSON then some ⟨[], none, none⟩ else if s = sampleJSON then some samplePacket else none

section
attribute [local instance] JSON.samples

theorem JSON.samples_inverse : JSON.Inverse := by
  intro t b s h
  cases h; exact if_pos rfl

def mixedWrites : List Outgoing :=
  [.msg (.udpPacket samplePacket), .msg (.udpPacket ⟨[], none, none⟩), .msg (.plain .ping ())]

theorem stream_faithful_mixed :
    (V2BinaryUDPPacketReadWriter.writeAll [] mixedWrites).2 =
      [.udpPacket samplePacket, .plain .ping ()] ∧
    Reads V2BinaryUDPPacketReadWriter.readMsg (V2BinaryUDPPacketReadWriter.writeAll [] mixedWrites).1
      ((V2BinaryUDPPacketReadWriter.writeAll [] mixedWrites).2.map Message.normal) .eof :=
  ⟨rfl, (V2BinaryUDPPacketReadWriter.stream_faithful samples_inverse mixedWrites).1⟩

end

end Frp
