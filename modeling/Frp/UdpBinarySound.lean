import Frp.UdpBinaryForm

/-!
# The encoder of the binary UDP packet body, and round trips

The encoder produces the forms whose 16-byte addresses are not IPv4 addresses, so decoding
gives back the packet with its addresses in normal form.
-/

namespace Frp

/-! ## The encoder -/

def UDPAddr.normal (a : UDPAddr) : UDPAddr := { a with ip := (to4 a.ip).getD a.ip }

def UDPPacket.normal (p : UDPPacket) : UDPPacket :=
  ⟨p.content, p.localAddr.map UDPAddr.normal, p.remoteAddr.map UDPAddr.normal⟩

def AddrForm.Canonical : AddrForm → Prop
  | .v4 .. => True
  | .v6 ip .. => to4 ip = none

def BodyForm.Canonical (f : BodyForm) : Prop :=
  (∀ a ∈ f.localAddr, a.Canonical) ∧ f.remoteAddr.Canonical

open AddrForm UDPAddr Buffer Checked

variable {ip v : Str}

theorem to4_length (h : to4 ip = some v) : v.length = 4 := by
  unfold to4 at h
  split_ifs at h with h4 h16
  · cases h; exact h4
  · cases h; simp [h16.1, ipv6len]

theorem to4_of_length {ip : Str} (h : ip.length = 4) : to4 ip = some ip := by simp [to4, ipv4len, h]

theorem to16_of_length {ip : Str} (h : ip.length = 16) : to16 ip = some ip := by
  simp [to16, ipv4len, ipv6len, h]

theorem to16_of_to4_none (h4 : to4 ip = none) (h : to16 ip = some v) : v = ip ∧ ip.length = 16 := by
  unfold to16 at h
  split_ifs at h with h1 h2
  · simp [to4, h1] at h4
  · cases h; exact ⟨rfl, h2⟩

theorem to4_of_getD_v4 (h : (to4 ip).getD ip = v) (hv : v.length = 4) : to4 ip = some v := by
  cases h4 : to4 ip with
  | none =>
    obtain rfl : ip = v := by simpa [h4] using h
    rw [to4_of_length hv] at h4; cases h4
  | some => simpa [h4] using h

theorem to4_of_getD_v6 (h : (to4 ip).getD ip = v) (hv : v.length = 16) : to4 ip = none ∧ ip = v := by
  cases h4 : to4 ip with
  | none => exact ⟨rfl, by simpa [h4] using h⟩
  | some u =>
    obtain rfl : u = v := by simpa [h4] using h
    rw [to4_length h4] at hv; omega

theorem validateBinaryUDPAddr_iff {a : UDPAddr} {x : BinaryUDPAddr} : validateBinaryUDPAddr a = .ok x ↔
    ∃ f : AddrForm, f.Canonical ∧ x = f.binary ∧ a.normal = f.addr := by
  unfold validateBinaryUDPAddr
  rw [ite_fail_eq_ok]
  constructor
  · intro h
    obtain ⟨hport, h⟩ := h
    have hp : ((UInt16.ofNat a.port.toNat).toNat : Int) = a.port := by simp; omega
    cases h4 : to4 a.ip with
    | some ip =>
      simp only [h4, ite_fail_eq_ok] at h
      obtain ⟨hz, h⟩ := h
      cases h
      refine ⟨.v4 ip (UInt16.ofNat a.port.toNat) (to4_length h4), trivial, rfl, ?_⟩
      have hzone : a.zone = [] := by simpa using hz
      simp only [normal, h4, addr, binary, hp, hzone, Option.getD_some]
    | none =>
      simp only [h4] at h
      cases h16 : to16 a.ip with
      | none => simp [h16] at h
      | some ip =>
        obtain ⟨rfl, hlen⟩ := to16_of_to4_none h4 h16
        simp only [h16, ite_fail_eq_ok] at h
        obtain ⟨hz, hu, h⟩ := h
        cases h
        refine ⟨.v6 a.ip (UInt16.ofNat a.port.toNat) a.zone hlen (by omega) (by simpa using hu), h4, rfl, ?_⟩
        simp only [normal, h4, addr, binary, hp, Option.getD_none]
  · rintro ⟨f, hf, rfl, hn⟩
    have hip : (to4 a.ip).getD a.ip = f.binary.ip := congrArg ip hn
    have hport : a.port = f.binary.port.toNat := congrArg port hn
    have hzone : a.zone = f.binary.zone := congrArg zone hn
    have hlt := f.binary.port.toNat_lt
    have hp : UInt16.ofNat a.port.toNat = f.binary.port := by simp [hport]
    refine ⟨by omega, ?_⟩
    cases f with
    | v4 ip port hlen =>
      have h4 := to4_of_getD_v4 hip hlen
      simp [h4, hzone, hp, binary]
    | v6 ip port zone hlen hzlen hutf =>
      obtain ⟨h4, hip⟩ := to4_of_getD_v6 hip hlen
      have h16 : to16 a.ip = some ip := by rw [hip]; exact to16_of_length hlen
      simp only [h4, h16, hzone, hp, binary, hutf]
      rw [if_neg (by omega)]; simp

theorem putBinaryUDPAddr_fill {w z body : Str} {a : BinaryUDPAddr} {offset : Nat} (hb : body = w ++ z)
    (ho : offset = w.length) (hz : binaryUDPAddrLen a ≤ z.length) :
    putBinaryUDPAddr body offset a =
      .ok ((w ++ a.bytes) ++ z.drop (binaryUDPAddrLen a), (w ++ a.bytes).length) := by
  unfold binaryUDPAddrLen at hz
  unfold putBinaryUDPAddr
  rw [set_fill hb ho (by omega)]
  simp only [bind, Except.bind]
  rw [copyAt_fill rfl (by simp [ho]) (by simp; omega)]
  simp only
  rw [putUint_fill rfl (by simp [ho]; omega) (by simp; omega)]
  simp only
  rw [set_fill rfl (by simp [ho]; omega) (by simp; omega)]
  simp only
  rw [copyAt_fill rfl (by simp [ho]; omega) (by simp; omega)]
  have hw : w ++ [a.family] ++ a.ip ++ beBytes 2 a.port.toNat ++ [UInt8.ofNat a.zone.length] ++ a.zone =
      w ++ a.bytes := by
    simp [BinaryUDPAddr.bytes]
  simp only [hw, List.drop_drop, pure, Except.pure, Except.ok.injEq, Prod.mk.injEq, List.append_cancel_left_eq]
  constructor
  · congr 1
  · simp [BinaryUDPAddr.length_bytes, binaryUDPAddrLen, ho]
    omega

attribute [local simp] AddrForm.bytes UDPPacket.normal

section
variable {f : BodyForm} {p : UDPPacket} {b : Str}

theorem BodyForm.length_bytes (f : BodyForm) : f.bytes.length =
    1 + 2 + f.content.length + f.localBytes.length + binaryUDPAddrLen f.remoteAddr.binary := by
  simp [BodyForm.bytes, BodyForm.tail, BodyForm.payloadBytes]
  omega

theorem BodyForm.flags_eq (f : BodyForm) :
    (if f.localAddr.isSome then 1 else 0) ||| udpPacketFlagRemoteAddr = f.flags := by
  unfold BodyForm.flags
  cases f.localAddr with
  | none => decide
  | some => exact (show (1 : UInt8) ||| 2 = 3 by decide)

def BodyForm.localBinary (f : BodyForm) : BinaryUDPAddr := (f.localAddr.map AddrForm.binary).getD default

theorem putLocalAddr_fill {w z body : Str} {offset : Nat} (hb : body = w ++ z) (ho : offset = w.length)
    (hz : f.localBytes.length ≤ z.length) :
    putLocalAddr f.flags body offset f.localBinary =
      .ok ((w ++ f.localBytes) ++ z.drop f.localBytes.length, (w ++ f.localBytes).length) := by
  unfold putLocalAddr
  cases hl : f.localAddr with
  | none =>
    have hflag : ¬ f.flags &&& udpPacketFlagLocalAddr ≠ 0 := by rw [← f.flag_localAddr, hl]; nofun
    rw [if_neg hflag]; simp [BodyForm.localBytes, hl, hb, ho]
  | some a =>
    have hflag : f.flags &&& udpPacketFlagLocalAddr ≠ 0 := f.flag_localAddr.mp (hl ▸ rfl)
    have hbytes : f.localBytes = a.binary.bytes := by simp [BodyForm.localBytes, hl]
    have hbin : f.localBinary = a.binary := by simp [BodyForm.localBinary, hl]
    rw [hbytes, BinaryUDPAddr.length_bytes] at hz ⊢
    rw [if_pos hflag, hbin, putBinaryUDPAddr_fill hb ho hz]

theorem writeUDPPacketBody_form (f : BodyForm) :
    writeUDPPacketBody f.flags f.localBinary f.remoteAddr.binary f.content f.bytes.length = .ok f.bytes := by
  have hlen := f.length_bytes
  have h0 : set (ε := UDPError) (List.replicate f.bytes.length 0) 0 f.flags =
      .ok ([f.flags] ++ (List.replicate f.bytes.length 0).drop 1) :=
    set_fill (w := []) rfl rfl (by simp; omega)
  unfold writeUDPPacketBody
  simp only [h0, bind, Except.bind]
  rw [putLocalAddr_fill rfl (show 1 = [f.flags].length from rfl) (by simp; omega)]
  simp only
  rw [putBinaryUDPAddr_fill rfl rfl (by simp; omega)]
  simp only
  rw [putUint_fill rfl rfl (by simp; omega)]
  simp only
  rw [copyAt_fill rfl (by simp; omega) (by simp; omega)]
  have hdone : (List.replicate f.bytes.length (0 : UInt8)).drop f.bytes.length = [] := by simp
  simp only [List.drop_drop]
  rw [show 1 + f.localBytes.length + binaryUDPAddrLen f.remoteAddr.binary + 2 + f.content.length =
    f.bytes.length by omega, hdone]
  simp [BodyForm.bytes, BodyForm.tail, BodyForm.payloadBytes]

theorem encodeLocalAddr_iff {l : Option UDPAddr} {x : UInt8 × BinaryUDPAddr × Nat} :
    encodeLocalAddr l = .ok x ↔ ∃ g : Option AddrForm, (∀ a ∈ g, a.Canonical) ∧
      l.map normal = g.map addr ∧
      x = (if g.isSome then 1 else 0, (g.map binary).getD default,
        ((g.map bytes).getD []).length) := by
  cases l with
  | none =>
    constructor
    · intro h
      cases h; exact ⟨none, nofun, rfl, rfl⟩
    · intro h
      obtain ⟨g, -, hg, rfl⟩ := h
      cases g with
      | none => rfl
      | some => cases hg
  | some =>
    simp only [encodeLocalAddr, bind_eq_ok, wrap_eq_ok, validateBinaryUDPAddr_iff]
    constructor
    · intro h
      obtain ⟨y, ⟨a, hc, rfl, ha⟩, h⟩ := h
      cases h; exact ⟨some a, by simpa using hc, by simp [ha], by simp [udpPacketFlagLocalAddr]⟩
    · rintro ⟨g, hc, hg, rfl⟩
      cases g with
      | none => cases hg
      | some a =>
        refine ⟨a.binary, ⟨a, hc a rfl, rfl, by simpa using hg⟩, ?_⟩
        simp [udpPacketFlagLocalAddr, pure, Except.pure]

theorem encodeUDPPacketBinary_iff : encodeUDPPacketBinary (some p) = .ok b ↔
    b.length ≤ 65534 ∧ ∃ f : BodyForm, f.Canonical ∧ b = f.bytes ∧ p.normal = f.packet := by
  cases hr : p.remoteAddr with
  | none =>
    have hnone : p.normal.remoteAddr = none := by simp [hr]
    constructor
    · intro h; simp [encodeUDPPacketBinary, hr] at h
    · intro h
      obtain ⟨-, f, -, -, hf⟩ := h
      rw [hf] at hnone; cases hnone
  | some remote =>
    simp only [encodeUDPPacketBinary, hr, ite_fail_eq_ok, bind_eq_ok, wrap_eq_ok,
      encodeLocalAddr_iff, validateBinaryUDPAddr_iff]
    constructor
    · intro h
      obtain ⟨hc, _, ⟨g, hg, hl, rfl⟩, _, ⟨r, hrc, rfl, hra⟩, hmax, h⟩ := h
      let f : BodyForm := ⟨g, r, p.content, by omega⟩
      have hw := writeUDPPacketBody_form f
      rw [← f.flags_eq, f.length_bytes] at hw
      have hb : f.bytes = b := Except.ok.inj (hw.symm.trans h)
      refine ⟨?_, f, ⟨hg, hrc⟩, hb.symm, ?_⟩
      · have hlen := f.length_bytes
        simp only [defaultMaxFramePayloadSize] at hmax
        rw [← hb, hlen]
        change ¬ 2 + (1 + 2 + f.content.length + f.localBytes.length + binaryUDPAddrLen f.remoteAddr.binary) > _ at hmax
        omega
      · simp [hr, hl, hra, BodyForm.packet, f]
    · rintro ⟨hlen, f, hf, rfl, hp⟩
      have hcontent : p.content = f.content := congrArg UDPPacket.content hp
      have hlocal : p.localAddr.map normal = f.localAddr.map addr :=
        congrArg UDPPacket.localAddr hp
      have hremote : remote.normal = f.remoteAddr.addr := by
        have := congrArg UDPPacket.remoteAddr hp
        simpa [hr, BodyForm.packet] using this
      have hc := f.hcontent
      have hw := writeUDPPacketBody_form f
      rw [f.length_bytes] at hw hlen
      rw [← f.flags_eq] at hw
      rw [hcontent]
      refine ⟨by omega, _, ⟨f.localAddr, hf.1, hlocal, rfl⟩, _, ⟨f.remoteAddr, hf.2, rfl, hremote⟩, ?_, hw⟩
      simp only [defaultMaxFramePayloadSize]
      change ¬ 2 + (1 + 2 + f.content.length + f.localBytes.length + _) > _
      omega

end

/-! ## Round trips -/

theorem AddrForm.normal_addr_iff (a : AddrForm) : a.addr.normal = a.addr ↔ a.Canonical := by
  cases a with
  | v4 ip port hip => simp [normal, addr, binary, to4_of_length hip, AddrForm.Canonical]
  | v6 ip port zone hip =>
    simp only [normal, addr, binary, AddrForm.Canonical, mk.injEq, and_true]
    constructor
    · intro h; exact (to4_of_getD_v6 h hip).1
    · intro h; rw [h, Option.getD_none]

theorem BodyForm.normal_packet_iff (f : BodyForm) : f.packet.normal = f.packet ↔ f.Canonical := by
  simp only [UDPPacket.normal, BodyForm.packet, BodyForm.Canonical, UDPPacket.mk.injEq, Option.map_some,
    Option.some.injEq, normal_addr_iff, true_and]
  cases f.localAddr with
  | none => simp
  | some => simp [normal_addr_iff]

theorem decodeUDPPacketBinary_encode {p : UDPPacket} {b : Str} (h : encodeUDPPacketBinary (some p) = .ok b) :
    b.length ≤ 65534 ∧ decodeUDPPacketBinary b = .ok p.normal := by
  obtain ⟨hlen, f, -, hb, hp⟩ := encodeUDPPacketBinary_iff.mp h
  exact ⟨hlen, decodeUDPPacketBinary_iff.mpr ⟨hlen, f, hb, hp⟩⟩

/-- `a'` is `a` with its IP after `To4`: 4 bytes for IPv4 and IPv4-mapped addresses, else 16. -/
structure NormalOf (a a' : UDPAddr) : Prop where
  port : a'.port = a.port
  zone : a'.zone = a.zone
  ip : a'.ip = (to4 a.ip).getD a.ip
  length : a'.ip.length = if (to4 a.ip).isSome then 4 else 16

theorem AddrForm.normalOf {a : UDPAddr} {f : AddrForm} (h : a.normal = f.addr) : NormalOf a f.addr := by
  refine ⟨by rw [← h]; rfl, by rw [← h]; rfl, by rw [← h]; rfl, ?_⟩
  have hip : (to4 a.ip).getD a.ip = f.binary.ip := congrArg ip h
  cases f with
  | v4 ip port hlen => rw [to4_of_getD_v4 hip hlen]; exact hlen
  | v6 ip port zone hlen => rw [(to4_of_getD_v6 hip hlen).1]; exact hlen

theorem AddrForm.normalOf_option {l : Option UDPAddr} {g : Option AddrForm}
    (h : l.map normal = g.map addr) : Option.Rel NormalOf l (g.map addr) := by
  cases l with
  | none =>
    cases g with
    | none => exact .none
    | some => cases h
  | some =>
    cases g with
    | none => cases h
    | some => exact .some (normalOf (Option.some.inj h))

/-- A body the encoder returns decodes to the packet it was made from, up to the form of IPv4
addresses. -/
theorem udp_binary_round_trip {packet : Option UDPPacket} {b : Str} (h : encodeUDPPacketBinary packet = .ok b) :
    b.length ≤ 65534 ∧ ∃ p q, packet = some p ∧ decodeUDPPacketBinary b = .ok q ∧ q.content = p.content ∧
      Option.Rel NormalOf p.localAddr q.localAddr ∧ Option.Rel NormalOf p.remoteAddr q.remoteAddr := by
  cases packet with
  | none => simp [encodeUDPPacketBinary] at h
  | some p =>
    obtain ⟨hlen, f, -, hb, hp⟩ := encodeUDPPacketBinary_iff.mp h
    refine ⟨hlen, p, f.packet, rfl, decodeUDPPacketBinary_iff.mpr ⟨hlen, f, hb, rfl⟩,
      (congrArg UDPPacket.content hp).symm, ?_, ?_⟩
    · exact normalOf_option (congrArg UDPPacket.localAddr hp)
    · exact normalOf_option (g := some f.remoteAddr) (congrArg UDPPacket.remoteAddr hp)

def samplePacket : UDPPacket where
  content := lit "payload"
  localAddr := some ⟨[0x20, 0x01, 0x0d, 0xb8, 0, 0, 0, 0, 0, 0, 0, 0, 0, 0, 0, 1], 1234, lit "en0"⟩
  remoteAddr := some ⟨v4InV6Prefix ++ [203, 0, 113, 9], 54321, []⟩

def sampleBody : Str :=
  [3, 6, 0x20, 0x01, 0x0d, 0xb8, 0, 0, 0, 0, 0, 0, 0, 0, 0, 0, 0, 1, 0x04, 0xd2, 3, 101, 110, 48,
    4, 203, 0, 113, 9, 0xd4, 0x31, 0, 0, 7, 112, 97, 121, 108, 111, 97, 100]

theorem udp_binary_round_trip_sample : encodeUDPPacketBinary (some samplePacket) = .ok sampleBody ∧
    ∃ p q, some samplePacket = some p ∧ decodeUDPPacketBinary sampleBody = .ok q ∧ q.content = p.content ∧
      Option.Rel NormalOf p.localAddr q.localAddr ∧ Option.Rel NormalOf p.remoteAddr q.remoteAddr :=
  ⟨rfl, (@udp_binary_round_trip (some samplePacket) sampleBody rfl).2⟩

/-- The decoder never reads outside of the body, and it succeeds on the bytes of the forms that fit
a frame, and on no others. -/
theorem udp_binary_grammar (b : Str) : decodeUDPPacketBinary b ≠ .error .outOfRange ∧
    ((∃ p, decodeUDPPacketBinary b = .ok p) ↔ b.length ≤ 65534 ∧ ∃ f : BodyForm, b = f.bytes) := by
  refine ⟨decodeUDPPacketBinary_inRange b, ?_⟩
  constructor
  · intro h
    obtain ⟨p, hp⟩ := h
    obtain ⟨hlen, f, hf, -⟩ := decodeUDPPacketBinary_iff.mp hp
    exact ⟨hlen, f, hf⟩
  · rintro ⟨hlen, f, hf⟩
    exact ⟨f.packet, decodeUDPPacketBinary_iff.mpr ⟨hlen, f, hf, rfl⟩⟩

/-- An accepted body is what its packet encodes to exactly if no family 6 address in it is IPv4. -/
theorem udp_binary_canonical_iff {b : Str} {p : UDPPacket} (h : decodeUDPPacketBinary b = .ok p) :
    encodeUDPPacketBinary (some p) = .ok b ↔ ∀ f : BodyForm, b = f.bytes → f.Canonical := by
  obtain ⟨hlen, f, hb, rfl⟩ := decodeUDPPacketBinary_iff.mp h
  constructor
  · intro he g hg
    obtain ⟨-, f', hf', hb', hp'⟩ := encodeUDPPacketBinary_iff.mp he
    have hpg : f.packet = g.packet :=
      Except.ok.inj (h.symm.trans (decodeUDPPacketBinary_iff.mpr ⟨hlen, g, hg, rfl⟩))
    have hpf : f.packet = f'.packet :=
      Except.ok.inj (h.symm.trans (decodeUDPPacketBinary_iff.mpr ⟨hlen, f', hb', rfl⟩))
    rw [← g.normal_packet_iff, ← hpg, hp', hpf]
  · intro hc
    exact encodeUDPPacketBinary_iff.mpr ⟨hlen, f, hc f hb, hb, f.normal_packet_iff.mpr (hc f hb)⟩

theorem udp_binary_canonical_sample : decodeUDPPacketBinary sampleBody = .ok samplePacket.normal ∧
    (encodeUDPPacketBinary (some samplePacket.normal) = .ok sampleBody ↔
      ∀ f : BodyForm, sampleBody = f.bytes → f.Canonical) :=
  ⟨rfl, udp_binary_canonical_iff rfl⟩

def mappedPacket (zone : Str) : UDPPacket := ⟨[], none, some ⟨v4InV6Prefix ++ [203, 0, 113, 9], 54321, zone⟩⟩

def mappedBody : Str := [2, 6] ++ v4InV6Prefix ++ [203, 0, 113, 9, 0xd4, 0x31, 0, 0, 0]
def mappedZoneBody : Str := [2, 6] ++ v4InV6Prefix ++ [203, 0, 113, 9, 0xd4, 0x31, 1, 122, 0, 0]

theorem mapped_not_canonical : decodeUDPPacketBinary mappedBody = .ok (mappedPacket []) ∧
    encodeUDPPacketBinary (some (mappedPacket [])) = .ok [2, 4, 203, 0, 113, 9, 0xd4, 0x31, 0, 0, 0] ∧
    decodeUDPPacketBinary mappedZoneBody = .ok (mappedPacket (lit "z")) ∧
    encodeUDPPacketBinary (some (mappedPacket (lit "z"))) = .error (.err (.remoteAddr .ipv4Zone)) :=
  ⟨rfl, rfl, rfl, rfl⟩

end Frp
