import Frp.UdpBinary

/-!
# The format of the binary UDP packet body, and its decoder

`AddrForm` and `BodyForm` are the format, with its conditions as fields. The decoder accepts
the bytes of a form and nothing else.
-/

namespace Frp

inductive AddrForm
  | v4 (ip : Str) (port : UInt16) (hip : ip.length = 4)
  | v6 (ip : Str) (port : UInt16) (zone : Str) (hip : ip.length = 16) (hlen : zone.length ≤ 255)
      (hutf : zone.validUTF8 = true)

namespace AddrForm

def binary : AddrForm → BinaryUDPAddr
  | v4 ip port _ => ⟨4, ip, port, []⟩
  | v6 ip port zone _ _ _ => ⟨6, ip, port, zone⟩

def addr (f : AddrForm) : UDPAddr := ⟨f.binary.ip, f.binary.port.toNat, f.binary.zone⟩

end AddrForm

def BinaryUDPAddr.bytes (a : BinaryUDPAddr) : Str :=
  a.family :: (a.ip ++ (beBytes 2 a.port.toNat ++ UInt8.ofNat a.zone.length :: a.zone))

def AddrForm.bytes (f : AddrForm) : Str := f.binary.bytes

attribute [local simp] binaryUDPAddrLen

open AddrForm Checked Buffer

@[simp] theorem BinaryUDPAddr.length_bytes (a : BinaryUDPAddr) : a.bytes.length = binaryUDPAddrLen a := by
  simp [BinaryUDPAddr.bytes]
  omega

structure BodyForm where
  localAddr : Option AddrForm
  remoteAddr : AddrForm
  content : Str
  hcontent : content.length ≤ maxUDPPayloadSize

namespace BodyForm

def flags (f : BodyForm) : UInt8 := if f.localAddr.isSome then 3 else 2

def localBytes (f : BodyForm) : Str := (f.localAddr.map AddrForm.bytes).getD []

def payloadBytes (f : BodyForm) : Str := beBytes 2 f.content.length ++ f.content

def tail (f : BodyForm) : Str := f.localBytes ++ (f.remoteAddr.bytes ++ f.payloadBytes)

def bytes (f : BodyForm) : Str := f.flags :: f.tail

def packet (f : BodyForm) : UDPPacket := ⟨f.content, f.localAddr.map AddrForm.addr, some f.remoteAddr.addr⟩

end BodyForm

/-! ## Reading an address -/

def IsFamily (fam : UInt8) (ip : Str) : Prop := fam = 4 ∧ ip.length = 4 ∨ fam = 6 ∧ ip.length = 16

namespace AddrForm

theorem isFamily (f : AddrForm) : IsFamily f.binary.family f.binary.ip := by
  cases f with
  | v4 ip port hip => exact .inl ⟨rfl, hip⟩
  | v6 ip port zone hip => exact .inr ⟨rfl, hip⟩

theorem zone_length_le (f : AddrForm) : f.binary.zone.length ≤ 255 := by
  cases f with
  | v4 => exact Nat.zero_le _
  | v6 ip port zone _ hlen => exact hlen

theorem zone_valid (f : AddrForm) : f.binary.zone.validUTF8 = true := by
  cases f with
  | v4 => rfl
  | v6 ip port zone _ _ hutf => exact hutf

theorem zone_of_v4 (f : AddrForm) :
    ¬ (f.binary.family = 4 ∧ UInt8.ofNat f.binary.zone.length ≠ 0) := by
  cases f with
  | v4 => exact fun h => h.2 rfl
  | v6 => exact fun h => absurd (show (6 : UInt8) = 4 from h.1) (by decide)

end AddrForm

theorem beNat_two_lt (l : Str) (h : l.length = 2) : beNat l < 65536 := by
  have := beNat_lt l
  rw [h] at this; exact this

attribute [local simp] AddrForm.bytes

section
variable {pre s ip port u : Str} {fam zl : UInt8}

theorem readBinaryUDPAddr_eval (hfam : IsFamily fam ip) (hport : port.length = 2) :
    readBinaryUDPAddr (pre ++ fam :: (ip ++ (port ++ zl :: u))) pre.length =
      if u.length < zl.toNat then .fail .truncatedZone
      else if fam = 4 ∧ zl ≠ 0 then .fail .ipv4Zone
      else if !Str.validUTF8 (u.take zl.toNat) then .fail .zoneNotUTF8
      else .ok (⟨ip, beNat port, u.take zl.toNat⟩, pre.length + (ip.length + zl.toNat + 4)) := by
  have hlen : (pre ++ fam :: (ip ++ (port ++ zl :: u))).length = pre.length + (ip.length + u.length + 4) := by
    simp [hport]
    omega
  have hget : get (ε := AddrError) (pre ++ fam :: (ip ++ (port ++ zl :: u))) pre.length = .ok fam :=
    get_part rfl rfl
  have hipl : addrIPLen fam = .ok ip.length := by
    obtain ⟨rfl, h⟩ | ⟨rfl, h⟩ := hfam
    · rw [h]; rfl
    · rw [h]; rfl
  have hip : slice (ε := AddrError) (pre ++ fam :: (ip ++ (port ++ zl :: u))) (pre.length + 1)
      (pre.length + 1 + ip.length) = .ok ip :=
    slice_part (u := pre ++ [fam]) (v := port ++ zl :: u) (by simp) (by simp) (by simp)
  have hpt : slice (ε := AddrError) (pre ++ fam :: (ip ++ (port ++ zl :: u)))
      (pre.length + 1 + ip.length) (pre.length + 1 + ip.length + 2) = .ok port :=
    slice_part (u := pre ++ fam :: ip) (v := zl :: u) (by simp) (by simp; omega) (by simp [hport]; omega)
  have hzl : get (ε := AddrError) (pre ++ fam :: (ip ++ (port ++ zl :: u)))
      (pre.length + 1 + ip.length + 2) = .ok zl :=
    get_part (u := pre ++ fam :: (ip ++ port)) (v := u) (by simp) (by simp [hport]; omega)
  unfold readBinaryUDPAddr
  rw [if_neg (by omega)]
  simp only [hget, hipl, bind, Except.bind]
  rw [if_neg (by omega)]
  simp only [hip, hpt, hzl]
  by_cases hu : u.length < zl.toNat
  · rw [if_pos (by omega), if_pos hu]
  · rw [if_neg (by omega), if_neg hu]
    have hz := slice_rest (ε := AddrError) (b := pre ++ fam :: (ip ++ (port ++ zl :: u)))
      (u := pre ++ fam :: (ip ++ (port ++ [zl]))) (v := u) (i := pre.length + 1 + ip.length + 2 + 1)
      (j := pre.length + 1 + ip.length + 2 + 1 + zl.toNat) (by simp) (by simp [hport]; omega) (by omega) (by omega)
    have hn : pre.length + 1 + ip.length + 2 + 1 + zl.toNat = pre.length + (ip.length + zl.toNat + 4) := by omega
    rw [Nat.add_sub_cancel_left] at hz
    simp only [hz]
    simp only [hn]

theorem readBinaryUDPAddr_shape (pre s : Str) :
    (∃ e, readBinaryUDPAddr (pre ++ s) pre.length = .fail e) ∨
      ∃ fam ip port zl u, IsFamily fam ip ∧ port.length = 2 ∧ s = fam :: (ip ++ (port ++ zl :: u)) := by
  cases s with
  | nil => exact .inl ⟨.truncatedFamily, by simp [readBinaryUDPAddr]⟩
  | cons fam t =>
    have hget : get (ε := AddrError) (pre ++ fam :: t) pre.length = .ok fam := get_part rfl rfl
    have hlt : ¬ pre.length ≥ (pre ++ fam :: t).length := by simp
    by_cases hfam : fam = 4 ∨ fam = 6
    · obtain ⟨k, hk, hlen⟩ : ∃ k, addrIPLen fam = .ok k ∧ (fam = 4 ∧ k = 4 ∨ fam = 6 ∧ k = 16) := by
        obtain rfl | rfl := hfam
        · exact ⟨4, rfl, .inl ⟨rfl, rfl⟩⟩
        · exact ⟨16, rfl, .inr ⟨rfl, rfl⟩⟩
      by_cases ht : t.length < k + 3
      · refine .inl ⟨.truncatedAddress, ?_⟩
        unfold readBinaryUDPAddr
        rw [if_neg hlt]
        simp only [hget, hk, bind, Except.bind]
        rw [if_pos (by simp; omega)]
      · have hz : t.drop (k + 2) ≠ [] := by simp; omega
        obtain ⟨zl, u, hu⟩ := List.exists_cons_of_ne_nil hz
        have hsplit : t = t.take k ++ ((t.drop k).take 2 ++ zl :: u) := by
          rw [← hu, ← List.drop_drop, List.take_append_drop, List.take_append_drop]
        refine .inr ⟨fam, t.take k, (t.drop k).take 2, zl, u, ?_, by simp; omega, by rw [← hsplit]⟩
        rcases hlen with ⟨h1, h2⟩ | ⟨h1, h2⟩
        · exact .inl ⟨h1, by simp; omega⟩
        · exact .inr ⟨h1, by simp; omega⟩
    · rw [not_or] at hfam
      refine .inl ⟨.unknownFamily fam, ?_⟩
      unfold readBinaryUDPAddr; simp [hget, addrIPLen, hfam, fail, bind, Except.bind]

theorem readBinaryUDPAddr_inRange (body : Str) (offset : Nat) :
    readBinaryUDPAddr body offset ≠ .error .outOfRange := by
  by_cases ho : offset ≥ body.length
  · simp [readBinaryUDPAddr, ho]
  · obtain ⟨pre, s, rfl, rfl⟩ : ∃ pre s, body = pre ++ s ∧ offset = pre.length :=
      ⟨body.take offset, body.drop offset, by simp, by simp; omega⟩
    rcases readBinaryUDPAddr_shape pre s with ⟨e, he⟩ | ⟨fam, ip, port, zl, u, hfam, hport, rfl⟩
    · simp [he]
    · rw [readBinaryUDPAddr_eval hfam hport]
      split_ifs <;> simp

theorem readBinaryUDPAddr_iff {a : UDPAddr} {n : Nat} :
    readBinaryUDPAddr (pre ++ s) pre.length = .ok (a, n) ↔
      ∃ (f : AddrForm) (rest : Str), s = f.bytes ++ rest ∧ a = f.addr ∧ n = pre.length + f.bytes.length := by
  constructor
  · intro h
    rcases readBinaryUDPAddr_shape pre s with ⟨e, he⟩ | ⟨fam, ip, port, zl, u, hfam, hport, rfl⟩
    · simp [he] at h
    · rw [readBinaryUDPAddr_eval hfam hport] at h
      simp only [ite_fail_eq_ok] at h
      obtain ⟨h1, h2, h3, h⟩ := h
      have hp : (UInt16.ofNat (beNat port)).toNat = beNat port := by
        have := beNat_two_lt port hport
        simp
        omega
      have hpb : beBytes 2 (beNat port) = port := by rw [← hport]; exact beBytes_beNat port
      have hzl : UInt8.ofNat (min zl.toNat u.length) = zl := by
        rw [Nat.min_eq_left (by omega)]; simp
      cases h
      obtain ⟨rfl, hip⟩ | ⟨rfl, hip⟩ := hfam
      · obtain rfl : zl = 0 := by simpa using h2
        refine ⟨.v4 ip (UInt16.ofNat (beNat port)) hip, u, ?_, ?_, ?_⟩
        · simp [binary, BinaryUDPAddr.bytes, hp, hpb]
        · simp [addr, binary, hp]
        · simp [binary]
          omega
      · have hzlt := zl.toNat_lt
        refine ⟨.v6 ip (UInt16.ofNat (beNat port)) (u.take zl.toNat) hip (by simp; omega) (by simpa using h3),
          u.drop zl.toNat, ?_, ?_, ?_⟩
        · simp [binary, BinaryUDPAddr.bytes, hp, hpb, hzl]
        · simp [addr, binary, hp]
        · simp [binary]
          omega
  · rintro ⟨f, rest, rfl, rfl, rfl⟩
    have hz := f.zone_length_le
    have hzl : (UInt8.ofNat f.binary.zone.length).toNat = f.binary.zone.length := by simp; omega
    have heval := @readBinaryUDPAddr_eval pre _ _ (f.binary.zone ++ rest) _ (UInt8.ofNat f.binary.zone.length)
      f.isFamily (beBytes_length 2 f.binary.port.toNat)
    rw [hzl, if_neg (by simp), if_neg f.zone_of_v4, List.take_left, f.zone_valid, if_neg (by simp)] at heval
    have hbytes : f.bytes ++ rest = f.binary.family :: (f.binary.ip ++ (beBytes 2 f.binary.port.toNat ++
        UInt8.ofNat f.binary.zone.length :: (f.binary.zone ++ rest))) := by
      simp [BinaryUDPAddr.bytes]
    have hport : beNat (beBytes 2 f.binary.port.toNat) = f.binary.port.toNat :=
      beNat_beBytes 2 f.binary.port.toNat_lt
    rw [hbytes, heval, hport]
    simp only [addr, bytes, BinaryUDPAddr.length_bytes, binaryUDPAddrLen]
    congr 2
    omega

end

/-! ## Reading the payload -/

section
variable {pre s two t content : Str}

theorem readUDPPayload_eval (h2 : two.length = 2) :
    readUDPPayload (pre ++ (two ++ t)) pre.length =
      if beNat two > maxUDPPayloadSize then .fail (.payloadLimit (beNat two))
      else if (t.length : Int) < beNat two then .fail (.truncatedPayload t.length (beNat two))
      else if (t.length : Int) > beNat two then .fail (.trailingBytes (t.length - beNat two))
      else .ok t := by
  have hlen : (pre ++ (two ++ t)).length = pre.length + 2 + t.length := by simp [h2]; omega
  have htwo : slice (ε := UDPError) (pre ++ (two ++ t)) pre.length (pre.length + 2) = .ok two :=
    slice_part rfl rfl (by rw [h2])
  have hrem : ((pre ++ (two ++ t)).length : Int) - (pre.length + 2 : Nat) = t.length := by omega
  unfold readUDPPayload
  rw [if_neg (by omega)]
  simp only [htwo, bind, Except.bind, hrem]
  split_ifs with h1 h3 h4
  · rfl
  · rfl
  · rfl
  · exact slice_part (u := pre ++ two) (v := []) (by simp) (by simp [h2]) (by simp [h2]; omega)

theorem readUDPPayload_shape (pre s : Str) :
    (∃ e, readUDPPayload (pre ++ s) pre.length = .fail e) ∨ ∃ two t, two.length = 2 ∧ s = two ++ t := by
  by_cases hs : s.length < 2
  · exact .inl ⟨.truncatedPayloadLength, by simp [readUDPPayload, hs]⟩
  · exact .inr ⟨s.take 2, s.drop 2, by simp; omega, by simp⟩

theorem readUDPPayload_inRange (pre s : Str) : readUDPPayload (pre ++ s) pre.length ≠ .error .outOfRange := by
  rcases readUDPPayload_shape pre s with ⟨e, he⟩ | ⟨two, t, h2, rfl⟩
  · simp [he]
  · rw [readUDPPayload_eval h2]
    split_ifs <;> simp

theorem readUDPPayload_iff : readUDPPayload (pre ++ s) pre.length = .ok content ↔
    content.length ≤ maxUDPPayloadSize ∧ s = beBytes 2 content.length ++ content := by
  constructor
  · intro h
    rcases readUDPPayload_shape pre s with ⟨e, he⟩ | ⟨two, t, h2, rfl⟩
    · simp [he] at h
    · rw [readUDPPayload_eval h2] at h
      simp only [ite_fail_eq_ok] at h
      obtain ⟨h3, h4, h5, h⟩ := h
      cases h
      have hlen : content.length = beNat two := by omega
      have htwo : beBytes 2 (beNat two) = two := by rw [← h2]; exact beBytes_beNat two
      exact ⟨by omega, by rw [hlen, htwo]⟩
  · rintro ⟨hmax, rfl⟩
    have hn : beNat (beBytes 2 content.length) = content.length :=
      beNat_beBytes 2 (by unfold maxUDPPayloadSize at hmax; omega)
    rw [readUDPPayload_eval (beBytes_length 2 _), hn]
    simp only [ite_fail_eq_ok]; exact ⟨by omega, by omega, by omega, trivial⟩

end

/-! ## The decoder -/

theorem flags_valid_iff (flags : UInt8) :
    (¬ flags &&& ~~~udpPacketValidFlags ≠ 0 ∧ ¬ flags &&& udpPacketFlagRemoteAddr = 0) ↔ flags = 2 ∨ flags = 3 := by
  revert flags
  apply byte_forall
  decide +kernel

theorem BodyForm.flag_localAddr (f : BodyForm) : f.localAddr.isSome ↔ f.flags &&& udpPacketFlagLocalAddr ≠ 0 := by
  unfold BodyForm.flags
  cases f.localAddr with
  | none => decide
  | some => exact iff_of_true rfl (show (3 : UInt8) &&& 1 ≠ 0 by decide)

section
variable {pre s : Str} {inAddr : AddrError → UDPError} {flags flag : UInt8} {a : Option UDPAddr} {n : Nat}

theorem readFlaggedAddr_inRange (body : Str) (offset : Nat) :
    readFlaggedAddr inAddr flags flag body offset ≠ .error .outOfRange := by
  unfold readFlaggedAddr
  split_ifs
  · apply bind_ne_outOfRange (wrap_ne_outOfRange (readBinaryUDPAddr_inRange body offset))
    intro r _; simp [pure, Except.pure]
  · simp

theorem readFlaggedAddr_iff : readFlaggedAddr inAddr flags flag (pre ++ s) pre.length = .ok (a, n) ↔
    ∃ (f : Option AddrForm) (rest : Str), (f.isSome ↔ flags &&& flag ≠ 0) ∧
      s = (f.map bytes).getD [] ++ rest ∧ a = f.map addr ∧
      n = pre.length + ((f.map bytes).getD []).length := by
  unfold readFlaggedAddr
  by_cases hf : flags &&& flag ≠ 0
  · rw [if_pos hf, bind_eq_ok]
    simp only [wrap_eq_ok]
    constructor
    · intro h
      obtain ⟨⟨addr, m⟩, hr, h⟩ := h
      cases h
      obtain ⟨f, rest, hs, ha, hn⟩ := readBinaryUDPAddr_iff.mp hr
      exact ⟨some f, rest, iff_of_true rfl hf, hs, by simp [ha], hn⟩
    · intro h
      obtain ⟨f, rest, hsome, hs, ha, hn⟩ := h
      obtain ⟨f, rfl⟩ := Option.isSome_iff_exists.mp (hsome.mpr hf)
      exact ⟨(f.addr, n), readBinaryUDPAddr_iff.mpr ⟨f, rest, hs, rfl, hn⟩, by rw [ha]; rfl⟩
  · rw [if_neg hf]
    constructor
    · intro h
      cases h; exact ⟨none, s, iff_of_false nofun hf, rfl, rfl, rfl⟩
    · rintro ⟨f, rest, hsome, hs, rfl, rfl⟩
      obtain rfl : f = none := by simpa [hf] using hsome
      rfl

end

attribute [local simp] BodyForm.tail

section
variable {b t : Str} {flags : UInt8} {p : UDPPacket}

def decodeRest (flags : UInt8) (t : Str) : Checked UDPError UDPPacket := do
  let (localAddr, offset) ← readFlaggedAddr .localAddr flags udpPacketFlagLocalAddr ([flags] ++ t) [flags].length
  let (remoteAddr, offset) ← readFlaggedAddr .remoteAddr flags udpPacketFlagRemoteAddr ([flags] ++ t) offset
  let content ← readUDPPayload ([flags] ++ t) offset
  return { content, localAddr, remoteAddr }

theorem decodeUDPPacketBinary_cons (flags : UInt8) (t : Str) : decodeUDPPacketBinary (flags :: t) =
    if (flags :: t).length < 3 then .fail (.bodyTooShort (flags :: t).length)
    else if 2 + (flags :: t).length > defaultMaxFramePayloadSize then
      .fail (.frameLimit (2 + (flags :: t).length))
    else if flags &&& ~~~udpPacketValidFlags ≠ 0 then .fail (.reservedFlags flags)
    else if flags &&& udpPacketFlagRemoteAddr = 0 then .fail .missingRemoteAddr
    else decodeRest flags t := rfl

theorem readFlaggedAddr_split {inAddr : AddrError → UDPError} {flag : UInt8} {pre s : Str} {r : Option UDPAddr × Nat}
    (h : readFlaggedAddr inAddr flags flag (pre ++ s) pre.length = .ok r) :
    ∃ (f : Option AddrForm) (rest : Str), (f.isSome ↔ flags &&& flag ≠ 0) ∧
      s = (f.map bytes).getD [] ++ rest ∧ r.1 = f.map addr ∧
      pre ++ s = (pre ++ (f.map bytes).getD []) ++ rest ∧
      r.2 = (pre ++ (f.map bytes).getD []).length := by
  obtain ⟨f, rest, hf, hs, ha, hn⟩ := readFlaggedAddr_iff.mp h
  exact ⟨f, rest, hf, hs, ha, by rw [hs, List.append_assoc], by rw [hn, List.length_append]⟩

theorem decodeUDPPacketBinary_inRange (b : Str) : decodeUDPPacketBinary b ≠ .error .outOfRange := by
  cases b with
  | nil => simp [decodeUDPPacketBinary]
  | cons =>
    rw [decodeUDPPacketBinary_cons]
    split_ifs
    · simp
    · simp
    · simp
    · simp
    · apply bind_ne_outOfRange (readFlaggedAddr_inRange _ _)
      intro r1 h1
      apply bind_ne_outOfRange (readFlaggedAddr_inRange _ _)
      intro r2 h2
      obtain ⟨f1, rest1, -, -, -, hb1, hn1⟩ := readFlaggedAddr_split h1
      rw [hb1, hn1] at h2
      obtain ⟨f2, rest2, -, -, -, hb2, hn2⟩ := readFlaggedAddr_split h2
      apply bind_ne_outOfRange
      · rw [hb1, hb2, hn2]; exact readUDPPayload_inRange _ _
      · intro content _; simp [pure, Except.pure]

theorem form_of_decodeUDPPacketBinary (h : decodeUDPPacketBinary b = .ok p) :
    b.length ≤ 65534 ∧ ∃ f : BodyForm, b = f.bytes ∧ p = f.packet := by
  cases b with
  | nil => simp [decodeUDPPacketBinary] at h
  | cons flags =>
    rw [decodeUDPPacketBinary_cons] at h
    simp only [ite_fail_eq_ok] at h
    obtain ⟨-, hmax, hres, hrem, h⟩ := h
    have hflags := (flags_valid_iff flags).mp ⟨hres, hrem⟩
    obtain ⟨r1, h1, h⟩ := bind_eq_ok.mp h
    obtain ⟨r2, h2, h⟩ := bind_eq_ok.mp h
    obtain ⟨content, h3, h⟩ := bind_eq_ok.mp h
    obtain ⟨f1, rest1, hf1, hs1, ha1, hb1, hn1⟩ := readFlaggedAddr_split h1
    rw [hb1, hn1] at h2
    obtain ⟨f2, rest2, hf2, hs2, ha2, hb2, hn2⟩ := readFlaggedAddr_split h2
    rw [hb1, hb2, hn2] at h3
    obtain ⟨hc, hs3⟩ := readUDPPayload_iff.mp h3
    obtain ⟨f2, rfl⟩ := Option.isSome_iff_exists.mp (hf2.mpr hrem)
    refine ⟨by simp only [defaultMaxFramePayloadSize] at hmax; omega, ⟨f1, f2, content, hc⟩, ?_, ?_⟩
    · have hfl : flags = BodyForm.flags ⟨f1, f2, content, hc⟩ := by
        unfold BodyForm.flags
        obtain rfl | rfl := hflags
        · rw [if_neg (by rw [hf1]; decide)]
        · rw [if_pos (by rw [hf1]; decide)]
      rw [hs1, hs2, hs3, hfl]; rfl
    · cases h; simp [BodyForm.packet, ha1, ha2]

theorem BodyForm.decode_bytes (f : BodyForm) (hlen : f.bytes.length ≤ 65534) :
    decodeUDPPacketBinary f.bytes = .ok f.packet := by
  have hflags := (flags_valid_iff f.flags).mpr (by unfold BodyForm.flags; split_ifs <;> simp)
  have hmin : 3 ≤ f.bytes.length := by
    simp [BodyForm.bytes, BodyForm.payloadBytes]
    omega
  have hb1 : [f.flags] ++ f.tail = ([f.flags] ++ f.localBytes) ++ (f.remoteAddr.bytes ++ f.payloadBytes) := by
    simp
  have hb2 : [f.flags] ++ f.tail = ([f.flags] ++ f.localBytes ++ f.remoteAddr.bytes) ++ f.payloadBytes := by
    simp
  have h1 : readFlaggedAddr .localAddr f.flags udpPacketFlagLocalAddr ([f.flags] ++ f.tail) [f.flags].length =
      .ok (f.localAddr.map addr, ([f.flags] ++ f.localBytes).length) :=
    readFlaggedAddr_iff.mpr ⟨f.localAddr, _, f.flag_localAddr, rfl, rfl, by simp [BodyForm.localBytes]; omega⟩
  have h2 : readFlaggedAddr .remoteAddr f.flags udpPacketFlagRemoteAddr ([f.flags] ++ f.tail)
      ([f.flags] ++ f.localBytes).length =
      .ok (some f.remoteAddr.addr, ([f.flags] ++ f.localBytes ++ f.remoteAddr.bytes).length) := by
    exact readFlaggedAddr_iff.mpr ⟨some f.remoteAddr, _, iff_of_true rfl hflags.2, rfl, rfl, by simp; omega⟩
  have h3 : readUDPPayload ([f.flags] ++ f.tail) ([f.flags] ++ f.localBytes ++ f.remoteAddr.bytes).length =
      .ok f.content := by
    rw [hb2]; exact readUDPPayload_iff.mpr ⟨f.hcontent, rfl⟩
  change decodeUDPPacketBinary (f.flags :: f.tail) = _
  rw [decodeUDPPacketBinary_cons]
  simp only [ite_fail_eq_ok]
  refine ⟨?_, ?_, hflags.1, hflags.2, ?_⟩
  · exact Nat.not_lt.mpr hmin
  · change ¬ 2 + f.bytes.length > _
    unfold defaultMaxFramePayloadSize
    omega
  · simp only [decodeRest, h1, h2, h3, bind, Except.bind]; rfl

theorem decodeUDPPacketBinary_iff : decodeUDPPacketBinary b = .ok p ↔
    b.length ≤ 65534 ∧ ∃ f : BodyForm, b = f.bytes ∧ p = f.packet := by
  refine ⟨form_of_decodeUDPPacketBinary, ?_⟩
  rintro ⟨hlen, f, rfl, rfl⟩
  exact f.decode_bytes hlen

end

end Frp
