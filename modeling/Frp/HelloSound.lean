import Frp.Hello
import Frp.WireSound

/-!
# Both ends negotiate the same

The server answers a hello exactly if it offers what the server needs, and the client's
checks let the answer through. The transcript determines the two payloads.
-/

namespace Frp

/-! ## Selection -/

def ClientHello.Acceptable (h : ClientHello) : Prop :=
  messageCodecJSON ∈ h.capabilities.message.codecs ∧ h.capabilities.crypto.clientRandom.length = cryptoRandomSize ∧
    ∃ a ∈ h.capabilities.crypto.algorithms, a ∈ supportedAEADAlgorithms

def FirstSupported (offered : List Str) (a : Str) : Prop :=
  ∃ before after, offered = before ++ a :: after ∧ a ∈ supportedAEADAlgorithms ∧
    ∀ b ∈ before, b ∉ supportedAEADAlgorithms

open HelloJSON

theorem supports_iff {list : List Str} {value : Str} : supports list value = true ↔ value ∈ list := by
  simp [supports]

variable {offered : List Str} {a : Str}

theorem selectAEADAlgorithm_first (h : selectAEADAlgorithm offered = some a) : FirstSupported offered a := by
  induction offered with
  | nil => cases h
  | cons b rest ih =>
    unfold selectAEADAlgorithm at h
    split at h
    next hb => cases h; exact ⟨[], rest, rfl, supports_iff.mp hb, by simp⟩
    next hb =>
      obtain ⟨before, after, rfl, ha, hbefore⟩ := ih h
      refine ⟨b :: before, after, rfl, ha, fun x hx => ?_⟩
      rcases List.mem_cons.mp hx with rfl | hx
      · exact fun hmem => hb (supports_iff.mpr hmem)
      · exact hbefore x hx

theorem selectAEADAlgorithm_isSome :
    (selectAEADAlgorithm offered).isSome = true ↔ ∃ a ∈ offered, a ∈ supportedAEADAlgorithms := by
  induction offered with
  | nil => simp [selectAEADAlgorithm]
  | cons b rest ih =>
    unfold selectAEADAlgorithm
    split
    next hb => exact ⟨fun _ => ⟨b, List.mem_cons_self, supports_iff.mp hb⟩, fun _ => rfl⟩
    next hb =>
      rw [ih]
      constructor
      · rintro ⟨a, hm, ha⟩
        exact ⟨a, List.mem_cons_of_mem _ hm, ha⟩
      · rintro ⟨a, hm, ha⟩
        rcases List.mem_cons.mp hm with rfl | hm
        · exact absurd (supports_iff.mpr ha) hb
        · exact ⟨a, hm, ha⟩

theorem FirstSupported.mem (h : FirstSupported offered a) : a ∈ offered := by
  obtain ⟨before, after, rfl, -, -⟩ := h
  simp

/-! ## The server's answer -/

variable {h : ClientHello}

theorem newServerHello_of_acceptable (ha : h.Acceptable) (r : CryptoRandom) :
    ∃ a, selectAEADAlgorithm h.capabilities.crypto.algorithms = some a ∧ newServerHello h (.ok r) = .ok
      ⟨⟨⟨messageCodecJSON, selectUDPPacketCodec h.capabilities.message.udpPacketCodecs⟩, ⟨a, r.bytes⟩⟩, []⟩ := by
  obtain ⟨hcodec, hrandom, halg⟩ := ha
  obtain ⟨a, hsel⟩ := Option.isSome_iff_exists.mp (selectAEADAlgorithm_isSome.mpr halg)
  have hvalid : validateClientHello h = .ok () := by
    simp [validateClientHello, validateCryptoCapabilities, supports_iff.mpr hcodec, hrandom, hsel]
  refine ⟨a, hsel, ?_⟩
  simp [newServerHello, hvalid, hsel, newCryptoRandom, bind, Except.bind, pure, Except.pure]

theorem acceptable_of_validate (hv : validateClientHello h = .ok ()) : h.Acceptable := by
  unfold validateClientHello at hv
  split at hv
  next => cases hv
  next hcodec =>
    unfold validateCryptoCapabilities at hv
    split at hv
    next => cases hv
    next hrandom =>
      split at hv
      next => cases hv
      next a hsel =>
        refine ⟨supports_iff.mp (by simpa using hcodec), not_not.mp hrandom, ?_⟩
        exact selectAEADAlgorithm_isSome.mp (hsel ▸ rfl)

variable {reply : ServerHello} {r : CryptoRandom}

theorem newServerHello_ok (hr : newServerHello h (.ok r) = .ok reply) : h.Acceptable ∧
    ∃ a, selectAEADAlgorithm h.capabilities.crypto.algorithms = some a ∧ reply =
      ⟨⟨⟨messageCodecJSON, selectUDPPacketCodec h.capabilities.message.udpPacketCodecs⟩, ⟨a, r.bytes⟩⟩, []⟩ := by
  have ha : h.Acceptable := by
    obtain ⟨u, hv, -⟩ := Checked.bind_eq_ok.mp hr
    exact acceptable_of_validate hv
  obtain ⟨a, hsel, heq⟩ := newServerHello_of_acceptable ha r
  exact ⟨ha, a, hsel, Except.ok.inj (hr.symm.trans heq)⟩

/-- The client's own hello is answered, with the algorithm it prefers. -/
theorem newClientHello_answered {b : BootstrapInfo} {fast : Bool} {r r' : CryptoRandom} {hello : ClientHello}
    (hh : newClientHello b fast (.ok r) = .ok hello) :
    newServerHello hello (.ok r') = .ok ⟨⟨⟨messageCodecJSON, udpPacketCodecBinary⟩,
      ⟨if fast then aeadAlgorithmAES256GCM else aeadAlgorithmXChaCha20Poly1305, r'.bytes⟩⟩, []⟩ := by
  cases hh
  have hfirst : selectAEADAlgorithm (preferredAEADAlgorithms fast) =
      some (if fast then aeadAlgorithmAES256GCM else aeadAlgorithmXChaCha20Poly1305) := by
    cases fast with
    | true | false => rfl
  have hsupported := selectAEADAlgorithm_isSome.mp (Option.isSome_of_eq_some hfirst)
  have hacc : ClientHello.Acceptable
      ⟨b, ⟨[messageCodecJSON], [udpPacketCodecBinary]⟩, ⟨preferredAEADAlgorithms fast, r.bytes⟩⟩ :=
    ⟨List.mem_singleton_self _, r.size, hsupported⟩
  obtain ⟨a, ha, hreply⟩ := newServerHello_of_acceptable hacc r'
  obtain rfl := Option.some.inj (ha.symm.trans hfirst)
  exact hreply

theorem selectUDPPacketCodec_binary (codecs : List Str) :
    selectUDPPacketCodec codecs = udpPacketCodecBinary ↔ udpPacketCodecBinary ∈ codecs := by
  unfold selectUDPPacketCodec
  split
  next hs => exact iff_of_true rfl (supports_iff.mp hs)
  next hs => exact iff_of_false (by decide) fun hm => hs (supports_iff.mpr hm)

theorem validate_reply
    (hr : newServerHello h (.ok r) = .ok reply) : validateServerHelloForClient h reply = .ok () := by
  obtain ⟨-, a, hsel, rfl⟩ := newServerHello_ok hr
  have hfirst := selectAEADAlgorithm_first hsel
  have hsupported : isSupportedAEADAlgorithm a = true := by
    obtain ⟨-, -, -, hmem, -⟩ := hfirst
    exact supports_iff.mpr hmem
  have hoffered : supports h.capabilities.crypto.algorithms a = true := supports_iff.mpr hfirst.mem
  have hrandom := r.size
  by_cases hc : supports h.capabilities.message.udpPacketCodecs udpPacketCodecBinary = true
  · simp [validateServerHelloForClient, selectUDPPacketCodec, hc, hsupported, hoffered, hrandom]
  · simp [validateServerHelloForClient, selectUDPPacketCodec, hc, hsupported, hoffered, hrandom]

/-! ## Agreement -/

section
variable [HelloJSON]

structure HelloJSON.Exact : Prop where
  client : ∀ h p, HelloJSON.marshalClient h = some p → HelloJSON.unmarshalClient p = some h
  server : ∀ r p, HelloJSON.marshalServer r = some p → HelloJSON.unmarshalServer p = some r

variable [Sha256]

theorem newClientCryptoContext_reply (hJ : HelloJSON.Exact) {h : ClientHello} {r : CryptoRandom} {reply : ServerHello}
    (hr : newServerHello h (.ok r) = .ok reply) {cp sp : Str} (hcp : unmarshalClient cp = some h)
    (hsp : marshalServer reply = some sp) :
    newClientCryptoContext cp sp = .ok (newCryptoContext reply.selected.crypto.algorithm cp sp) := by
  simp only [newClientCryptoContext, hcp, hJ.server _ _ hsp, validate_reply hr]

theorem readServerHello_reply (hJ : HelloJSON.Exact) {h : ClientHello} {r : CryptoRandom} {reply : ServerHello}
    (hr : newServerHello h (.ok r) = .ok reply) {out out' : Str} {frame : Frame} {n : Negotiated}
    (hcp : unmarshalClient frame.payload = some h)
    (hs : handleClientHello out frame (.ok r) = (out', .ok n)) :
    ∃ sent, out' = out ++ sent ∧ ∀ t, readServerHello frame.payload (sent ++ t) = .ok (n, t) := by
  simp only [handleClientHello, hcp, hr] at hs
  cases hsp : marshalServer reply with
  | none => rw [hsp] at hs; cases hs
  | some sp =>
    simp only [hsp] at hs
    rcases writeFrame_cases out ⟨frameTypeServerHello, 0, sp⟩ with ⟨e, he⟩ | ⟨hfit, hw⟩
    · rw [he] at hs; cases hs
    · rw [hw] at hs; cases hs
      refine ⟨_, rfl, fun t => ?_⟩
      have herr : reply.error = [] := by
        obtain ⟨-, a, -, rfl⟩ := newServerHello_ok hr
        rfl
      simp only [readServerHello, readFrame_bytes hfit t, hJ.server _ _ hsp, herr,
        newClientCryptoContext_reply hJ hr hcp hsp, ne_eq, not_true_eq_false, if_false]

/-- The server answers the acceptable hellos and no others, its answer passes the client's checks,
and both ends come to the same context. -/
theorem v2_negotiation_agrees (hJ : HelloJSON.Exact) (h : ClientHello) (r : CryptoRandom) :
    ((∃ reply, newServerHello h (.ok r) = .ok reply) ↔ h.Acceptable) ∧
    ∀ reply, newServerHello h (.ok r) = .ok reply →
      FirstSupported h.capabilities.crypto.algorithms reply.selected.crypto.algorithm ∧
      (reply.selected.message.udpPacketCodec = udpPacketCodecBinary ↔
        udpPacketCodecBinary ∈ h.capabilities.message.udpPacketCodecs) ∧
      validateServerHelloForClient h reply = .ok () ∧
      (∀ cp sp, HelloJSON.unmarshalClient cp = some h → HelloJSON.marshalServer reply = some sp →
        newClientCryptoContext cp sp = .ok (newCryptoContext reply.selected.crypto.algorithm cp sp)) ∧
      ∀ (frame : Frame) (out out' : Str) (n : Negotiated), HelloJSON.unmarshalClient frame.payload = some h →
        handleClientHello out frame (.ok r) = (out', .ok n) →
        ∃ sent, out' = out ++ sent ∧ ∀ t, readServerHello frame.payload (sent ++ t) = .ok (n, t) := by
  constructor
  · constructor
    · rintro ⟨reply, hr⟩
      exact (newServerHello_ok hr).1
    · intro ha
      obtain ⟨a, -, hr⟩ := newServerHello_of_acceptable ha r
      exact ⟨_, hr⟩
  · intro reply hr
    have hvalid := validate_reply hr
    refine ⟨?_, ?_, hvalid, fun cp sp hcp hsp => newClientCryptoContext_reply hJ hr hcp hsp,
      fun frame out out' n hcp hs => readServerHello_reply hJ hr hcp hs⟩
    · obtain ⟨-, a, hsel, rfl⟩ := newServerHello_ok hr
      exact selectAEADAlgorithm_first hsel
    · obtain ⟨-, a, -, rfl⟩ := newServerHello_ok hr
      exact selectUDPPacketCodec_binary _

end

def zeroRandom : CryptoRandom := ⟨List.replicate 32 0, rfl⟩

def oddHello : ClientHello where
  bootstrap := ⟨lit "tcp", true, false⟩
  capabilities := {
    message := ⟨[lit "cbor", messageCodecJSON], [lit "binary-v2", udpPacketCodecBinary]⟩
    crypto := ⟨[lit "rot13", aeadAlgorithmXChaCha20Poly1305, aeadAlgorithmAES256GCM, aeadAlgorithmXChaCha20Poly1305,
      aeadAlgorithmAES256GCM], zeroRandom.bytes⟩ }

def oddReply : ServerHello :=
  ⟨⟨⟨messageCodecJSON, udpPacketCodecBinary⟩, ⟨aeadAlgorithmXChaCha20Poly1305, zeroRandom.bytes⟩⟩, []⟩

def oddHelloJSON : Str :=
  lit "\x7b\"bootstrap\":\x7b\"transport\":\"tcp\",\"tls\":true\x7d,\"capabilities\":\x7b\"message\":" ++
    lit "\x7b\"codecs\":[\"cbor\",\"json\"],\"udpPacketCodecs\":[\"binary-v2\",\"binary-v1\"]\x7d," ++
    lit "\"crypto\":\x7b\"algorithms\":" ++
    lit "[\"rot13\",\"xchacha20-poly1305\",\"aes-256-gcm\",\"xchacha20-poly1305\",\"aes-256-gcm\"]," ++
    lit "\"clientRandom\":\"AAAAAAAAAAAAAAAAAAAAAAAAAAAAAAAAAAAAAAAAAAA=\"\x7d\x7d\x7d"

def oddReplyJSON : Str :=
  lit "\x7b\"selected\":\x7b\"message\":\x7b\"codec\":\"json\",\"udpPacketCodec\":\"binary-v1\"\x7d,\"crypto\":" ++
    lit "\x7b\"algorithm\":\"xchacha20-poly1305\",\"serverRandom\":" ++
    lit "\"AAAAAAAAAAAAAAAAAAAAAAAAAAAAAAAAAAAAAAAAAAA=\"\x7d\x7d\x7d"

/-- What `encoding/json` makes of these two. -/
@[reducible] def HelloJSON.odd : HelloJSON where
  marshalClient h := if h = oddHello then some oddHelloJSON else none
  unmarshalClient p := if p = oddHelloJSON then some oddHello else none
  marshalServer r := if r = oddReply then some oddReplyJSON else none
  unmarshalServer p := if p = oddReplyJSON then some oddReply else none

@[reducible] def Sha256.keep : Sha256 := ⟨id⟩

section
attribute [local instance] HelloJSON.odd Sha256.keep

theorem HelloJSON.odd_exact : HelloJSON.Exact := by
  constructor
  · intro h p hp
    change (if h = oddHello then some oddHelloJSON else none) = some p at hp
    split_ifs at hp with hh
    cases hp
    rw [hh]; exact if_pos rfl
  · intro r p hp
    change (if r = oddReply then some oddReplyJSON else none) = some p at hp
    split_ifs at hp with hr
    cases hp
    rw [hr]; exact if_pos rfl

theorem v2_negotiation_agrees_odd :
    newServerHello oddHello (.ok zeroRandom) = .ok oddReply ∧
    newClientCryptoContext oddHelloJSON oddReplyJSON =
      .ok (newCryptoContext aeadAlgorithmXChaCha20Poly1305 oddHelloJSON oddReplyJSON) := by
  have hreply : newServerHello oddHello (.ok zeroRandom) = .ok oddReply := by rfl
  have hagree := (v2_negotiation_agrees odd_exact oddHello zeroRandom).2 oddReply hreply
  exact ⟨hreply, hagree.2.2.2.1 _ _ (if_pos rfl) (if_pos rfl)⟩

end

/-! ## The transcript -/

theorem lengthPrefixed_inj {b x y : Str} (ha : a.length < 2 ^ 64) (hb : b.length < 2 ^ 64)
    (h : beBytes 8 a.length ++ (a ++ x) = beBytes 8 b.length ++ (b ++ y)) : a = b ∧ x = y := by
  obtain ⟨hlen, hrest⟩ := List.append_inj h (by simp)
  have heq : a.length = b.length := by rw [← beNat_beBytes 8 ha, hlen, beNat_beBytes 8 hb]
  exact List.append_inj hrest heq

theorem cryptoTranscript_eq (c s : Str) : cryptoTranscript c s =
    cryptoTranscriptLabel ++ [0] ++ lit "client hello" ++ [0] ++ (beBytes 8 c.length ++
      (c ++ ([0] ++ lit "server hello" ++ [0] ++ (beBytes 8 s.length ++ (s ++ []))))) := by
  simp [cryptoTranscript, writeCryptoTranscriptPart]

/-- Two handshakes with the same hash are the same, or their transcripts are a collision. -/
theorem cryptoTranscript_binds [Sha256] {c s c' s' : Str} (hc : c.length < 2 ^ 64) (hs : s.length < 2 ^ 64)
    (hc' : c'.length < 2 ^ 64) (hs' : s'.length < 2 ^ 64) :
    (cryptoTranscript c s = cryptoTranscript c' s' ↔ (c, s) = (c', s')) ∧
    (hashCryptoTranscript c s = hashCryptoTranscript c' s' → (c, s) ≠ (c', s') →
      cryptoTranscript c s ≠ cryptoTranscript c' s' ∧
        Sha256.sum (cryptoTranscript c s) = Sha256.sum (cryptoTranscript c' s')) := by
  have hinj : cryptoTranscript c s = cryptoTranscript c' s' → (c, s) = (c', s') := by
    intro h
    rw [cryptoTranscript_eq, cryptoTranscript_eq] at h
    obtain ⟨rfl, hrest⟩ := lengthPrefixed_inj hc hc' (List.append_cancel_left h)
    obtain ⟨rfl, -⟩ := lengthPrefixed_inj hs hs' (List.append_cancel_left hrest)
    rfl
  refine ⟨⟨hinj, fun h => ?_⟩, fun hsum hne => ⟨fun h => hne (hinj h), hsum⟩⟩
  cases h; rfl

theorem cryptoTranscript_binds_labels :
    cryptoTranscript (lit "a") (lit "server hello") ≠ cryptoTranscript (lit "aserver hello") [] := by
  intro h
  have hpair := (@cryptoTranscript_binds .keep (lit "a") (lit "server hello") (lit "aserver hello") []
    (by decide) (by decide) (by decide) (by decide)).1.mp h
  exact absurd hpair (by decide)

end Frp
