import Frp.ProxyConfig

/-!
# What the server reads from a `NewProxy` message

The server's configuration agrees with the client's in everything a message carries.
-/

namespace Frp

variable {P : Type}

structure ProxyBaseConfig.Agrees (c c' : ProxyBaseConfig P) : Prop where
  name : c'.name = c.name
  type : c'.type = c.type
  useEncryption : c'.transport.useEncryption = c.transport.useEncryption
  useCompression : c'.transport.useCompression = c.transport.useCompression
  bandwidthLimit : c'.transport.bandwidthLimit = c.transport.bandwidthLimit
  bandwidthLimitMode : c'.transport.bandwidthLimitMode = c.transport.bandwidthLimitMode
  group : c'.loadBalancer.group = c.loadBalancer.group
  groupKey : c'.loadBalancer.groupKey = c.loadBalancer.groupKey
  metadatas : c'.metadatas = c.metadatas
  annotations : c'.annotations = c.annotations

namespace ProxyConfigurer

def AgreesOnType : ProxyConfigurer P → ProxyConfigurer P → Prop
  | tcp c, tcp c' | udp c, udp c' => c'.remotePort = c.remotePort
  | http c, http c' =>
    c'.customDomains = c.customDomains ∧ c'.subDomain = c.subDomain ∧ c'.locations = c.locations ∧
      c'.httpUser = c.httpUser ∧ c'.httpPassword = c.httpPassword ∧ c'.hostHeaderRewrite = c.hostHeaderRewrite ∧
      c'.requestHeaders = c.requestHeaders ∧ c'.responseHeaders = c.responseHeaders ∧
      c'.routeByHTTPUser = c.routeByHTTPUser
  | https c, https c' => c'.customDomains = c.customDomains ∧ c'.subDomain = c.subDomain
  | tcpmux c, tcpmux c' =>
    c'.customDomains = c.customDomains ∧ c'.subDomain = c.subDomain ∧ c'.httpUser = c.httpUser ∧
      c'.httpPassword = c.httpPassword ∧ c'.routeByHTTPUser = c.routeByHTTPUser ∧ c'.multiplexer = c.multiplexer
  | stcp c, stcp c' | xtcp c, xtcp c' | sudp c, sudp c' | xudp c, xudp c' =>
    c'.secretkey = c.secretkey ∧ c'.allowUsers = c.allowUsers
  | _, _ => False

def Agrees (c c' : ProxyConfigurer P) : Prop := c.getBaseConfig.Agrees c'.getBaseConfig ∧ c.AgreesOnType c'

theorem proxyType_marshalToMsg (c : ProxyConfigurer P) (m : NewProxy) :
    (c.marshalToMsg m).proxyType = c.getBaseConfig.type := by
  cases c <;> rfl

end ProxyConfigurer

theorem ProxyType.find_string (t : ProxyType) : proxyConfigTypeMap.find? (·.string == t.string) = some t := by
  cases t <;> decide

theorem ProxyType.string_ne_nil (t : ProxyType) : t.string ≠ [] := by
  cases t <;> decide

theorem emptyOr_of_ne {α : Type} [DecidableEq α] [Inhabited α] {v : α} (h : v ≠ default) (fallback : α) :
    emptyOr v fallback = v := if_neg h

theorem emptyOr_ne_default {α : Type} [DecidableEq α] [Inhabited α] (v : α) {fallback : α} (h : fallback ≠ default) :
    emptyOr v fallback ≠ default := by
  unfold emptyOr
  split
  · exact h
  · assumption

section
variable [ClientPluginOptions P]

theorem ProxyBaseConfig.complete_mode (c : ProxyBaseConfig P) : c.complete.transport.bandwidthLimitMode ≠ [] :=
  emptyOr_ne_default _ (by decide)

theorem ProxyConfigurer.getBaseConfig_complete (c : ProxyConfigurer P) :
    c.complete.getBaseConfig = c.getBaseConfig.complete := by
  cases c <;> rfl

theorem ProxyConfigurer.proxyType_complete (c : ProxyConfigurer P) : c.complete.proxyType = c.proxyType := by
  cases c <;> rfl

variable [FloatBytes]

namespace ProxyBaseConfig

theorem round_trip {c b : ProxyBaseConfig P} {m : NewProxy} (hlimit : c.transport.bandwidthLimit.Parsable)
    (hmode : c.transport.bandwidthLimitMode ≠ []) (hb : b.transport = {}) (hm : m.bandwidthLimitMode = []) :
    c.Agrees (b.unmarshalFromMsg (c.marshalToMsg m)).complete where
  name := rfl
  type := rfl
  useEncryption := rfl
  useCompression := rfl
  bandwidthLimit := by
    simp only [complete, unmarshalFromMsg, marshalToMsg, hb, hlimit.reread]
    by_cases hs : c.transport.bandwidthLimit.s = []
    · -- no text is sent for the zero quantity only
      have hzero := hlimit.reread
      rw [hs] at hzero
      rw [if_neg (not_not_intro hs)]; exact congrArg Prod.fst hzero
    · exact if_pos hs
  bandwidthLimitMode := by
    simp only [complete, unmarshalFromMsg, marshalToMsg, hb, hm]
    by_cases hc : c.transport.bandwidthLimitMode = lit "client"
    · rw [if_neg (not_not_intro hc), if_neg (not_not_intro rfl), hc]; rfl
    · rw [if_pos hc, if_pos hmode]; exact emptyOr_of_ne hmode _
  group := rfl
  groupKey := rfl
  metadatas := rfl
  annotations := rfl

end ProxyBaseConfig

namespace ProxyConfigurer

theorem readMsg_of_type {m : NewProxy} {t : ProxyType} (h : m.proxyType = t.string) :
    readMsg (P := P) m = .ok ((zero t { type := t.string }).unmarshalFromMsg m).complete := by
  have htype : emptyOr m.proxyType ProxyType.tcp.string = m.proxyType := by
    apply emptyOr_of_ne
    rw [h]; exact t.string_ne_nil
  unfold readMsg newProxyConfigurerByType
  rw [htype, h, t.find_string, ← h]; rfl

variable {c : ProxyConfigurer P}

section
variable (htype : c.getBaseConfig.type = c.proxyType.string)
  (hlimit : c.getBaseConfig.transport.bandwidthLimit.Parsable)
include htype hlimit

theorem round_trip (hmode : c.getBaseConfig.transport.bandwidthLimitMode ≠ []) :
    ∃ c', readMsg (c.marshalToMsg {}) = .ok c' ∧ c.Agrees c' := by
  refine ⟨_, readMsg_of_type ((c.proxyType_marshalToMsg {}).trans htype), ?_, ?_⟩
  · cases c <;> exact ProxyBaseConfig.round_trip hlimit hmode rfl rfl
  · cases c with
    | tcp | udp => rfl
    | http => exact ⟨rfl, rfl, rfl, rfl, rfl, rfl, rfl, rfl, rfl⟩
    | https | stcp | xtcp | sudp | xudp => exact ⟨rfl, rfl⟩
    | tcpmux => exact ⟨rfl, rfl, rfl, rfl, rfl, rfl⟩

theorem round_trip_complete :
    ∃ c', readMsg (c.complete.marshalToMsg {}) = .ok c' ∧ c.complete.Agrees c' := by
  apply round_trip
  · rw [getBaseConfig_complete, proxyType_complete]; exact htype
  · rw [getBaseConfig_complete]; exact hlimit
  · rw [getBaseConfig_complete]; exact c.getBaseConfig.complete_mode

end

theorem newProxyConfigurerFromMsg_of_read (validate : ProxyConfigurer P → Option Str) {m : NewProxy}
    (h : readMsg m = .ok c) : newProxyConfigurerFromMsg validate m = validated validate c := by
  simp only [newProxyConfigurerFromMsg, h]

/-- The server completes and checks a configuration that agrees with the one the client sent in all
the fields of its type. -/
theorem newProxy_round_trip (c : ProxyConfigurer P) (htype : c.getBaseConfig.type = c.proxyType.string)
    (hlimit : c.getBaseConfig.transport.bandwidthLimit.Parsable) (validate : ProxyConfigurer P → Option Str) :
    ∃ c', c.complete.Agrees c' ∧
      newProxyConfigurerFromMsg validate (c.complete.marshalToMsg {}) = validated validate c' := by
  obtain ⟨c', hread, hagrees⟩ := round_trip_complete htype hlimit
  exact ⟨c', hagrees, newProxyConfigurerFromMsg_of_read validate hread⟩

end ProxyConfigurer

end

section
attribute [local instance] FloatBytes.integers ClientPluginOptions.id

def webConfig : HTTPProxyConfig Unit where
  name := lit "web"
  type := lit "http"
  transport := { bandwidthLimit := ⟨lit "2MB", 2097152⟩, bandwidthLimitMode := lit "server" }
  customDomains := [lit "a.example.com"]
  subDomain := []
  httpUser := lit "alice"

theorem newProxy_round_trip_web :
    ∃ c', (ProxyConfigurer.complete (.http webConfig)).Agrees c' ∧
      ProxyConfigurer.newProxyConfigurerFromMsg (fun _ => none)
        ((ProxyConfigurer.complete (.http webConfig)).marshalToMsg {}) = .ok c' :=
  ProxyConfigurer.newProxy_round_trip (.http webConfig) rfl ⟨lit " 2MB", rfl⟩ fun _ => none

end

end Frp
