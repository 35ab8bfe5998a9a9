import Frp.DashboardV2
import Frp.NatClassify
import Frp.Register
import Frp.TrimSpace

/-!
# The configuration of a proxy and its `NewProxy` message

`pkg/config/v1/proxy.go` with `NewProxyConfigurerFromMsg` of `pkg/config/load.go` and the
bandwidth quantities of `pkg/config/types`. A map is the list of its entries. Fields that
neither the message nor `Complete` touches are left out.
-/

namespace Frp

/-- `int64(f * float64(base))` for the number `f` that `ParseFloat` reads, or the text of its error. -/
class FloatBytes where
  parseBytes (base : Int) (fstr : Str) : Except Str Int

@[reducible] def FloatBytes.integers : FloatBytes :=
  ⟨fun base fstr => (atoi fstr).elim (.error (lit "invalid syntax")) fun n => .ok (n * base)⟩

def Str.cutSuffix (s t : Str) : Option Str := if t.isSuffixOf s then some (s.take (s.length - t.length)) else none

structure BandwidthQuantity where
  s : Str := []
  i : Int := 0

namespace BandwidthQuantity

def MB : Int := 1024 * 1024
def KB : Int := 1024

def setBytes (q : BandwidthQuantity) (s : Str) : Except Str Int → BandwidthQuantity × Option Str
  | .error err => (q, some err)
  | .ok i => (⟨s, i⟩, none)

variable {q q' : BandwidthQuantity}

theorem setBytes_ok {s : Str} {r : Except Str Int} (h : q.setBytes s r = (q', none)) : q'.s = s := by
  cases r with
  | error => simp [setBytes] at h
  | ok => simp only [setBytes, Prod.mk.injEq, and_true] at h; rw [← h]

variable [FloatBytes]

def unmarshalTrimmed (q : BandwidthQuantity) (s : Str) : BandwidthQuantity × Option Str :=
  if s = [] then (q, none)
  else
    match s.cutSuffix (lit "MB") with
    | some fstr => q.setBytes s (FloatBytes.parseBytes MB fstr)
    | none =>
      match s.cutSuffix (lit "KB") with
      | some fstr => q.setBytes s (FloatBytes.parseBytes KB fstr)
      | none => (q, some (lit "unit not support"))

def unmarshalString (q : BandwidthQuantity) (s : Str) : BandwidthQuantity × Option Str := q.unmarshalTrimmed s.trimSpace

def newBandwidthQuantity (s : Str) : BandwidthQuantity × Option Str := unmarshalString {} s

def Parsable (q : BandwidthQuantity) : Prop := ∃ s, newBandwidthQuantity s = (q, none)

theorem unmarshalTrimmed_s {s : Str} (hs : s ≠ []) (h : q.unmarshalTrimmed s = (q', none)) : q'.s = s := by
  unfold unmarshalTrimmed at h
  rw [if_neg hs] at h
  split at h
  · exact setBytes_ok h
  · split at h
    · exact setBytes_ok h
    · simp at h

theorem Parsable.reread {q : BandwidthQuantity} (h : q.Parsable) : newBandwidthQuantity q.s = (q, none) := by
  obtain ⟨s, hs⟩ := h
  unfold newBandwidthQuantity unmarshalString at hs ⊢
  by_cases hnil : s.trimSpace = []
  · rw [hnil] at hs
    simp only [unmarshalTrimmed, if_true, Prod.mk.injEq, and_true] at hs
    rw [← hs]; rfl
  · rw [unmarshalTrimmed_s hnil hs, Str.trimSpace_idem, hs]

end BandwidthQuantity

structure NewProxy where
  proxyName : Str := []
  proxyType : Str := []
  useEncryption : Bool := false
  useCompression : Bool := false
  bandwidthLimit : Str := []
  bandwidthLimitMode : Str := []
  group : Str := []
  groupKey : Str := []
  metas : List (Str × Str) := []
  annotations : List (Str × Str) := []
  remotePort : Int := 0
  customDomains : List Str := []
  subDomain : Str := []
  locations : List Str := []
  httpUser : Str := []
  httpPwd : Str := []
  hostHeaderRewrite : Str := []
  headers : List (Str × Str) := []
  responseHeaders : List (Str × Str) := []
  routeByHTTPUser : Str := []
  sk : Str := []
  allowUsers : List Str := []
  multiplexer : Str := []

structure ProxyTransport where
  useEncryption : Bool := false
  useCompression : Bool := false
  bandwidthLimit : BandwidthQuantity := {}
  bandwidthLimitMode : Str := []

class ClientPluginOptions (P : Type) where
  complete : P → P

@[reducible] def ClientPluginOptions.id : ClientPluginOptions Unit := ⟨fun o => o⟩

structure ProxyBaseConfig (P : Type) where
  name : Str := []
  type : Str := []
  annotations : List (Str × Str) := []
  transport : ProxyTransport := {}
  metadatas : List (Str × Str) := []
  loadBalancer : LoadBalancer := ⟨[], []⟩
  localIP : Str := []
  plugin : Option P := none

variable {P : Type}

namespace ProxyBaseConfig

def complete [ClientPluginOptions P] (c : ProxyBaseConfig P) : ProxyBaseConfig P :=
  { c with
    localIP := emptyOr c.localIP (lit "127.0.0.1")
    transport := { c.transport with bandwidthLimitMode := emptyOr c.transport.bandwidthLimitMode (lit "client") }
    plugin := c.plugin.map ClientPluginOptions.complete }

def marshalToMsg (c : ProxyBaseConfig P) (m : NewProxy) : NewProxy :=
  { m with
    proxyName := c.name
    proxyType := c.type
    useEncryption := c.transport.useEncryption
    useCompression := c.transport.useCompression
    bandwidthLimit := c.transport.bandwidthLimit.s
    bandwidthLimitMode :=
      if c.transport.bandwidthLimitMode ≠ lit "client" then c.transport.bandwidthLimitMode else m.bandwidthLimitMode
    group := c.loadBalancer.group
    groupKey := c.loadBalancer.groupKey
    metas := c.metadatas
    annotations := c.annotations }

def unmarshalFromMsg [FloatBytes] (c : ProxyBaseConfig P) (m : NewProxy) : ProxyBaseConfig P :=
  { c with
    name := m.proxyName
    type := m.proxyType
    transport :=
      { useEncryption := m.useEncryption
        useCompression := m.useCompression
        bandwidthLimit :=
          if m.bandwidthLimit ≠ [] then (BandwidthQuantity.newBandwidthQuantity m.bandwidthLimit).1
          else c.transport.bandwidthLimit
        bandwidthLimitMode :=
          if m.bandwidthLimitMode ≠ [] then m.bandwidthLimitMode else c.transport.bandwidthLimitMode }
    loadBalancer := ⟨m.group, m.groupKey⟩
    metadatas := m.metas
    annotations := m.annotations }

end ProxyBaseConfig

structure PortProxyConfig (P : Type) extends ProxyBaseConfig P where
  remotePort : Int := 0

abbrev TCPProxyConfig := PortProxyConfig
abbrev UDPProxyConfig := PortProxyConfig

structure HTTPProxyConfig (P : Type) extends ProxyBaseConfig P, DomainConfig where
  locations : List Str := []
  httpUser : Str := []
  httpPassword : Str := []
  hostHeaderRewrite : Str := []
  requestHeaders : List (Str × Str) := []
  responseHeaders : List (Str × Str) := []
  routeByHTTPUser : Str := []

structure HTTPSProxyConfig (P : Type) extends ProxyBaseConfig P, DomainConfig

structure TCPMuxProxyConfig (P : Type) extends ProxyBaseConfig P, DomainConfig where
  httpUser : Str := []
  httpPassword : Str := []
  routeByHTTPUser : Str := []
  multiplexer : Str := []

structure SecretProxyConfig (P : Type) extends ProxyBaseConfig P where
  secretkey : Str := []
  allowUsers : List Str := []

abbrev STCPProxyConfig := SecretProxyConfig
abbrev XTCPProxyConfig := SecretProxyConfig
abbrev SUDPProxyConfig := SecretProxyConfig
abbrev XUDPProxyConfig := SecretProxyConfig

def PortProxyConfig.marshalToMsg (c : PortProxyConfig P) (m : NewProxy) : NewProxy :=
  { c.toProxyBaseConfig.marshalToMsg m with remotePort := c.remotePort }

def HTTPProxyConfig.marshalToMsg (c : HTTPProxyConfig P) (m : NewProxy) : NewProxy :=
  { c.toProxyBaseConfig.marshalToMsg m with
    customDomains := c.customDomains
    subDomain := c.subDomain
    locations := c.locations
    hostHeaderRewrite := c.hostHeaderRewrite
    httpUser := c.httpUser
    httpPwd := c.httpPassword
    headers := c.requestHeaders
    responseHeaders := c.responseHeaders
    routeByHTTPUser := c.routeByHTTPUser }

def HTTPSProxyConfig.marshalToMsg (c : HTTPSProxyConfig P) (m : NewProxy) : NewProxy :=
  { c.toProxyBaseConfig.marshalToMsg m with
    customDomains := c.customDomains
    subDomain := c.subDomain }

def TCPMuxProxyConfig.marshalToMsg (c : TCPMuxProxyConfig P) (m : NewProxy) : NewProxy :=
  { c.toProxyBaseConfig.marshalToMsg m with
    customDomains := c.customDomains
    subDomain := c.subDomain
    multiplexer := c.multiplexer
    httpUser := c.httpUser
    httpPwd := c.httpPassword
    routeByHTTPUser := c.routeByHTTPUser }

def SecretProxyConfig.marshalToMsg (c : SecretProxyConfig P) (m : NewProxy) : NewProxy :=
  { c.toProxyBaseConfig.marshalToMsg m with
    sk := c.secretkey
    allowUsers := c.allowUsers }

section
variable [FloatBytes]

def PortProxyConfig.unmarshalFromMsg (c : PortProxyConfig P) (m : NewProxy) : PortProxyConfig P where
  toProxyBaseConfig := c.toProxyBaseConfig.unmarshalFromMsg m
  remotePort := m.remotePort

def HTTPProxyConfig.unmarshalFromMsg (c : HTTPProxyConfig P) (m : NewProxy) : HTTPProxyConfig P where
  toProxyBaseConfig := c.toProxyBaseConfig.unmarshalFromMsg m
  customDomains := m.customDomains
  subDomain := m.subDomain
  locations := m.locations
  hostHeaderRewrite := m.hostHeaderRewrite
  httpUser := m.httpUser
  httpPassword := m.httpPwd
  requestHeaders := m.headers
  responseHeaders := m.responseHeaders
  routeByHTTPUser := m.routeByHTTPUser

def HTTPSProxyConfig.unmarshalFromMsg (c : HTTPSProxyConfig P) (m : NewProxy) : HTTPSProxyConfig P where
  toProxyBaseConfig := c.toProxyBaseConfig.unmarshalFromMsg m
  customDomains := m.customDomains
  subDomain := m.subDomain

def TCPMuxProxyConfig.unmarshalFromMsg (c : TCPMuxProxyConfig P) (m : NewProxy) : TCPMuxProxyConfig P where
  toProxyBaseConfig := c.toProxyBaseConfig.unmarshalFromMsg m
  customDomains := m.customDomains
  subDomain := m.subDomain
  multiplexer := m.multiplexer
  httpUser := m.httpUser
  httpPassword := m.httpPwd
  routeByHTTPUser := m.routeByHTTPUser

def SecretProxyConfig.unmarshalFromMsg (c : SecretProxyConfig P) (m : NewProxy) : SecretProxyConfig P where
  toProxyBaseConfig := c.toProxyBaseConfig.unmarshalFromMsg m
  secretkey := m.sk
  allowUsers := m.allowUsers

end

inductive ProxyConfigurer (P : Type)
  | tcp (c : TCPProxyConfig P)
  | udp (c : UDPProxyConfig P)
  | http (c : HTTPProxyConfig P)
  | https (c : HTTPSProxyConfig P)
  | tcpmux (c : TCPMuxProxyConfig P)
  | stcp (c : STCPProxyConfig P)
  | xtcp (c : XTCPProxyConfig P)
  | sudp (c : SUDPProxyConfig P)
  | xudp (c : XUDPProxyConfig P)

namespace ProxyConfigurer

def getBaseConfig : ProxyConfigurer P → ProxyBaseConfig P
  | tcp c | udp c => c.toProxyBaseConfig
  | http c => c.toProxyBaseConfig
  | https c => c.toProxyBaseConfig
  | tcpmux c => c.toProxyBaseConfig
  | stcp c | xtcp c | sudp c | xudp c => c.toProxyBaseConfig

def proxyType : ProxyConfigurer P → ProxyType
  | tcp _ => .tcp
  | udp _ => .udp
  | http _ => .http
  | https _ => .https
  | tcpmux _ => .tcpmux
  | stcp _ => .stcp
  | xtcp _ => .xtcp
  | sudp _ => .sudp
  | xudp _ => .xudp

def complete [ClientPluginOptions P] : ProxyConfigurer P → ProxyConfigurer P
  | tcp c => tcp { c with toProxyBaseConfig := c.toProxyBaseConfig.complete }
  | udp c => udp { c with toProxyBaseConfig := c.toProxyBaseConfig.complete }
  | http c => http { c with toProxyBaseConfig := c.toProxyBaseConfig.complete }
  | https c => https { c with toProxyBaseConfig := c.toProxyBaseConfig.complete }
  | tcpmux c => tcpmux { c with toProxyBaseConfig := c.toProxyBaseConfig.complete }
  | stcp c => stcp { c with toProxyBaseConfig := c.toProxyBaseConfig.complete }
  | xtcp c => xtcp { c with toProxyBaseConfig := c.toProxyBaseConfig.complete }
  | sudp c => sudp { c with toProxyBaseConfig := c.toProxyBaseConfig.complete }
  | xudp c => xudp { c with toProxyBaseConfig := c.toProxyBaseConfig.complete }

def marshalToMsg (m : NewProxy) : ProxyConfigurer P → NewProxy
  | tcp c | udp c => c.marshalToMsg m
  | http c => c.marshalToMsg m
  | https c => c.marshalToMsg m
  | tcpmux c => c.marshalToMsg m
  | stcp c | xtcp c | sudp c | xudp c => c.marshalToMsg m

def unmarshalFromMsg [FloatBytes] (m : NewProxy) : ProxyConfigurer P → ProxyConfigurer P
  | tcp c => tcp (c.unmarshalFromMsg m)
  | udp c => udp (c.unmarshalFromMsg m)
  | http c => http (c.unmarshalFromMsg m)
  | https c => https (c.unmarshalFromMsg m)
  | tcpmux c => tcpmux (c.unmarshalFromMsg m)
  | stcp c => stcp (c.unmarshalFromMsg m)
  | xtcp c => xtcp (c.unmarshalFromMsg m)
  | sudp c => sudp (c.unmarshalFromMsg m)
  | xudp c => xudp (c.unmarshalFromMsg m)

def zero : ProxyType → ProxyBaseConfig P → ProxyConfigurer P
  | .tcp, b => tcp { toProxyBaseConfig := b }
  | .udp, b => udp { toProxyBaseConfig := b }
  | .http, b => http { toProxyBaseConfig := b, toDomainConfig := ⟨[], []⟩ }
  | .https, b => https { toProxyBaseConfig := b, toDomainConfig := ⟨[], []⟩ }
  | .tcpmux, b => tcpmux { toProxyBaseConfig := b, toDomainConfig := ⟨[], []⟩ }
  | .stcp, b => stcp { toProxyBaseConfig := b }
  | .xtcp, b => xtcp { toProxyBaseConfig := b }
  | .sudp, b => sudp { toProxyBaseConfig := b }
  | .xudp, b => xudp { toProxyBaseConfig := b }

def newProxyConfigurerByType (proxyType : Str) : Option (ProxyConfigurer P) :=
  (proxyConfigTypeMap.find? (·.string == proxyType)).map (zero · { type := proxyType })

def readMsg [FloatBytes] [ClientPluginOptions P] (m : NewProxy) : Except Str (ProxyConfigurer P) :=
  match newProxyConfigurerByType (emptyOr m.proxyType ProxyType.tcp.string) with
  | none => .error (lit "unknown proxy type: " ++ emptyOr m.proxyType ProxyType.tcp.string)
  | some configurer =>
    .ok (configurer.unmarshalFromMsg { m with proxyType := emptyOr m.proxyType ProxyType.tcp.string }).complete

def validated (validate : ProxyConfigurer P → Option Str) (configurer : ProxyConfigurer P) :
    Except Str (ProxyConfigurer P) :=
  match validate configurer with
  | some err => .error err
  | none => .ok configurer

def newProxyConfigurerFromMsg [FloatBytes] [ClientPluginOptions P] (validate : ProxyConfigurer P → Option Str)
    (m : NewProxy) : Except Str (ProxyConfigurer P) :=
  match readMsg m with
  | .error err => .error err
  | .ok configurer => validated validate configurer

end ProxyConfigurer

end Frp
