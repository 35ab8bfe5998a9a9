import Frp.HttpGroup
import Frp.ListenGroup
import Frp.NatHole
import Frp.ProxyNames
import Frp.Rollback

/-!
# Registration of a proxy

`RegisterProxy` of `server/control.go` with `Run` and `Close` of the nine proxy types of
`server/proxy`, over the tables the controls share. The answer of `Exist` is an input: another
control can take the name before `Add`.
-/

namespace Frp

open Function

structure ServerConfig where
  proxyBindAddr : Str
  subDomainHost : Str
  vhostHTTPPort : Int
  vhostHTTPSPort : Int
  tcpmuxHTTPConnectPort : Int
  maxPortsPerClient : Int

/-- What a call is answered from outside the tables. `order` is the order in which `range` visits
the free ports; `now` and `later` are those of the acquisition and the release. -/
structure Answers where
  existed : Bool
  now : Int
  later : Int
  order : List Int
  probe : Nat → Int → Bool
  resolveErr : Option Str
  listenErr : Option Str

structure LoadBalancer where
  group : Str
  groupKey : Str

structure DomainConfig where
  customDomains : List Str
  subDomain : Str

inductive ProxyConf
  | tcp (remotePort : Int) (lb : LoadBalancer)
  | udp (remotePort : Int)
  | http (pxy : HTTPProxy) (domains : DomainConfig) (locations : List Str)
  | https (domains : DomainConfig) (lb : LoadBalancer)
  | tcpmux (multiplexer : Str) (domains : DomainConfig) (routeByHTTPUser httpUser httpPassword : Str)
      (lb : LoadBalancer)
  | stcp (secretkey : Str) (allowUsers : List Str)
  | sudp (secretkey : Str) (allowUsers : List Str)
  | xtcp (secretkey : Str) (allowUsers : List Str)
  | xudp (secretkey : Str) (allowUsers : List Str)

def ProxyConf.usedPortsNum : ProxyConf → Int
  | .tcp .. => 1
  | .udp .. => 1
  | _ => 0

/-- The shared tables; `natHole` is `none` when the server has no `NatHoleController`. -/
structure Tables where
  tcpPorts : PortManager
  udpPorts : PortManager
  tcpGroups : GroupRegistry TCPGroupParams Int
  http : GroupCtl
  https : VhostMux
  tcpmux : VhostMux
  listeners : Str → Option ListenerBundle
  natHole : Option (Str → Option ClientCfg)
  pxys : Str → Option Pxy
  nextChan : Nat

def Tables.new (allowPorts : List PortsRange) (natHole : Bool) : Tables where
  tcpPorts := .new allowPorts
  udpPorts := .new allowPorts
  tcpGroups := .new
  http := ⟨fun _ => none, [], .new, 0⟩
  https := ⟨⟨.new, 0⟩, .new⟩
  tcpmux := ⟨⟨.new, 0⟩, .new⟩
  listeners _ := none
  natHole := if natHole then some fun _ => none else none
  pxys _ := none
  nextChan := 0

/-! ## Names -/

def insertNew {V : Type} (m : Str → Option V) (name : Str) (v : V) : Option (Str → Option V) :=
  if (m name).isSome then none else some (update m name (some v))

def repeatedListener (name : Str) : Str := lit "custom listener for [" ++ name ++ lit "] is repeated"

def visitorListen (t : Tables) (name sk : Str) (allowUsers : List Str) : Except Str Tables :=
  match insertNew t.listeners name ⟨t.nextChan, sk, allowUsers⟩ with
  | none => .error (repeatedListener name)
  | some listeners => .ok { t with listeners := listeners, nextChan := t.nextChan + 1 }

def closeVisitorListener (t : Tables) (name : Str) : Tables :=
  { t with listeners := update t.listeners name none }

def repeatedClient (name : Str) : Str := lit "proxy [" ++ name ++ lit "] is repeated"

def listenClient (t : Tables) (cfgs : Str → Option ClientCfg) (name sk : Str) (allowUsers : List Str) :
    Except Str Tables :=
  match insertNew cfgs name ⟨name, sk, allowUsers, t.nextChan⟩ with
  | none => .error (repeatedClient name)
  | some cfgs => .ok { t with natHole := some cfgs, nextChan := t.nextChan + 1 }

def closeClient (t : Tables) (name : Str) : Tables :=
  { t with natHole := t.natHole.map fun cfgs => update cfgs name none }

def nameInUse (name : Str) : Str := lit "proxy name [" ++ name ++ lit "] is already in use"

def managerAdd (t : Tables) (name : Str) (pxy : Pxy) : Except Str Tables :=
  match insertNew t.pxys name pxy with
  | none => .error (nameInUse name)
  | some pxys => .ok { t with pxys := pxys }

/-! ## Ports -/

def PortError.text : PortError → Str
  | .alreadyUsed => lit "port already used"
  | .notAllowed => lit "port not allowed"
  | .unavailable => lit "port unavailable"
  | .noAvailable => lit "no available port"

def PortManager.giveBack (keeps : Int → Bool) (later p : Int) (pm : PortManager) : PortManager :=
  if keeps p then pm else pm.release p later

def PortManager.bindPort (keeps : Int → Bool) (text : PortError → Str) (bindErr : Option Str) (ans : Answers)
    (name : Str) (port : Int) (pm : PortManager) : PortManager × Except Str Int :=
  match pm.acquire name port ans.now ans.order ans.probe with
  | (pm, .error e) => (pm, .error (text e))
  | (pm, .ok p) =>
    match bindErr with
    | some e => (pm.giveBack keeps ans.later p, .error e)
    | none => (pm, .ok p)

def tcpKeeps (_ : Int) : Bool := false

def udpKeeps (p : Int) : Bool := p ≤ 0

def listenTCP (ans : Answers) (name : Str) (port : Int) : PortManager → PortManager × Except Str Int :=
  PortManager.bindPort tcpKeeps PortError.text ans.listenErr ans name port

def listenUDP (ans : Answers) (name : Str) (port : Int) : PortManager → PortManager × Except Str Int :=
  PortManager.bindPort udpKeeps (fun e => lit "acquire port " ++ formatInt port ++ lit " error: " ++ e.text)
    (ans.resolveErr.or ans.listenErr) ans name port

/-! ## Routes -/

def GroupError.text : GroupError → Str
  | .stale => lit "stale group reference"
  | .routerConfigConflict => errRouterConfigConflict
  | .groupParamsInvalid => errGroupParamsInvalid
  | .groupAuthFailed => errGroupAuthFailed
  | .proxyRepeated => lit "group proxy repeated"

inductive CloseFunc
  | unRegisterMember
  | unRegisterRoute (domain location : Str)

namespace GroupCtl

def getOrCreate (s : GroupCtl) (group : Str) : GroupCtl × Nat :=
  match s.groups group with
  | some g => (s, g)
  | none =>
    ({ s with groups := update s.groups group (some s.heap.length), heap := s.heap ++ [.new] },
      s.heap.length)

section
variable [UnicodeCase]

/-- `Register` of the controller; it does not meet a stale group, as it is not interleaved with
another call. -/
def registerMember (s : GroupCtl) (pxy : HTTPProxy) (domain location : Str) : GroupCtl × Except GroupError Unit :=
  let (s, g) := s.getOrCreate pxy.group
  match s.heap[g]? with
  | none => (s, .error .stale)
  | some grp =>
    match grp.register s.routers (s.groups pxy.group = some g) g s.nextRoute pxy.name pxy.group pxy.groupKey
        (pxy.routeConfig domain location) with
    | .error e => (s, .error e)
    | .ok (routers, grp) =>
      ({ s with routers := routers, heap := s.heap.set g grp, nextRoute := s.nextRoute + 1 }, .ok ())

def unRegisterMember (s : GroupCtl) (pxy : HTTPProxy) : GroupCtl :=
  match s.groups pxy.group with
  | none => s
  | some g =>
    match s.heap[g]? with
    | none => s
    | some grp => s.unRegister g grp pxy.name

def registerFor (pxy : HTTPProxy) (route : Str × Str) (s : GroupCtl) : GroupCtl × Except Str CloseFunc :=
  if pxy.group ≠ [] then
    match s.registerMember pxy route.1 route.2 with
    | (s, .error e) => (s, .error e.text)
    | (s, .ok ()) => (s, .ok .unRegisterMember)
  else
    match Frp.register s.routers s.nextRoute (pxy.routeConfig route.1 route.2) with
    | none => (s, .error errRouterConfigConflict)
    | some routers =>
      ({ s with routers := routers, nextRoute := s.nextRoute + 1 }, .ok (.unRegisterRoute route.1 route.2))

def runCloseFunc (pxy : HTTPProxy) (f : CloseFunc) (s : GroupCtl) : GroupCtl :=
  match f with
  | .unRegisterMember => s.unRegisterMember pxy
  | .unRegisterRoute domain location =>
    { s with routers := Frp.unRegister s.routers (pxy.routeConfig domain location) }

end

end GroupCtl

def buildDomains (cfg : ServerConfig) (d : DomainConfig) : List Str :=
  d.customDomains.filter (· ≠ []) ++
    if d.subDomain ≠ [] then [d.subDomain ++ Str.dot :: cfg.subDomainHost] else []

def joinHostPort (host port : Str) : Str :=
  if host.contains Str.colon then Str.lbrack :: host ++ Str.rbrack :: Str.colon :: port
  else host ++ Str.colon :: port

def canonicalAddr (host : Str) (port : Int) : Str :=
  if port = 80 ∨ port = 443 then host else joinHostPort host (formatInt port)

def comma : UInt8 := 44

/-! ## `Run` and `Close` -/

/-- An entry of a proxy's `listeners`. Those of the operating system and those of visitors are in
no table. -/
inductive Listener
  | net
  | internal
  | tcpGroup (group : Str) (ln : Nat)
  | https (l : VhostLn)
  | tcpmux (l : VhostLn)

structure RunningProxy where
  conf : ProxyConf
  realBindPort : Int := 0
  listeners : List Listener := []
  closeFuncs : List CloseFunc := []

section
variable [UnicodeCase]

def Listener.close (later : Int) (l : Listener) (t : Tables) : Tables :=
  match l with
  | .net => t
  | .internal => t
  | .tcpGroup group ln =>
    match t.tcpGroups.closeListener (fun p pm => pm.release p later) group ln t.tcpPorts with
    | (ports, groups) => { t with tcpPorts := ports, tcpGroups := groups }
  | .https l => { t with https := t.https.close l }
  | .tcpmux l => { t with tcpmux := t.tcpmux.close l }

def closeListeners (later : Int) (ls : List Listener) (t : Tables) : Tables := releaseAll (Listener.close later) ls t

def RunningProxy.close (later : Int) (name : Str) (p : RunningProxy) (t : Tables) : Tables :=
  match p.conf with
  | .tcp _ lb =>
    let t := closeListeners later p.listeners t
    if lb.group = [] then { t with tcpPorts := t.tcpPorts.giveBack tcpKeeps later p.realBindPort } else t
  | .udp _ => { t with udpPorts := t.udpPorts.giveBack udpKeeps later p.realBindPort }
  | .http pxy _ _ =>
    let t := closeListeners later p.listeners t
    { t with http := releaseAll (GroupCtl.runCloseFunc pxy) p.closeFuncs t.http }
  | .https .. => closeListeners later p.listeners t
  | .tcpmux .. => closeListeners later p.listeners t
  | .stcp .. => closeVisitorListener (closeListeners later p.listeners t) name
  | .sudp .. => closeVisitorListener (closeListeners later p.listeners t) name
  | .xtcp .. => closeClient (closeListeners later p.listeners t) name
  | .xudp .. => closeVisitorListener (closeClient (closeListeners later p.listeners t) name) name

structure RunCtx where
  cfg : ServerConfig
  ans : Answers
  user : Str
  name : Str

abbrev RunResult := Tables × Except Str (RunningProxy × Str)

def remoteAddrs (domains : List Str) (port : Int) : Str :=
  Str.join (domains.map fun d => canonicalAddr d port) comma

def runTCP (x : RunCtx) (remotePort : Int) (lb : LoadBalancer) (t : Tables) : RunResult :=
  if lb.group ≠ [] then
    match t.tcpGroups.listen (listenTCP x.ans x.name remotePort) TCPGroupParams.mismatch lb.group lb.groupKey
        ⟨x.cfg.proxyBindAddr, remotePort⟩ t.tcpPorts with
    | ((ports, groups), .error e) => ({ t with tcpPorts := ports, tcpGroups := groups }, .error e)
    | ((ports, groups), .ok (ln, p)) =>
      ({ t with tcpPorts := ports, tcpGroups := groups },
        .ok ({ conf := .tcp remotePort lb, realBindPort := p, listeners := [.tcpGroup lb.group ln] },
          Str.colon :: formatInt p))
  else
    match listenTCP x.ans x.name remotePort t.tcpPorts with
    | (ports, .error e) => ({ t with tcpPorts := ports }, .error e)
    | (ports, .ok p) =>
      ({ t with tcpPorts := ports },
        .ok ({ conf := .tcp remotePort lb, realBindPort := p, listeners := [.net] }, Str.colon :: formatInt p))

def runUDP (x : RunCtx) (remotePort : Int) (t : Tables) : RunResult :=
  match listenUDP x.ans x.name remotePort t.udpPorts with
  | (ports, .error e) => ({ t with udpPorts := ports }, .error e)
  | (ports, .ok p) =>
    ({ t with udpPorts := ports }, .ok ({ conf := .udp remotePort, realBindPort := p }, Str.colon :: formatInt p))

def httpRoutes (cfg : ServerConfig) (d : DomainConfig) (locations : List Str) : List (Str × Str) :=
  (buildDomains cfg d).flatMap fun domain =>
    (if locations = [] then [[]] else locations).map fun location => (domain, location)

def runHTTP (x : RunCtx) (pxy : HTTPProxy) (d : DomainConfig) (locations : List Str) (t : Tables) : RunResult :=
  let routes := httpRoutes x.cfg d locations
  match acquireAll (GroupCtl.registerFor pxy) routes [] t.http with
  | ((http, fs), some e) =>
    (RunningProxy.close x.ans.later x.name { conf := .http pxy d locations, closeFuncs := fs } { t with http := http },
      .error e)
  | ((http, fs), none) =>
    ({ t with http := http },
      .ok ({ conf := .http pxy d locations, closeFuncs := fs },
        remoteAddrs (routes.map Prod.fst) x.cfg.vhostHTTPPort))

def runHTTPS (x : RunCtx) (d : DomainConfig) (lb : LoadBalancer) (t : Tables) : RunResult :=
  let domains := buildDomains x.cfg d
  match acquireAll (VhostMux.listen httpsMismatch lb.group lb.groupKey) (domains.map fun domain => ⟨domain, [], [], []⟩)
      [] t.https with
  | ((https, ls), some e) =>
    (RunningProxy.close x.ans.later x.name { conf := .https d lb, listeners := ls.map .https }
      { t with https := https }, .error e)
  | ((https, ls), none) =>
    ({ t with https := https },
      .ok ({ conf := .https d lb, listeners := ls.map .https }, remoteAddrs domains x.cfg.vhostHTTPSPort))

def httpConnect : Str := lit "httpconnect"

def runTCPMux (x : RunCtx) (multiplexer : Str) (d : DomainConfig) (routeByHTTPUser httpUser httpPassword : Str)
    (lb : LoadBalancer) (t : Tables) : RunResult :=
  if multiplexer = httpConnect then
    let conf := .tcpmux multiplexer d routeByHTTPUser httpUser httpPassword lb
    let domains := buildDomains x.cfg d
    match acquireAll (VhostMux.listen tcpMuxMismatch lb.group lb.groupKey)
        (domains.map fun domain => ⟨domain, routeByHTTPUser, httpUser, httpPassword⟩) [] t.tcpmux with
    | ((tcpmux, ls), some e) =>
      (RunningProxy.close x.ans.later x.name { conf, listeners := ls.map .tcpmux } { t with tcpmux := tcpmux },
        .error e)
    | ((tcpmux, ls), none) =>
      ({ t with tcpmux := tcpmux },
        .ok ({ conf, listeners := ls.map .tcpmux }, remoteAddrs domains x.cfg.tcpmuxHTTPConnectPort))
  else (t, .error (lit "unknown multiplexer [" ++ multiplexer ++ lit "]"))

def allowedUsers (x : RunCtx) (allowUsers : List Str) : List Str := if allowUsers = [] then [x.user] else allowUsers

def startVisitorListener (x : RunCtx) (secretKey : Str) (allowUsers : List Str) (t : Tables) : Except Str Tables :=
  visitorListen t x.name secretKey (allowedUsers x allowUsers)

def runVisitor (x : RunCtx) (conf : ProxyConf) (secretKey : Str) (allowUsers : List Str) (t : Tables) : RunResult :=
  match startVisitorListener x secretKey allowUsers t with
  | .error e => (t, .error e)
  | .ok t => (t, .ok ({ conf, listeners := [.internal] }, []))

def runXTCP (x : RunCtx) (secretKey : Str) (allowUsers : List Str) (t : Tables) : RunResult :=
  match t.natHole with
  | none => (t, .error (lit "xtcp is not supported in frps"))
  | some cfgs =>
    match listenClient t cfgs x.name secretKey (allowedUsers x allowUsers) with
    | .error e => (t, .error e)
    | .ok t => (t, .ok ({ conf := .xtcp secretKey allowUsers }, []))

def runXUDP (x : RunCtx) (secretKey : Str) (allowUsers : List Str) (t : Tables) : RunResult :=
  match startVisitorListener x secretKey allowUsers t with
  | .error e => (t, .error e)
  | .ok t =>
    let pxy : RunningProxy := { conf := .xudp secretKey allowUsers, listeners := [.internal] }
    match t.natHole with
    | none => (t, .ok (pxy, []))
    | some cfgs =>
      match listenClient t cfgs x.name secretKey (allowedUsers x allowUsers) with
      -- the visitor listener stays open
      | .error e => (t, .error (lit "listen nat hole client error: " ++ e))
      | .ok t => (t, .ok (pxy, []))

def ProxyConf.run (x : RunCtx) (conf : ProxyConf) (t : Tables) : RunResult :=
  match conf with
  | .tcp remotePort lb => runTCP x remotePort lb t
  | .udp remotePort => runUDP x remotePort t
  | .http pxy d locations => runHTTP x pxy d locations t
  | .https d lb => runHTTPS x d lb t
  | .tcpmux multiplexer d routeByHTTPUser httpUser httpPassword lb =>
    runTCPMux x multiplexer d routeByHTTPUser httpUser httpPassword lb t
  | .stcp secretKey allowUsers => runVisitor x conf secretKey allowUsers t
  | .sudp secretKey allowUsers => runVisitor x conf secretKey allowUsers t
  | .xtcp secretKey allowUsers => runXTCP x secretKey allowUsers t
  | .xudp secretKey allowUsers => runXUDP x secretKey allowUsers t

/-! ## `RegisterProxy` -/

structure ProxyOwner where
  id : Nat
  portsUsedNum : Int
  proxies : Str → Option Pxy

/-- `loaded` is the outcome of reading the configuration from the message and making the proxy
object `pxyId` from it. -/
def registerProxy (x : RunCtx) (loaded : Except Str ProxyConf) (pxyId : Nat) (ctl : ProxyOwner) (t : Tables) :
    (Tables × ProxyOwner) × Except Str Str :=
  match loaded with
  | .error e => ((t, ctl), .error e)
  | .ok conf =>
    if x.cfg.maxPortsPerClient > 0 ∧ ctl.portsUsedNum + conf.usedPortsNum > x.cfg.maxPortsPerClient then
      ((t, ctl), .error (lit "exceed the max_ports_per_client"))
    else
      let n := quotaOf x.cfg.maxPortsPerClient conf.usedPortsNum
      let counted := { ctl with portsUsedNum := ctl.portsUsedNum + n }
      let refunded := { counted with portsUsedNum := counted.portsUsedNum - n }
      if x.ans.existed then ((t, refunded), .error (lit "proxy [" ++ x.name ++ lit "] already exists"))
      else
        match conf.run x t with
        | (t, .error e) => ((t, refunded), .error e)
        | (t, .ok (pxy, remoteAddr)) =>
          let obj : Pxy := ⟨pxyId, ctl.id, x.name, conf.usedPortsNum⟩
          match managerAdd t x.name obj with
          | .error e => ((pxy.close x.ans.later x.name t, refunded), .error e)
          | .ok t => ((t, { counted with proxies := update ctl.proxies x.name (some obj) }), .ok remoteAddr)

end

end Frp
