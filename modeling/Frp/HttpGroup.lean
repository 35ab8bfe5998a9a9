import Frp.ReverseProxy

/-!
# HTTP load-balancing groups

`server/group/http.go` over `server/group/registry.go`. The first member of a group files
one route for it, whose functions pick a member for each connection. Group objects live in a
heap.
-/

namespace Frp

structure HTTPProxy where
  name : Str
  group : Str
  groupKey : Str
  hostHeaderRewrite : Str
  routeByHTTPUser : Str
  requestHeaders : List (Str × Str)
  responseHeaders : List (Str × Str)
  httpUser : Str
  httpPassword : Str

/-- The function values a route can hold, with the object they are methods of. -/
inductive GroupFn
  | getRealConn (pxy : HTTPProxy)
  | createConn (g : Nat)
  | chooseEndpoint (g : Nat)
  | createConnByEndpoint (g : Nat)

def HTTPProxy.routeConfig (pxy : HTTPProxy) (domain location : Str) : RouteConfig GroupFn where
  domain := domain
  location := location
  rewriteHost := pxy.hostHeaderRewrite
  username := pxy.httpUser
  password := pxy.httpPassword
  headers := pxy.requestHeaders
  responseHeaders := pxy.responseHeaders
  routeByHTTPUser := pxy.routeByHTTPUser
  createConnFn := some (.getRealConn pxy)
  chooseEndpointFn := none
  createConnByEndpointFn := none

inductive GroupError
  | stale
  | routerConfigConflict
  | groupParamsInvalid
  | groupAuthFailed
  | proxyRepeated
  deriving DecidableEq

structure HTTPGroup where
  group : Str
  groupKey : Str
  domain : Str
  location : Str
  routeByHTTPUser : Str
  createFuncs : List (Str × Option GroupFn)
  pxyNames : List Str
  index : UInt64

namespace HTTPGroup

def new : HTTPGroup := ⟨[], [], [], [], [], [], [], 0⟩

def addMember (g : HTTPGroup) (proxyName : Str) (f : Option GroupFn) : Except GroupError HTTPGroup :=
  if (g.createFuncs.lookup proxyName).isSome then .error .proxyRepeated
  else .ok { g with createFuncs := g.createFuncs ++ [(proxyName, f)], pxyNames := g.pxyNames ++ [proxyName] }

def groupRoute (self routeId : Nat) (rc : RouteConfig GroupFn) : Route GroupFn where
  toRouteConfig := { rc with
    createConnFn := some (.createConn self)
    chooseEndpointFn := some (.chooseEndpoint self)
    createConnByEndpointFn := some (.createConnByEndpoint self) }
  id := routeId

/-- `Register`; `current` says whether the registry holds this group under the name given. -/
def register [UnicodeCase] (routers : Routers (Route GroupFn)) (current : Bool) (self routeId : Nat) (g : HTTPGroup)
    (proxyName group groupKey : Str) (rc : RouteConfig GroupFn) :
    Except GroupError (Routers (Route GroupFn) × HTTPGroup) :=
  if !current then .error .stale
  else if g.createFuncs = [] then
    match routers.add rc.domain rc.location rc.routeByHTTPUser (groupRoute self routeId rc) with
    | none => .error .routerConfigConflict
    | some routers =>
      let g := { g with group, groupKey, domain := rc.domain, location := rc.location,
                        routeByHTTPUser := rc.routeByHTTPUser }
      (g.addMember proxyName rc.createConnFn).map fun g => (routers, g)
  else if g.group ≠ group ∨ g.domain ≠ rc.domain ∨ g.location ≠ rc.location ∨
      g.routeByHTTPUser ≠ rc.routeByHTTPUser then .error .groupParamsInvalid
  else if g.groupKey ≠ groupKey then .error .groupAuthFailed
  else (g.addMember proxyName rc.createConnFn).map fun g => (routers, g)

def dropMember (g : HTTPGroup) (proxyName : Str) : HTTPGroup :=
  { g with createFuncs := g.createFuncs.filter (·.1 ≠ proxyName), pxyNames := g.pxyNames.erase proxyName }

def memberAt (g : HTTPGroup) (newIndex : UInt64) : Option Str :=
  g.pxyNames[newIndex.toNat % g.pxyNames.length]?

def createFunc (g : HTTPGroup) (name : Str) : Option GroupFn := (g.createFuncs.lookup name).join

def createConn (g : HTTPGroup) : HTTPGroup × Option GroupFn :=
  let newIndex := g.index + 1
  ({ g with index := newIndex }, (g.memberAt newIndex).bind g.createFunc)

def chooseEndpoint (g : HTTPGroup) : HTTPGroup × Str :=
  let newIndex := g.index + 1
  ({ g with index := newIndex }, (g.memberAt newIndex).getD [])

def createConnByEndpoint (g : HTTPGroup) (endpoint : Str) : Option GroupFn := g.createFunc endpoint

end HTTPGroup

/-! ## The controller -/

structure GroupCtl where
  groups : Str → Option Nat
  heap : List HTTPGroup
  routers : Routers (Route GroupFn)
  nextRoute : Nat

def GroupCtl.Init (s : GroupCtl) : Prop := s = ⟨fun _ => none, [], .new, 0⟩

/-- `UnRegister` of the group object `g`: when the last member leaves, the route is deleted
and the group taken out of the registry if it is still there. -/
def GroupCtl.unRegister [UnicodeCase] (s : GroupCtl) (g : Nat) (grp : HTTPGroup) (proxyName : Str) : GroupCtl :=
  let grp := grp.dropMember proxyName
  let s := { s with heap := s.heap.set g grp }
  if grp.createFuncs = [] then
    { s with
      routers := s.routers.del grp.domain grp.location grp.routeByHTTPUser
      groups := if s.groups grp.group = some g then Function.update s.groups grp.group none else s.groups }
  else s

inductive GroupEvent
  | getOrCreate (group : Str)
  | register (g : Nat) (pxy : HTTPProxy) (domain location : Str)
  | unRegister (g : Nat) (proxyName : Str)
  | createConn (g : Nat)
  | chooseEndpoint (g : Nat)
  | registerRoute (pxy : HTTPProxy) (domain location : Str)
  | unRegisterRoute (pxy : HTTPProxy) (domain location : Str)

section
variable [UnicodeCase]

inductive GroupStep : GroupCtl → GroupEvent → GroupCtl → Prop
  | create {s group} : s.groups group = none →
      GroupStep s (.getOrCreate group) { s with
        groups := Function.update s.groups group (some s.heap.length), heap := s.heap ++ [.new] }
  | register {s g grp pxy domain location routers grp'} : s.heap[g]? = some grp →
      grp.register s.routers (s.groups pxy.group = some g) g s.nextRoute pxy.name pxy.group pxy.groupKey
        (pxy.routeConfig domain location) = .ok (routers, grp') →
      GroupStep s (.register g pxy domain location) { s with
        routers := routers, heap := s.heap.set g grp', nextRoute := s.nextRoute + 1 }
  | refused {s g grp pxy domain location err} : s.heap[g]? = some grp →
      grp.register s.routers (s.groups pxy.group = some g) g s.nextRoute pxy.name pxy.group pxy.groupKey
        (pxy.routeConfig domain location) = .error err →
      GroupStep s (.register g pxy domain location) s
  | unRegister {s g grp} (proxyName : Str) : s.heap[g]? = some grp →
      GroupStep s (.unRegister g proxyName) (s.unRegister g grp proxyName)
  | createConn {s g grp} : s.heap[g]? = some grp →
      GroupStep s (.createConn g) { s with heap := s.heap.set g grp.createConn.1 }
  | chooseEndpoint {s g grp} : s.heap[g]? = some grp →
      GroupStep s (.chooseEndpoint g) { s with heap := s.heap.set g grp.chooseEndpoint.1 }
  | registerRoute {s pxy domain location routers} :
      Frp.register s.routers s.nextRoute (pxy.routeConfig domain location) = some routers →
      GroupStep s (.registerRoute pxy domain location) { s with
        routers := routers, nextRoute := s.nextRoute + 1 }
  | unRegisterRoute (s : GroupCtl) (pxy : HTTPProxy) (domain location : Str) :
      GroupStep s (.unRegisterRoute pxy domain location) { s with
        routers := Frp.unRegister s.routers (pxy.routeConfig domain location) }

end

end Frp
