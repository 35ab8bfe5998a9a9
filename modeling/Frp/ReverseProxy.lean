import Frp.Http
import Frp.Lts
import Frp.Routers

/-!
# The virtual-host reverse proxy

`pkg/util/vhost/http.go`. A request is looked up and checked once in `ServeHTTP`; `Rewrite`
names the connection pool, and every dial looks the route up again. `F` is the type of the Go
functions a route carries.
-/

namespace Frp

structure RouteConfig (F : Type) where
  domain : Str
  location : Str
  rewriteHost : Str
  username : Str
  password : Str
  headers : List (Str × Str)
  responseHeaders : List (Str × Str)
  routeByHTTPUser : Str
  createConnFn : Option F
  chooseEndpointFn : Option F
  createConnByEndpointFn : Option F

/-- The copy of a configuration that `Register` files; `id` is its address. -/
structure Route (F : Type) extends RouteConfig F where
  id : Nat

structure RequestRouteInfo where
  url : Str
  host : Str
  httpUser : Str
  remoteAddr : Str
  urlHost : Str
  endpoint : Str

structure Context (F : Type) where
  info : RequestRouteInfo
  rc : Option (Route F)

inductive Call (F : Type)
  | conn (f : F) (remoteAddr : Str)
  | byEndpoint (f : F) (endpoint remoteAddr : Str)

inductive Verdict (F : Type)
  | denied (status : Nat) (challenge : Str × Str)
  | connect (ctx : Context F)
  | proxied (ctx : Context F)

structure OutRequest where
  scheme : Str
  urlHost : Str
  host : Str
  header : Header

section
variable {F : Type} [UnicodeCase]

/-! ## Registration and lookup -/

def register (tbl : Routers (Route F)) (id : Nat) (cfg : RouteConfig F) : Option (Routers (Route F)) :=
  tbl.add cfg.domain cfg.location cfg.routeByHTTPUser ⟨cfg, id⟩

def unRegister (tbl : Routers (Route F)) (cfg : RouteConfig F) : Routers (Route F) :=
  tbl.del cfg.domain cfg.location cfg.routeByHTTPUser

def getRouteConfig (tbl : Routers (Route F)) (domain location routeByHTTPUser : Str) : Option (Route F) :=
  (tbl.getByRoute domain location routeByHTTPUser).map (·.payload)

def routeOf (tbl : Routers (Route F)) (info : RequestRouteInfo) : Option (Route F) :=
  getRouteConfig tbl ((canonicalHost info.host).getD []) info.url info.httpUser

/-! ## `ServeHTTP` -/

def getRequestRouteUser (req : Request) : Str :=
  let user (c : Option Credentials) : Str := (c.map (·.username)).getD []
  if req.urlHost ≠ [] then
    let proxyAuth := req.proxyAuthorization
    if proxyAuth = [] then user req.basicAuth
    else user (parseBasicAuth proxyAuth)
  else user req.basicAuth

def presented (req : Request) : Option Credentials :=
  if req.urlHost ≠ [] then
    if req.proxyAuthorization = [] then none else parseBasicAuth req.proxyAuthorization
  else req.basicAuth

def checkRouteAuthByRequest (req : Request) : Option (RouteConfig F) → Bool
  | none => true
  | some rc =>
    if rc.username = [] ∧ rc.password = [] then true
    else presented req = some ⟨rc.username, rc.password⟩

def requestRouteInfo (req : Request) : RequestRouteInfo :=
  ⟨req.urlPath, req.host, getRequestRouteUser req, req.remoteAddr, req.urlHost, []⟩

def injectRequestInfoToCtx (tbl : Routers (Route F)) (req : Request) : Context F :=
  ⟨requestRouteInfo req, routeOf tbl (requestRouteInfo req)⟩

def serveHTTP (tbl : Routers (Route F)) (req : Request) : Verdict F :=
  let ctx := injectRequestInfoToCtx tbl req
  if checkRouteAuthByRequest req (ctx.rc.map (·.toRouteConfig)) then
    if req.method = Request.connect then .connect ctx else .proxied ctx
  else if req.urlHost ≠ [] then .denied 407 (lit "Proxy-Authenticate", lit "Basic realm=\"Restricted\"")
  else .denied 401 (lit "WWW-Authenticate", lit "Basic realm=\"Restricted\"")

/-! ## `Rewrite` -/

def setXForwarded (req : Request) (out : Header) : Header :=
  let key := lit "X-Forwarded-For"
  let out :=
    match req.remoteAddr.splitHostPort with
    | none => out.del key
    | some (clientIP, _) =>
      let prior := out (canonicalKey key)
      if prior = [] then out.set key clientIP
      else out.set key ((lit ", ").intercalate (prior ++ [clientIP]))
  (out.set (lit "X-Forwarded-Host") req.host).set (lit "X-Forwarded-Proto") (lit (if req.tls then "https" else "http"))

def poolKey (rc : RouteConfig F) (endpoint : Str) : Str :=
  rc.domain ++ Str.dot :: (Base64.encode rc.location ++
    Str.dot :: (Base64.encode rc.routeByHTTPUser ++ Str.dot :: Base64.encode endpoint))

def endpointOf (rc : RouteConfig F) (chosen : Str) : Str :=
  if rc.chooseEndpointFn.isSome then chosen else []

def rewrite (ctx : Context F) (req : Request) (out : Header) (chosen : Str) : OutRequest × RequestRouteInfo :=
  let key := lit "X-Forwarded-For"
  let header := setXForwarded req (Function.update out key (req.header key))
  match ctx.rc with
  | some rc =>
    let host := if rc.rewriteHost ≠ [] then rc.rewriteHost else req.host
    let info := if rc.chooseEndpointFn.isSome then { ctx.info with endpoint := chosen } else ctx.info
    (⟨lit "http", poolKey rc.toRouteConfig (endpointOf rc.toRouteConfig chosen), host, header.setAll rc.headers⟩, info)
  | none => (⟨lit "http", req.host, req.host, header⟩, ctx.info)

/-! ## `CreateConnection` -/

/-- The call a route makes for a dial; `none` is a route without a function. -/
def Route.dial (rc : Route F) (info : RequestRouteInfo) (byEndpoint : Bool) : Option (Call F) :=
  match (if byEndpoint then rc.createConnByEndpointFn else none) with
  | some f => some (.byEndpoint f info.endpoint info.remoteAddr)
  | none => rc.createConnFn.map fun f => .conn f info.remoteAddr

/-- The route found and the call made on it; `none` is `ErrNoRouteFound`. -/
def createConnection (tbl : Routers (Route F)) (info : RequestRouteInfo) (byEndpoint : Bool) :
    Option (Route F × Call F) :=
  (routeOf tbl info).bind fun rc => (rc.dial info byEndpoint).map fun c => (rc, c)

end

/-! ## Requests in flight beside registrations -/

/-- Where a request past the check of `ServeHTTP` is: before `Rewrite`, able to dial, or
past its last dial. -/
inductive Progress
  | checked
  | dialling
  | finished
  deriving DecidableEq

structure Inflight (F : Type) where
  req : Request
  ctx : Context F
  progress : Progress
  byEndpoint : Bool

structure Dial (F : Type) where
  request : Nat
  route : Route F
  call : Call F

structure Proxy (F : Type) where
  table : Routers (Route F)
  nextId : Nat
  inflight : List (Inflight F)
  dials : List (Dial F)

def Proxy.Init {F : Type} (s : Proxy F) : Prop := s = ⟨.new, 0, [], []⟩

inductive ProxyEvent (F : Type)
  | register (cfg : RouteConfig F)
  | unRegister (cfg : RouteConfig F)
  | serve (req : Request)
  | rewrite (k : Nat) (out : Header) (chosen : Str)
  | dial (k : Nat)
  | finish (k : Nat)

section
variable {F : Type} [UnicodeCase]

/-- Lookup and check of a request are one step, for the check reads only the route the lookup
returned; a request may be dialled any number of times. -/
inductive ProxyStep : Proxy F → ProxyEvent F → Proxy F → Prop
  | register {s cfg tbl} : register s.table s.nextId cfg = some tbl →
      ProxyStep s (.register cfg) { s with table := tbl, nextId := s.nextId + 1 }
  | conflict {s cfg} : register s.table s.nextId cfg = none → ProxyStep s (.register cfg) s
  | unRegister (s : Proxy F) (cfg) : ProxyStep s (.unRegister cfg) { s with table := unRegister s.table cfg }
  | denied {s req status challenge} : serveHTTP s.table req = .denied status challenge →
      ProxyStep s (.serve req) s
  | connect {s req ctx} : serveHTTP s.table req = .connect ctx →
      ProxyStep s (.serve req) { s with inflight := s.inflight ++ [⟨req, ctx, .dialling, false⟩] }
  | proxied {s req ctx} : serveHTTP s.table req = .proxied ctx →
      ProxyStep s (.serve req) { s with inflight := s.inflight ++ [⟨req, ctx, .checked, true⟩] }
  | rewrite {s k q} (out : Header) (chosen : Str) : s.inflight[k]? = some q → q.progress = .checked →
      ProxyStep s (.rewrite k out chosen) { s with
        inflight := s.inflight.set k
          { q with ctx := { q.ctx with info := (rewrite q.ctx q.req out chosen).2 }, progress := .dialling } }
  | dial {s k q rc c} : s.inflight[k]? = some q → q.progress = .dialling →
      createConnection s.table q.ctx.info q.byEndpoint = some (rc, c) →
      ProxyStep s (.dial k) { s with dials := s.dials ++ [⟨k, rc, c⟩] }
  | noRoute {s k q} : s.inflight[k]? = some q → q.progress = .dialling →
      createConnection s.table q.ctx.info q.byEndpoint = none → ProxyStep s (.dial k) s
  | finish {s k q} : s.inflight[k]? = some q →
      ProxyStep s (.finish k) { s with inflight := s.inflight.set k { q with progress := .finished } }

end

end Frp
