import Frp.Http
import Frp.Routers

/-!
# The connection muxer

`Muxer.handle` of `pkg/util/vhost/vhost.go`, and the HTTP CONNECT muxer of
`pkg/util/tcpmux/httpconnect.go` as an instance of it. What the network does to a connection
is in `Faults`.
-/

namespace Frp

structure VhostListener where
  id : Nat
  name : Str
  location : Str
  routeByHTTPUser : Str
  rewriteHost : Str
  username : Str
  password : Str

/-- `reqInfoMap`; a key that was not set reads as the empty string. -/
structure ReqInfo where
  host : Str
  path : Str
  scheme : Str
  httpUser : Str
  httpPwd : Str

inductive Response
  | ok
  | proxyUnauthorized
  | notFound
  deriving DecidableEq

/-- Which operations on the connection fail: the two `SetDeadline` calls, the write of the
success hook, and the send to a listener that was closed meanwhile. -/
structure Faults where
  setDeadline : Bool
  write : Bool
  resetDeadline : Bool
  listenerClosed : Bool

def Faults.none : Faults := ⟨false, false, false, false⟩

structure Outcome where
  responses : List Response
  handed : Option VhostListener
  closed : Bool

/-- The functions a muxer is set up with. A hook returns what it wrote; `successHook` fails
with `none`, and `failHook` closes the connection. -/
structure Muxer where
  successHook : Option (ReqInfo → Bool → Option (List Response))
  checkAuth : Option (Str → Str → ReqInfo → Bool × List Response)
  failHook : List Response

namespace Muxer
variable [UnicodeCase]

def listen (tbl : Routers VhostListener) (l : VhostListener) : Option (Routers VhostListener) :=
  tbl.add l.name l.location l.routeByHTTPUser l

def getListener (tbl : Routers VhostListener) (info : ReqInfo) : Option VhostListener :=
  (tbl.getByRoute info.host.toLower info.path.toLower info.httpUser).map (·.payload)

def handOff (faults : Faults) (written : List Response) (l : VhostListener) : Outcome :=
  if faults.resetDeadline then ⟨written, none, true⟩
  else if faults.listenerClosed then ⟨written, none, false⟩
  else ⟨written, some l, false⟩

def authorize (v : Muxer) (faults : Faults) (written : List Response) (info : ReqInfo) (l : VhostListener) : Outcome :=
  match v.checkAuth with
  | some checkAuth =>
    if l.username ≠ [] then
      match checkAuth l.username l.password info with
      | (true, out) => handOff faults (written ++ out) l
      | (false, out) => ⟨written ++ out, none, true⟩
    else handOff faults written l
  | none => handOff faults written l

/-- `handle` after `vhostFunc` has read the request, which fails with `none`. -/
def handle (v : Muxer) (tbl : Routers VhostListener) (faults : Faults) (info : Option ReqInfo) : Outcome :=
  if faults.setDeadline then ⟨[], none, true⟩
  else
    match info with
    | none => ⟨[], none, true⟩
    | some info =>
      match getListener tbl info with
      | none => ⟨v.failHook, none, true⟩
      | some l =>
        match v.successHook with
        | none => v.authorize faults [] info l
        | some successHook =>
          match successHook info faults.write with
          | none => ⟨[], none, true⟩
          | some written => v.authorize faults written info l

end Muxer

/-! ## HTTP CONNECT -/

namespace HTTPConnect

/-- The user and password of the proxy header; both empty without one that parses. -/
def proxyCredentials (req : Request) : Credentials :=
  if req.proxyAuthorization = [] then ⟨[], []⟩ else (parseBasicAuth req.proxyAuthorization).getD ⟨[], []⟩

def getHostFromHTTPConnect [UnicodeCase] (req : Option Request) : Option ReqInfo :=
  req.bind fun req =>
    if req.method ≠ Request.connect then none
    else
      let c := proxyCredentials req
      some ⟨(canonicalHost req.host).getD [], [], lit "tcp", c.username, c.password⟩

def sendConnectResponse (passthrough : Bool) (_ : ReqInfo) (writeErr : Bool) : Option (List Response) :=
  if passthrough then some []
  else if writeErr then none
  else some [.ok]

def auth (username password : Str) (info : ReqInfo) : Bool × List Response :=
  if username = info.httpUser ∧ password = info.httpPwd then (true, [])
  else (false, [.proxyUnauthorized])

def muxer (passthrough : Bool) : Muxer := ⟨some (sendConnectResponse passthrough), some auth, [.notFound]⟩

def serve [UnicodeCase] (passthrough : Bool) (tbl : Routers VhostListener) (faults : Faults) (req : Option Request) :
    Outcome :=
  (muxer passthrough).handle tbl faults (getHostFromHTTPConnect req)

def routedTo [UnicodeCase] (tbl : Routers VhostListener) (req : Request) : Option VhostListener :=
  (getHostFromHTTPConnect (some req)).bind (Muxer.getListener tbl)

end HTTPConnect

end Frp
