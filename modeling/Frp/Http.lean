import Frp.Base64

/-!
# Requests, credentials and host names

Headers and requests as `net/http` delivers them, and the helpers of
`pkg/util/http`: `CanonicalHost`, `ParseBasicAuth` and `BasicAuth`.
-/

namespace Frp

/-! ## Headers -/

def validHeaderFieldByte (b : UInt8) : Bool :=
  (48 ≤ b && b ≤ 57) || (65 ≤ b && b ≤ 90) || (97 ≤ b && b ≤ 122) || (lit "!#$%&'*+-.^_|~").contains b || b == 96

def upperByte (b : UInt8) : UInt8 := if 97 ≤ b ∧ b ≤ 122 then b - 32 else b

def canonicalKeyFrom (upper : Bool) : Str → Str
  | [] => []
  | b :: r => (if upper then upperByte b else Str.lowerByte b) :: canonicalKeyFrom (b == 45) r

def canonicalKey (k : Str) : Str := if k.all validHeaderFieldByte then canonicalKeyFrom true k else k

abbrev Header := Str → List Str

namespace Header

def empty : Header := fun _ => []
def get (h : Header) (k : Str) : Str := (h (canonicalKey k)).headD []
def set (h : Header) (k v : Str) : Header := Function.update h (canonicalKey k) [v]
def del (h : Header) (k : Str) : Header := Function.update h (canonicalKey k) []

theorem get_set (h : Header) (k v : Str) : (h.set k v).get k = v := by
  unfold get set
  rw [Function.update_self]; rfl

def setAll (h : Header) (kvs : List (Str × Str)) : Header := kvs.foldl (fun h kv => h.set kv.1 kv.2) h

end Header

/-! ## Credentials -/

@[ext] structure Credentials where
  username : Str
  password : Str
  deriving DecidableEq

def basicPrefix : Str := lit "Basic "

def parseBasicAuth (auth : Str) : Option Credentials :=
  if (auth.take basicPrefix.length).map Str.lowerByte = basicPrefix.map Str.lowerByte then
    match Base64.decode (auth.drop basicPrefix.length) with
    | none => none
    | some cs => (Str.cut cs Str.colon).map fun p => ⟨p.1, p.2⟩
  else none

def basicAuth (username passwd : Str) : Str :=
  basicPrefix ++ Base64.encode (username ++ Str.colon :: passwd)

theorem cut_append {sep : UInt8} : ∀ (u p : Str), sep ∉ u → Str.cut (u ++ sep :: p) sep = some (u, p)
  | [], p, _ => by simp [Str.cut]
  | b :: u, p, h => by
    simp only [List.mem_cons, not_or] at h
    simp [Str.cut, Ne.symm h.1, cut_append u p h.2]

theorem parseBasicAuth_basicAuth (u p : Str) (hu : Str.colon ∉ u) :
    parseBasicAuth (basicAuth u p) = some ⟨u, p⟩ := by
  have hlen : (basicAuth u p).take basicPrefix.length = basicPrefix := by
    unfold basicAuth; exact List.take_left
  have hrest : (basicAuth u p).drop basicPrefix.length = Base64.encode (u ++ Str.colon :: p) := by
    unfold basicAuth; exact List.drop_left
  simp [parseBasicAuth, hlen, hrest, Base64.decode_encode, cut_append u p hu]

/-! ## Host names -/

def hasPort (host : Str) : Bool :=
  let colons := host.count Str.colon
  if colons = 0 then false
  else if colons = 1 then true
  else host.head? == some Str.lbrack && host.containsPair Str.rbrack Str.colon

/-- `CanonicalHost`; `none` is an error, with which the function returns the empty host. -/
def canonicalHost [UnicodeCase] (host : Str) : Option Str :=
  let host := host.toLower
  if hasPort host then
    match host.splitHostPort with
    | none => none
    | some (host, _) => some (host.trimSuffix [Str.dot])
  else some (host.trimSuffix [Str.dot])

/-! ## Requests -/

structure Request where
  method : Str
  urlHost : Str
  urlPath : Str
  host : Str
  header : Header
  remoteAddr : Str
  tls : Bool

namespace Request

def connect : Str := lit "CONNECT"

def basicAuth (req : Request) : Option Credentials :=
  let auth := req.header.get (lit "Authorization")
  if auth = [] then none else parseBasicAuth auth

def proxyAuthorization (req : Request) : Str := req.header.get (lit "Proxy-Authorization")

end Request

end Frp
