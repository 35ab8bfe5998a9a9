import Frp.Str
import Mathlib.Logic.Function.Basic

/-!
# Client registry

`server/registry/registry.go`: the clients known to the server by key, and the
key each run id is online under. Instants are numbers, 0 for the zero time.
-/

namespace Frp

structure ClientInfo where
  key : Str
  user : Str
  rawClientID : Str
  runID : Str
  controlID : Nat
  hostname : Str
  ip : Str
  version : Str
  wireProtocol : Str
  firstConnectedAt : Nat
  lastConnectedAt : Nat
  disconnectedAt : Nat
  online : Bool

structure ClientLogin where
  user : Str
  clientID : Str
  hostname : Str
  version : Str
  remoteAddr : Str
  wireProtocol : Str

structure Registry where
  clients : Str → Option ClientInfo
  runIndex : Str → Option Str

namespace Registry

def new : Registry := ⟨fun _ => none, fun _ => none⟩

def composeClientKey (user id : Str) : Str :=
  if user = [] then id
  else if id = [] then user
  else user ++ Str.dot :: id

def setClientOffline (info : ClientInfo) (now : Nat) : ClientInfo :=
  { info with runID := [], controlID := 0, online := false, disconnectedAt := now }

def offline (info : ClientInfo) (now : Nat) : Option ClientInfo :=
  if info.rawClientID = [] then none else some (setClientOffline info now)

def setClient (cr : Registry) (key : Str) (info : Option ClientInfo) : Registry :=
  { cr with clients := Function.update cr.clients key info }

def setIndex (cr : Registry) (runID : Str) (key : Option Str) : Registry :=
  { cr with runIndex := Function.update cr.runIndex runID key }

def release (cr : Registry) (now : Nat) (key runID : Str) (cond : ClientInfo → Bool) : Registry :=
  match cr.clients key with
  | some info => if info.runID = runID ∧ cond info then cr.setClient key (offline info now) else cr
  | none => cr

def leavePrevious (cr : Registry) (now : Nat) (key runID : Str) : Registry :=
  match cr.runIndex runID with
  | some previousKey =>
    if previousKey ≠ key then (cr.release now previousKey runID fun _ => true).setIndex runID none else cr
  | none => cr

def evict (cr : Registry) (key : Str) : Registry :=
  match cr.clients key with
  | some info => if info.runID ≠ [] then cr.setIndex info.runID none else cr
  | none => cr

def clientKey (l : ClientLogin) (runID : Str) : Str :=
  composeClientKey l.user (if l.clientID = [] then runID else l.clientID)

def conflicts (cr : Registry) (l : ClientLogin) (runID : Str) : Bool :=
  match cr.clients (clientKey l runID) with
  | some info => l.clientID ≠ [] ∧ info.online ∧ info.runID ≠ [] ∧ info.runID ≠ runID
  | none => false

def registered (old : Option ClientInfo) (now : Nat) (l : ClientLogin) (runID : Str) (controlID : Nat) :
    ClientInfo where
  key := (old.map (·.key)).getD (clientKey l runID)
  user := (old.map (·.user)).getD l.user
  rawClientID := l.clientID
  runID := runID
  controlID := controlID
  hostname := l.hostname
  ip := l.remoteAddr
  version := l.version
  wireProtocol := l.wireProtocol
  firstConnectedAt :=
    match old with
    | some info => if info.firstConnectedAt = 0 then now else info.firstConnectedAt
    | none => now
  lastConnectedAt := now
  disconnectedAt := 0
  online := true

def registerWithControlID (cr : Registry) (now : Nat) (l : ClientLogin) (runID : Str) (controlID : Nat) :
    Registry × Str × Bool :=
  if runID = [] then (cr, [], false)
  else
    let key := clientKey l runID
    if cr.conflicts l runID then (cr, key, true)
    else
      let info := registered (cr.clients key) now l runID controlID
      ((((cr.leavePrevious now key runID).evict key).setClient key (some info)).setIndex runID (some key), key, false)

def markOfflineByRunID (cr : Registry) (now : Nat) (runID : Str) (controlID : Option Nat) : Registry :=
  match cr.runIndex runID with
  | none => cr
  | some key =>
    let cr := cr.release now key runID fun info => controlID.all (info.controlID = ·)
    match cr.clients key with
    | some info => if info.runID ≠ runID then cr.setIndex runID none else cr
    | none => cr.setIndex runID none

end Registry

end Frp
