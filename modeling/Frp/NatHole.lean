import Frp.Lts
import Frp.Str

/-!
# NAT-hole controller and relay listeners

`HandleVisitor` of `pkg/nathole/controller.go`, and `NewConn` of
`server/visitor/visitor.go`. Session ids are drawn from a counter in place of time and
randomness, so they never repeat.
-/

namespace Frp

open Function

class Md5 where
  sum : List UInt8 → List UInt8

def hexDigit (n : UInt8) : UInt8 := if n < 10 then 48 + n else 87 + n

def hexEncode (l : List UInt8) : Str := l.flatMap fun b => [hexDigit (b / 16), hexDigit (b % 16)]

def formatInt (n : Int) : Str := lit (toString n)

def getAuthKey [Md5] (token : Str) (timestamp : Int) : Str := hexEncode (Md5.sum (token ++ formatInt timestamp))

def allows (allowUsers : List Str) (user : Str) : Prop := user ∈ allowUsers ∨ lit "*" ∈ allowUsers

instance (allowUsers : List Str) (user : Str) : Decidable (allows allowUsers user) :=
  inferInstanceAs (Decidable (_ ∨ _))

structure ClientCfg where
  name : Str
  sk : Str
  allowUsers : List Str
  sidCh : Nat

structure NatHoleVisitor where
  transactionID : Str
  proxyName : Str
  preCheck : Bool
  signKey : Str
  timestamp : Int

structure NatHoleClient where
  transactionID : Str
  sid : Nat

structure NatHoleResp where
  transactionID : Str
  error : Str
  deriving DecidableEq

/-- A session of `HandleVisitor`; `notified` is the one slot of `notifyCh`. -/
structure NatSession where
  visitorMsg : NatHoleVisitor
  visitorTransporter : Nat
  client : Option (NatHoleClient × Nat)
  notified : Bool

inductive VisitPc
  | inserted
  | waiting
  | responding
  | leaving
  deriving DecidableEq

structure Visit where
  msg : NatHoleVisitor
  user : Str
  cfg : ClientCfg
  pc : VisitPc

structure NatHole where
  clientCfgs : Str → Option ClientCfg
  sessions : Nat → Option NatSession
  visits : Nat → Option Visit
  nextSid : Nat
  nextCh : Nat
  sidSent : List (Nat × Nat)
  replies : List (Nat × NatHoleResp)

/-! ## `HandleVisitor` -/

def noServer (proxyName : Str) : Str := lit "xtcp server for [" ++ proxyName ++ lit "] doesn't exist"

def preCheckError (cfgs : Str → Option ClientCfg) (m : NatHoleVisitor) (user : Str) : Str :=
  match cfgs m.proxyName with
  | none => noServer m.proxyName
  | some cfg =>
    if ¬ allows cfg.allowUsers user then
      lit "xtcp visitor user [" ++ user ++ lit "] not allowed for [" ++ m.proxyName ++ lit "]"
    else []

def admitVisitor [Md5] (cfgs : Str → Option ClientCfg) (m : NatHoleVisitor) : Except Str ClientCfg :=
  match cfgs m.proxyName with
  | none => .error (noServer m.proxyName)
  | some cfg =>
    if m.signKey ≠ getAuthKey cfg.sk m.timestamp then
      .error (lit "xtcp connection of [" ++ m.proxyName ++ lit "] auth failed")
    else .ok cfg

inductive NatEvent
  | listenClient (name sk : Str) (allowUsers : List Str)
  | closeClient (name : Str)
  | visitor (m : NatHoleVisitor) (transporter : Nat) (user : Str)
  | sendSid (sid : Nat)
  | client (m : NatHoleClient) (transporter : Nat)
  | wake (sid : Nat)
  | timeout (sid : Nat)
  | respond (sid : Nat)
  | leave (sid : Nat)

namespace NatHole

def Init (s : NatHole) : Prop := s = ⟨fun _ => none, fun _ => none, fun _ => none, 0, 0, [], []⟩

def reply (s : NatHole) (transporter : Nat) (m : NatHoleVisitor) (error : Str) : NatHole :=
  { s with replies := s.replies ++ [(transporter, ⟨m.transactionID, error⟩)] }

def insertSession (s : NatHole) (m : NatHoleVisitor) (transporter : Nat) (user : Str) (cfg : ClientCfg) : NatHole :=
  { s with
    sessions := update s.sessions s.nextSid (some ⟨m, transporter, none, false⟩)
    visits := update s.visits s.nextSid (some ⟨m, user, cfg, .inserted⟩)
    nextSid := s.nextSid + 1 }

def setVisit (s : NatHole) (sid : Nat) (v : Option Visit) : NatHole :=
  { s with visits := update s.visits sid v }

def setSession (s : NatHole) (sid : Nat) (x : Option NatSession) : NatHole :=
  { s with sessions := update s.sessions sid x }

end NatHole

section
variable [Md5]

inductive NatStep : NatHole → NatEvent → NatHole → Prop
  | listenClient {s name} (sk : Str) (allowUsers : List Str) : s.clientCfgs name = none →
      NatStep s (.listenClient name sk allowUsers) { s with
        clientCfgs := update s.clientCfgs name (some ⟨name, sk, allowUsers, s.nextCh⟩)
        nextCh := s.nextCh + 1 }
  | repeated {s name sk allowUsers} : s.clientCfgs name ≠ none →
      NatStep s (.listenClient name sk allowUsers) s
  | closeClient (s : NatHole) (name : Str) :
      NatStep s (.closeClient name) { s with clientCfgs := update s.clientCfgs name none }
  | preCheck {s m} (transporter : Nat) (user : Str) : m.preCheck = true →
      NatStep s (.visitor m transporter user) (s.reply transporter m (preCheckError s.clientCfgs m user))
  | refused {s m err} (transporter : Nat) (user : Str) : m.preCheck = false → admitVisitor s.clientCfgs m = .error err →
      NatStep s (.visitor m transporter user) ({ s with nextSid := s.nextSid + 1 }.reply transporter m err)
  | admitted {s m cfg} (transporter : Nat) (user : Str) : m.preCheck = false → admitVisitor s.clientCfgs m = .ok cfg →
      NatStep s (.visitor m transporter user) (s.insertSession m transporter user cfg)
  | sendSid {s sid v} : s.visits sid = some v → v.pc = .inserted →
      NatStep s (.sendSid sid) { s.setVisit sid (some { v with pc := .waiting }) with
        sidSent := s.sidSent ++ [(v.cfg.sidCh, sid)] }
  | client {s m x} (transporter : Nat) : s.sessions m.sid = some x →
      NatStep s (.client m transporter) (s.setSession m.sid (some { x with
        client := some (m, transporter), notified := true }))
  | noSession {s m} (transporter : Nat) : s.sessions m.sid = none → NatStep s (.client m transporter) s
  | wake {s sid v x} : s.visits sid = some v → v.pc = .waiting → s.sessions sid = some x → x.notified = true →
      NatStep s (.wake sid) ((s.setVisit sid (some { v with pc := .responding })).setSession sid
        (some { x with notified := false }))
  | timeout {s sid v} : s.visits sid = some v → v.pc = .waiting →
      NatStep s (.timeout sid) (s.setVisit sid (some { v with pc := .leaving }))
  | respond {s sid v} : s.visits sid = some v → v.pc = .responding →
      NatStep s (.respond sid) (s.setVisit sid (some { v with pc := .leaving }))
  | leave {s sid v} : s.visits sid = some v → v.pc = .leaving →
      NatStep s (.leave sid) ((s.setVisit sid none).setSession sid none)

end

/-! ## The relay path -/

structure ListenerBundle where
  listener : Nat
  sk : Str
  allowUsers : List Str

structure PutConn where
  listener : Nat
  encryptionKey : Option Str
  compressed : Bool
  wireProtocol : Str
  udpPacketCodec : Str

/-- `Manager.NewConn` up to the hand-over; `encryptionErr` is the error the encryption stream
ends with, if it cannot be made. -/
def newConn [Md5] (listeners : Str → Option ListenerBundle) (name : Str) (timestamp : Int) (signKey : Str)
    (useEncryption useCompression : Bool) (visitorUser wireProtocol : Str) (udpPacketCodecs : List Str)
    (encryptionErr : Option Str) : Except Str PutConn :=
  match listeners name with
  | none => .error (lit "custom listener for [" ++ name ++ lit "] doesn't exist")
  | some l =>
    if getAuthKey l.sk timestamp ≠ signKey then
      .error (lit "visitor connection of [" ++ name ++ lit "] auth failed")
    else if ¬ allows l.allowUsers visitorUser then
      .error (lit "visitor connection of [" ++ name ++ lit "] user [" ++ visitorUser ++ lit "] not allowed")
    else
      match useEncryption, encryptionErr with
      | true, some err => .error (lit "create encryption connection failed: " ++ err)
      | _, _ => .ok ⟨l.listener, if useEncryption then some l.sk else none, useCompression, wireProtocol,
          udpPacketCodecs.headD []⟩

end Frp
