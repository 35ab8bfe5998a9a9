import Frp.Fair
import Frp.HoleRecords
import Frp.Slots

/-!
# Waiting on several sockets

The end of `MakeHole` of `pkg/nathole/nathole.go` with more than one listening socket: one
goroutine for each waits for a detect message, and offers it on an unbuffered channel by a send
that does not block.
-/

namespace Frp

structure NatHoleSid where
  transactionID : Str
  sid : Str
  response : Bool
  nonce : Str

inductive ReadResult
  | error
  | datagram (buf raddr : Str)

/-- What `waitDetectMessage` does with one read; a `reply` is written to `raddr`. -/
inductive Detect
  | again
  | failed
  | found (raddr : Str) (reply : Option Str)
  deriving DecidableEq

structure HoleCfg where
  conns : Nat
  sid : Str
  role : DetectRole
  decode : Str → Option NatHoleSid
  encode : NatHoleSid → Option Str

namespace HoleCfg

def detect (cfg : HoleCfg) : ReadResult → Detect
  | .error => .failed
  | .datagram buf raddr =>
    match cfg.decode buf with
    | none => .again
    | some m =>
      if m.sid ≠ cfg.sid then .again
      else if m.response then .found raddr none
      -- only wait for response messages if we are a sender
      else if cfg.role = .sender then .again
      else
        match cfg.encode { m with response := true } with
        | none => .again
        | some buf2 => .found raddr (some buf2)

/-- `waitDetectMessage` on the reads it has made: it has not returned, or with an error, or with the address
of the peer. -/
def waitDetectMessage (cfg : HoleCfg) : List ReadResult → Option (Option Str)
  | [] => none
  | r :: rest =>
    match cfg.detect r with
    | .again => cfg.waitDetectMessage rest
    | .failed => some none
    | .found raddr _ => some (some raddr)

end HoleCfg

inductive HoleWaitPc
  | waiting
  | offering (raddr : Str)
  | sent
  | closed
  deriving DecidableEq

inductive HoleError
  | timeout
  | canceled
  deriving DecidableEq

inductive HoleMainPc
  | spawning (k : Nat)
  | selecting
  | returned (result : Except HoleError (Nat × Str))

inductive HoleMoment
  | offer (i : Nat) (raddr : Str)
  | select
  | giveUp

/-- `log` is latest first, the reads of a socket are oldest first. -/
structure MakeHole where
  main : HoleMainPc := .spawning 0
  waits : Nat → HoleWaitPc := fun _ => .waiting
  reads : Nat → List ReadResult := fun _ => []
  log : List HoleMoment := []

namespace MakeHole

def started (cfg : HoleCfg) (s : MakeHole) : Nat :=
  match s.main with
  | .spawning k => k
  | .selecting | .returned _ => cfg.conns

def selects (s : MakeHole) : Bool :=
  match s.main with
  | .selecting => true
  | .spawning _ | .returned _ => false

def setWait (s : MakeHole) (i : Nat) (p : HoleWaitPc) : MakeHole := { s with waits := Function.update s.waits i p }

def read (s : MakeHole) (i : Nat) (r : ReadResult) : MakeHole :=
  { s with reads := Function.update s.reads i (s.reads i ++ [r]) }

end MakeHole

inductive HoleActor
  | main
  | again (i : Nat)
  | act (i : Nat)
  deriving DecidableEq

inductive MakeHoleStep (cfg : HoleCfg) : MakeHole → HoleActor → MakeHole → Prop
  | spawn {s k} : s.main = .spawning k → k < cfg.conns → MakeHoleStep cfg s .main { s with main := .spawning (k + 1) }
  | select {s} : s.main = .spawning cfg.conns →
      MakeHoleStep cfg s .main { s with main := .selecting, log := .select :: s.log }
  | giveUp {s} (err : HoleError) : s.main = .selecting →
      MakeHoleStep cfg s .main { s with main := .returned (.error err), log := .giveUp :: s.log }
  | again {s i r} : i < s.started cfg → s.waits i = .waiting → cfg.detect r = .again →
      MakeHoleStep cfg s (.again i) (s.read i r)
  | fails {s i r} : i < s.started cfg → s.waits i = .waiting → cfg.detect r = .failed →
      MakeHoleStep cfg s (.act i) ((s.read i r).setWait i .closed)
  | finds {s i r raddr reply} : i < s.started cfg → s.waits i = .waiting → cfg.detect r = .found raddr reply →
      MakeHoleStep cfg s (.act i) ((s.read i r).setWait i (.offering raddr))
  | send {s i raddr} : s.waits i = .offering raddr → s.main = .selecting →
      MakeHoleStep cfg s (.act i) { s.setWait i .sent with
        main := .returned (.ok (i, raddr)), log := .offer i raddr :: s.log }
  | drop {s i raddr} : s.waits i = .offering raddr → s.selects = false →
      MakeHoleStep cfg s (.act i) { s.setWait i .closed with log := .offer i raddr :: s.log }

def MakeHole.Reachable (cfg : HoleCfg) : MakeHole → Prop := Reach (· = {}) (MakeHoleStep cfg)

def OfferedInTime (log : List HoleMoment) : Prop :=
  ∃ late i raddr early, log = late ++ .offer i raddr :: early ∧ .select ∈ early ∧ .giveUp ∉ early

end Frp
