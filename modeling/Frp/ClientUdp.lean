import Frp.Fair
import Frp.Slots

/-!
# The client's UDP proxy

`InWorkConn` and `Close` of `client/proxy/udp.go`, called at any time. A section under `pxy.mu`
is one step; the channels are read later without the lock. Call `i` has the work connection `i`
and makes the channels `i`.
-/

namespace Frp

open Function

inductive ChanSide
  | read
  | send
  deriving DecidableEq

/-- The places at which `InWorkConn` reads a channel of the proxy, in their order: the arguments of
the goroutines, and the two of `Forwarder`. -/
inductive ChanUse
  | sender
  | reader
  | heartbeat
  | forwardFrom
  | forwardTo
  deriving DecidableEq

namespace ChanUse

def side : ChanUse → ChanSide
  | reader | forwardFrom => .read
  | sender | heartbeat | forwardTo => .send

def rank : ChanUse → Nat
  | sender => 0
  | reader => 1
  | heartbeat => 2
  | forwardFrom => 3
  | forwardTo => 4

end ChanUse

/-- A call of `InWorkConn`; `closing` is before its own call of `Close`. -/
inductive InWorkConnPc
  | idle
  | closing
  | wrapping
  | framing
  | installing
  | starting (u : ChanUse)
  | forwarding
  | failed
  deriving DecidableEq

def ChanUse.next : ChanUse → InWorkConnPc
  | sender => .starting .reader
  | reader => .starting .heartbeat
  | heartbeat => .starting .forwardFrom
  | forwardFrom => .starting .forwardTo
  | forwardTo => .forwarding

namespace InWorkConnPc

def setUp : InWorkConnPc → Bool
  | starting _ | forwarding => true
  | _ => false

def settled : InWorkConnPc → Bool
  | idle | forwarding | failed => true
  | _ => false

def reads : InWorkConnPc → Nat
  | starting u => u.rank
  | forwarding => 5
  | _ => 0

end InWorkConnPc

inductive UDPCloseCallPc
  | idle
  | pending
  | done
  deriving DecidableEq

inductive UDPCall
  | inWorkConn (i : Nat)
  | close (j : Nat)
  deriving DecidableEq

/-- What happens to the fields of the proxy: a section of `Close`, the section of `InWorkConn` that
sets them, and a read of a channel. -/
inductive UDPSection
  | close
  | install (i : Nat)
  | read (i : Nat) (u : ChanUse)
  deriving DecidableEq

/-- `took` are the channels that were read, `queue` the messages in `sendCh`, and `sent` what the
sender of a connection has sent, with the channel it is from. `starts` and `log` are latest first. -/
structure ClientUDPProxy where
  workConn : Option Nat := none
  chans : ChanSide → Option Nat := fun _ => none
  closed : Bool := false
  calls : Nat → InWorkConnPc := fun _ => .idle
  closeCalls : Nat → UDPCloseCallPc := fun _ => .idle
  connClosed : Nat → Bool := fun _ => false
  chanCloses : ChanSide → Nat → Nat := fun _ _ => 0
  took : Nat → ChanUse → Option Nat := fun _ _ => none
  queue : Nat → List Nat := fun _ => []
  sent : Nat → List (Nat × Nat) := fun _ => []
  starts : List UDPCall := []
  log : List UDPSection := []

namespace ClientUDPProxy

def setCall (s : ClientUDPProxy) (i : Nat) (p : InWorkConnPc) : ClientUDPProxy :=
  { s with calls := update s.calls i p }

def closeConn (s : ClientUDPProxy) (i : Nat) : ClientUDPProxy :=
  { s with connClosed := update s.connClosed i true }

def close (s : ClientUDPProxy) : ClientUDPProxy :=
  if s.closed then { s with log := .close :: s.log }
  else
    { s with
      closed := true
      connClosed := fun c => if s.workConn = some c then true else s.connClosed c
      chanCloses := fun side c => if s.chans side = some c then s.chanCloses side c + 1 else s.chanCloses side c
      log := .close :: s.log }

def install (s : ClientUDPProxy) (i : Nat) : ClientUDPProxy :=
  { s with workConn := some i, chans := fun _ => some i, closed := false, log := .install i :: s.log }

end ClientUDPProxy

inductive ClientUDPStep : ClientUDPProxy → UDPCall → ClientUDPProxy → Prop
  | start {s i} : s.calls i = .idle →
      ClientUDPStep s (.inWorkConn i) { s.setCall i .closing with starts := .inWorkConn i :: s.starts }
  | closeOld {s i} : s.calls i = .closing → ClientUDPStep s (.inWorkConn i) (s.close.setCall i .wrapping)
  -- wrapWorkConn closes the connection itself
  | wrapFails {s i} : s.calls i = .wrapping →
      ClientUDPStep s (.inWorkConn i) ((s.closeConn i).setCall i .failed)
  | wrap {s i} : s.calls i = .wrapping → ClientUDPStep s (.inWorkConn i) (s.setCall i .framing)
  | codecFails {s i} : s.calls i = .framing →
      ClientUDPStep s (.inWorkConn i) ((s.closeConn i).setCall i .failed)
  | codec {s i} : s.calls i = .framing → ClientUDPStep s (.inWorkConn i) (s.setCall i .installing)
  | install {s i} : s.calls i = .installing →
      ClientUDPStep s (.inWorkConn i) ((s.install i).setCall i (.starting .sender))
  | read {s i u} : s.calls i = .starting u →
      ClientUDPStep s (.inWorkConn i)
        { s.setCall i u.next with
          took := update s.took i (update (s.took i) u (s.chans u.side))
          log := .read i u :: s.log }
  -- the heartbeat and the forwarder of call i put messages into the channel they were given
  | put {s i u ch} (msg : Nat) : u = .heartbeat ∨ u = .forwardTo → s.took i u = some ch → s.chanCloses .send ch = 0 →
      ClientUDPStep s (.inWorkConn i) { s with queue := update s.queue ch (s.queue ch ++ [msg]) }
  | send {s i ch msg rest} : s.took i .sender = some ch → s.queue ch = msg :: rest →
      ClientUDPStep s (.inWorkConn i)
        { s with
          queue := update s.queue ch rest
          sent := update s.sent i (s.sent i ++ [(ch, msg)]) }
  | closeStarts {s j} : s.closeCalls j = .idle →
      ClientUDPStep s (.close j)
        { s with closeCalls := update s.closeCalls j .pending, starts := .close j :: s.starts }
  | close {s j} : s.closeCalls j = .pending →
      ClientUDPStep s (.close j) { s.close with closeCalls := update s.closeCalls j .done }

namespace ClientUDPProxy

def Reachable : ClientUDPProxy → Prop := Reach (· = {}) ClientUDPStep

def AtMostOne (s : ClientUDPProxy) : Prop :=
  ∀ i j, (s.calls i).setUp = true → (s.calls j).setUp = true → s.connClosed i = false → s.connClosed j = false →
    i = j

def Settled (s : ClientUDPProxy) : Prop := (∀ i, (s.calls i).settled = true) ∧ ∀ j, s.closeCalls j ≠ .pending

def AllClosed (s : ClientUDPProxy) : Prop := ∀ i, s.calls i ≠ .idle → s.connClosed i = true

end ClientUDPProxy

/-! ## Orders of sections, the latest first -/

def Separated (log : List UDPSection) : Prop :=
  ∀ late j between i early, log = late ++ .install j :: (between ++ .install i :: early) → .close ∈ between

def Ended (log : List UDPSection) : Prop := ∀ late i early, log = late ++ .install i :: early → .close ∈ late

def Prompt (i : Nat) (u : ChanUse) (log : List UDPSection) : Prop :=
  ∃ late between early, log = late ++ .read i u :: (between ++ .install i :: early) ∧ ∀ j, .install j ∉ between

end Frp
