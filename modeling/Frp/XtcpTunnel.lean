import Frp.Holder
import Frp.Lts
import Frp.Slots

/-!
# The tunnel of an XTCP visitor

`client/visitor/xtcp.go`: calls of `getTunnelConn`, `processTunnelStartEvents` with its runs of
`makeNatHole`, the first event of `keepTunnelOpenWorker`, and `Close`. `OpenConn` holds the
read lock until it returns, so it is one step; `Init` makes its session before it takes the
lock.
-/

namespace Frp

inductive TunnelCallPc
  | idle
  | failed
  | signalling
  | done
  deriving DecidableEq

/-- `processTunnelStartEvents`; `waiting` is its `select`, `initing` a run of `Init` that has made its
session. -/
inductive TunnelProcessorPc
  | waiting
  | making
  | initing (x : Nat)
  | sleeping
  | ended
  deriving DecidableEq

/-- `keepTunnelOpenWorker` before and after its first event; its calls of `getTunnelConn` are among the
others. -/
inductive TunnelWorkerPc
  | off
  | starting
  | looping
  deriving DecidableEq

inductive XtcpClosePc
  | idle
  | cancelling
  | closing
  | returned
  deriving DecidableEq

/-- What happens under the lock of the tunnel session; the closer is a call of `getTunnelConn`, or
the visitor's `Close`. -/
inductive TunnelSection
  | install (x : Nat)
  | openFailed (k : Nat) (x : Option Nat)
  | close (k : Option Nat)
  deriving DecidableEq

/-- `session` is the session with its connection. `made` counts the sessions, `installed` are those
of which `Init` has succeeded, and `log` is latest first. -/
structure XtcpTunnel where
  session : Option Nat := none
  made : Nat := 0
  installed : Nat → Bool := fun _ => false
  sessionClosed : Nat → Bool := fun _ => false
  ctxDone : Bool := false
  calls : Nat → TunnelCallPc := fun _ => .idle
  processor : TunnelProcessorPc := .waiting
  worker : TunnelWorkerPc := .off
  closePc : XtcpClosePc := .idle
  log : List TunnelSection := []

namespace XtcpTunnel

def setCall (s : XtcpTunnel) (k : Nat) (p : TunnelCallPc) : XtcpTunnel :=
  { s with calls := Function.update s.calls k p }

def closeSession (s : XtcpTunnel) (k : Option Nat) : XtcpTunnel :=
  { s with
    session := none
    sessionClosed := fun x => if s.session = some x then true else s.sessionClosed x
    log := .close k :: s.log }

def install (s : XtcpTunnel) (x : Nat) : XtcpTunnel :=
  { s with
    session := some x
    installed := Function.update s.installed x true
    log := .install x :: s.log }

end XtcpTunnel

inductive XtcpActor
  | call (k : Nat)
  | processor
  | worker
  | visitor

inductive XtcpStep : XtcpTunnel → XtcpActor → XtcpTunnel → Prop
  -- `getTunnelConn`
  | opened {s k x} : s.calls k = .idle → s.session = some x → XtcpStep s (.call k) (s.setCall k .done)
  | openFails {s k} : s.calls k = .idle →
      XtcpStep s (.call k) { s.setCall k .failed with log := .openFailed k s.session :: s.log }
  | closeFailed {s k} : s.calls k = .failed → XtcpStep s (.call k) ((s.closeSession (some k)).setCall k .signalling)
  | signal {s k} : s.calls k = .signalling → s.processor = .waiting →
      XtcpStep s (.call k) { s.setCall k .done with processor := .making }
  | noSignal {s k} : s.calls k = .signalling → s.processor ≠ .waiting → XtcpStep s (.call k) (s.setCall k .done)
  -- `keepTunnelOpenWorker`
  | start {s} : s.worker = .starting → s.processor = .waiting →
      XtcpStep s .worker { s with worker := .looping, processor := .making }
  -- `makeNatHole`, up to `Init`, and `Init` up to its section
  | noHole {s} : s.processor = .making → XtcpStep s .processor { s with processor := .sleeping }
  | make {s} : s.processor = .making →
      XtcpStep s .processor { s with processor := .initing s.made, made := s.made + 1 }
  | install {s x} : s.processor = .initing x → XtcpStep s .processor { s.install x with processor := .sleeping }
  | wakeUp {s} : s.processor = .sleeping → XtcpStep s .processor { s with processor := .waiting }
  | processorEnds {s} : s.processor = .waiting → s.ctxDone = true → XtcpStep s .processor { s with processor := .ended }
  -- `Close` of the visitor
  | closeStarts {s} : s.closePc = .idle ∨ s.closePc = .returned → XtcpStep s .visitor { s with closePc := .cancelling }
  | cancel {s} : s.closePc = .cancelling → XtcpStep s .visitor { s with ctxDone := true, closePc := .closing }
  | close {s} : s.closePc = .closing → XtcpStep s .visitor { s.closeSession none with closePc := .returned }

namespace XtcpTunnel

def Init (s : XtcpTunnel) : Prop := s = {} ∨ s = { worker := .starting }

def Reachable : XtcpTunnel → Prop := Reach Init XtcpStep

def OnlyStored (s : XtcpTunnel) : Prop :=
  ∀ x, s.installed x = true → s.sessionClosed x = false → s.session = some x

def AllClosed (s : XtcpTunnel) : Prop := ∀ x, s.installed x = true → s.sessionClosed x = true

end XtcpTunnel

def TunnelSection.op : TunnelSection → Option (HoldOp Nat)
  | install x => some (.put x)
  | openFailed _ _ => none
  | close _ => some .close

/-! ## Histories, the latest first -/

def ClosedBetween (log : List TunnelSection) : Prop :=
  ∀ late y between x early, log = late ++ .install y :: (between ++ .install x :: early) → ∃ k, .close k ∈ between

def ClosedAfter (log : List TunnelSection) : Prop :=
  ∀ late x early, log = late ++ .install x :: early → ∃ k, .close k ∈ late

end Frp
