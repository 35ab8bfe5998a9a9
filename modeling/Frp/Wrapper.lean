import Frp.Lts
import Frp.Str

/-!
# A proxy at both ends of a session

`client/proxy/proxy_wrapper.go` for one proxy, and the control of `server/control.go` as far as
that proxy is concerned. Messages are queued in order in both directions. A step is one section
under the wrapper's lock, or one operation of the control's dispatcher.
-/

namespace Frp

inductive ProxyPhase
  | new
  | waitStart
  | startErr
  | running
  | checkFailed
  | closed
  deriving DecidableEq

inductive ProxyMsg
  | newProxy
  | closeProxy
  deriving DecidableEq

structure NewProxyResp where
  remoteAddr : Str
  error : Str

/-! ## The wrapper -/

def waitResponseTimeout : Nat := 20

def startErrTimeout : Nat := 30

structure Wrapper where
  phase : ProxyPhase
  err : Str
  remoteAddr : Str
  health : Nat
  lastSendStartMsg : Nat
  lastStartErr : Nat

namespace Wrapper

def new (monitored : Bool) : Wrapper := ⟨.new, [], [], if monitored then 1 else 0, 0, 0⟩

def notWaitStart : Str := lit "status not wait start, ignore start message"

/-- `SetRunningStatus`, with the messages it sends and the error it returns. `run` is the error of
the underlying proxy's `Run`. -/
def setRunningStatus (pw : Wrapper) (now : Nat) (remoteAddr respErr : Str) (run : Option Str) :
    Wrapper × List ProxyMsg × Option Str :=
  if pw.phase ≠ .waitStart then (pw, [], some notWaitStart)
  else
    let pw := { pw with remoteAddr := remoteAddr }
    if respErr ≠ [] then ({ pw with phase := .startErr, err := respErr, lastStartErr := now }, [], some respErr)
    else
      match run with
      | some e => ({ pw with phase := .startErr, err := e, lastStartErr := now }, [.closeProxy], some e)
      | none => ({ pw with phase := .running, err := [] }, [], none)

def startable (pw : Wrapper) (now : Nat) : Prop :=
  pw.phase = .new ∨ pw.phase = .checkFailed ∨
    (pw.phase = .waitStart ∧ pw.lastSendStartMsg + waitResponseTimeout < now) ∨
    (pw.phase = .startErr ∧ pw.lastStartErr + startErrTimeout < now)

instance (pw : Wrapper) (now : Nat) : Decidable (pw.startable now) :=
  inferInstanceAs (Decidable (_ ∨ _ ∨ (_ ∧ _) ∨ (_ ∧ _)))

def checkWorker (pw : Wrapper) (now : Nat) : Wrapper × List ProxyMsg :=
  if pw.health = 0 then
    if pw.startable now then ({ pw with phase := .waitStart, lastSendStartMsg := now }, [.newProxy]) else (pw, [])
  else if pw.phase = .running ∨ pw.phase = .waitStart then ({ pw with phase := .checkFailed }, [.closeProxy])
  else (pw, [])

def stop (pw : Wrapper) : Wrapper × List ProxyMsg := ({ pw with phase := .closed }, [.closeProxy])

end Wrapper

/-! ## The control -/

/-- The proxy was started, it was filed with the proxy manager, the response is to be sent; or it
was taken out of the map, then closed. -/
inductive HandlerPc
  | idle
  | opened
  | filed
  | answering (resp : NewProxyResp)
  | dropped
  | closed

inductive NameOwner
  | nobody
  | control
  | other
  deriving DecidableEq

def generateResponseErrorString (summary err : Str) (detailed : Bool) : Str := if detailed then err else summary

structure Session where
  wireName : Str
  detailedErrorsToClient : Bool
  clock : Nat
  pw : Wrapper
  c2s : List ProxyMsg
  s2c : List NewProxyResp
  pc : HandlerPc
  proxies : Bool
  owner : NameOwner

namespace Session

def Init (s : Session) : Prop :=
  ∃ monitored, s = ⟨s.wireName, s.detailedErrorsToClient, s.clock, .new monitored, [], [], .idle, false, .nobody⟩

def failure (s : Session) (err : Str) : NewProxyResp :=
  ⟨[], generateResponseErrorString (lit "new proxy [" ++ s.wireName ++ lit "] error") err s.detailedErrorsToClient⟩

def alreadyInUse (s : Session) : Str := lit "proxy name [" ++ s.wireName ++ lit "] is already in use"

def client (s : Session) (now : Nat) (r : Wrapper × List ProxyMsg) : Session :=
  { s with clock := now, pw := r.1, c2s := s.c2s ++ r.2 }

def deliver (s : Session) (now : Nat) (resp : NewProxyResp) (run : Option Str) : Wrapper × List ProxyMsg :=
  let r := s.pw.setRunningStatus now resp.remoteAddr resp.error run
  (r.1, r.2.1)

def Quiescent (s : Session) : Prop := s.c2s = [] ∧ s.s2c = []

end Session

inductive SessionEvent
  | tick (now : Nat)
  | health
  | deliver (resp : NewProxyResp) (run : Option Str)
  | stop
  | server
  | other

open Session in
inductive SessionStep : Session → SessionEvent → Session → Prop
  -- the wrapper
  | tick {s} (now : Nat) : s.clock ≤ now → SessionStep s (.tick now) (s.client now (s.pw.checkWorker now))
  | statusNormal (s) : SessionStep s .health { s with pw := { s.pw with health := 0 } }
  | statusFailed (s) : SessionStep s .health { s with pw := { s.pw with health := 1 } }
  | deliver {s resp rest} (now : Nat) (run : Option Str) : s.clock ≤ now → s.s2c = resp :: rest →
      SessionStep s (.deliver resp run) { s.client now (s.deliver now resp run) with s2c := rest }
  | stop {s} : s.pw.phase ≠ .closed → SessionStep s .stop (s.client s.clock s.pw.stop)
  -- `handleNewProxy`: an error before the proxy manager, the start of the proxy, and the rest of `RegisterProxy`
  | refuse {s rest} (err : Str) : s.pc = .idle → s.c2s = .newProxy :: rest →
      SessionStep s .server { s with pc := .answering (s.failure err) }
  | openProxy {s rest} : s.pc = .idle → s.c2s = .newProxy :: rest → s.owner = .nobody →
      SessionStep s .server { s with pc := .opened }
  | nameTaken {s} : s.pc = .opened → s.owner ≠ .nobody →
      SessionStep s .server { s with pc := .answering (s.failure s.alreadyInUse) }
  | fileProxy {s} : s.pc = .opened → s.owner = .nobody →
      SessionStep s .server { s with owner := .control, pc := .filed }
  | keepProxy {s} (remoteAddr : Str) : s.pc = .filed →
      SessionStep s .server { s with proxies := true, pc := .answering ⟨remoteAddr, []⟩ }
  | answer {s resp m rest} : s.pc = .answering resp → s.c2s = m :: rest →
      SessionStep s .server { s with pc := .idle, c2s := rest, s2c := s.s2c ++ [resp] }
  -- `CloseProxy`
  | closeMissing {s rest} : s.pc = .idle → s.c2s = .closeProxy :: rest → s.proxies = false →
      SessionStep s .server { s with c2s := rest }
  | dropProxy {s rest} : s.pc = .idle → s.c2s = .closeProxy :: rest → s.proxies = true →
      SessionStep s .server { s with proxies := false, pc := .dropped }
  | closeProxy {s} : s.pc = .dropped → SessionStep s .server { s with pc := .closed }
  | deleteProxy {s m rest} : s.pc = .closed → s.c2s = m :: rest →
      SessionStep s .server { s with owner := .nobody, pc := .idle, c2s := rest }
  -- other controls
  | taken {s} : s.owner = .nobody → SessionStep s .other { s with owner := .other }
  | released {s} : s.owner = .other → SessionStep s .other { s with owner := .nobody }

end Frp
