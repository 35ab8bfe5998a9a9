import Frp.Lts
import Frp.Muxer

/-!
# The muxer and its listeners

`run`, `handle`, `Listen` of `pkg/util/vhost/vhost.go` and `Accept` and `Close` of its
listeners. The send to a listener meets one of its `Accept` calls, or panics into a log line if
the channel was closed.
-/

namespace Frp

structure VhostMuxer extends Muxer where
  rewritesHost : Bool

/-- `NewHTTPSMuxer`; its fail hook answers with a TLS alert, which is not an HTTP response. -/
def httpsMuxer : VhostMuxer := ⟨⟨none, none, []⟩, false⟩

def httpConnectMuxer (passthrough : Bool) : VhostMuxer := ⟨HTTPConnect.muxer passthrough, false⟩

inductive ConnPc
  | accepted
  | reading
  | routing (info : ReqInfo)
  | refusing
  | succeeding (info : ReqInfo) (l : VhostListener)
  | authorizing (info : ReqInfo) (l : VhostListener)
  | resetting (l : VhostListener)
  | sending (l : VhostListener)
  | received (l : VhostListener)
  | returned (l : VhostListener)
  | closed
  | ignored (l : VhostListener)
  | rewriteFailed (l : VhostListener)

structure MuxConn where
  pc : ConnPc
  written : List Response

/-- `shut` are the listeners whose channel is closed; their route is deleted before. -/
structure MuxState where
  routes : Routers VhostListener
  listeners : List VhostListener
  unlisted : Nat → Bool
  shut : Nat → Bool
  conns : List MuxConn

def MuxState.Init (s : MuxState) : Prop := s = ⟨.new, [], fun _ => false, fun _ => false, []⟩

inductive MuxEvent
  | accept
  | conn (c : Nat)
  | listen (l : VhostListener)
  | close (i : Nat)

section
variable [UnicodeCase]

inductive HandleStep (v : Muxer) (tbl : Routers VhostListener) : MuxConn → MuxConn → Prop
  | setDeadline {w} : HandleStep v tbl ⟨.accepted, w⟩ ⟨.reading, w⟩
  | setDeadlineFails {w} : HandleStep v tbl ⟨.accepted, w⟩ ⟨.closed, w⟩
  | vhostFunc {w} (info : ReqInfo) : HandleStep v tbl ⟨.reading, w⟩ ⟨.routing info, w⟩
  | vhostFuncFails {w} : HandleStep v tbl ⟨.reading, w⟩ ⟨.closed, w⟩
  | getListener {w info l} : Muxer.getListener tbl info = some l →
      HandleStep v tbl ⟨.routing info, w⟩ ⟨.succeeding info l, w⟩
  | noListener {w info} : Muxer.getListener tbl info = none → HandleStep v tbl ⟨.routing info, w⟩ ⟨.refusing, w⟩
  | failHook {w} : HandleStep v tbl ⟨.refusing, w⟩ ⟨.closed, w ++ v.failHook⟩
  | noSuccessHook {w info l} : v.successHook = none →
      HandleStep v tbl ⟨.succeeding info l, w⟩ ⟨.authorizing info l, w⟩
  | successHook {w info l successHook out} (writeErr : Bool) : v.successHook = some successHook →
      successHook info writeErr = some out → HandleStep v tbl ⟨.succeeding info l, w⟩ ⟨.authorizing info l, w ++ out⟩
  | successHookFails {w info l successHook} (writeErr : Bool) : v.successHook = some successHook →
      successHook info writeErr = none → HandleStep v tbl ⟨.succeeding info l, w⟩ ⟨.closed, w⟩
  | noCheckAuth {w info l} : v.checkAuth = none ∨ l.username = [] →
      HandleStep v tbl ⟨.authorizing info l, w⟩ ⟨.resetting l, w⟩
  | checkAuth {w info l checkAuth out} : v.checkAuth = some checkAuth → l.username ≠ [] →
      checkAuth l.username l.password info = (true, out) →
      HandleStep v tbl ⟨.authorizing info l, w⟩ ⟨.resetting l, w ++ out⟩
  | checkAuthFails {w info l checkAuth out} : v.checkAuth = some checkAuth → l.username ≠ [] →
      checkAuth l.username l.password info = (false, out) →
      HandleStep v tbl ⟨.authorizing info l, w⟩ ⟨.closed, w ++ out⟩
  | resetDeadline {w l} : HandleStep v tbl ⟨.resetting l, w⟩ ⟨.sending l, w⟩
  | resetDeadlineFails {w l} : HandleStep v tbl ⟨.resetting l, w⟩ ⟨.closed, w⟩

inductive SendStep (v : VhostMuxer) (shut : Nat → Bool) : MuxConn → MuxConn → Prop
  | receive {w l} : shut l.id = false → SendStep v shut ⟨.sending l, w⟩ ⟨.received l, w⟩
  | panics {w l} : shut l.id = true → SendStep v shut ⟨.sending l, w⟩ ⟨.ignored l, w⟩
  -- without a rewriteHost function, or after it succeeded
  | returns {w l} : SendStep v shut ⟨.received l, w⟩ ⟨.returned l, w⟩
  | rewriteFails {w l} : v.rewritesHost = true → SendStep v shut ⟨.received l, w⟩ ⟨.rewriteFailed l, w⟩

inductive MuxStep (v : VhostMuxer) : MuxState → MuxEvent → MuxState → Prop
  | accept {s} : MuxStep v s .accept { s with conns := s.conns ++ [⟨.accepted, []⟩] }
  | handle {s c} (conn conn' : MuxConn) : s.conns[c]? = some conn → HandleStep v.toMuxer s.routes conn conn' →
      MuxStep v s (.conn c) { s with conns := s.conns.set c conn' }
  | send {s c} (conn conn' : MuxConn) : s.conns[c]? = some conn → SendStep v s.shut conn conn' →
      MuxStep v s (.conn c) { s with conns := s.conns.set c conn' }
  | listen {s l routes} : l.id = s.listeners.length → Muxer.listen s.routes l = some routes →
      MuxStep v s (.listen l) { s with routes := routes, listeners := s.listeners ++ [l] }
  | listenConflict {s l} : Muxer.listen s.routes l = none → MuxStep v s (.listen l) s
  -- Close of a listener, in two steps
  | del {s i} (l : VhostListener) : s.listeners[i]? = some l →
      MuxStep v s (.close i) { s with
        routes := s.routes.del l.name l.location l.routeByHTTPUser
        unlisted := Function.update s.unlisted i true }
  | closeAccept {s i} : s.unlisted i = true → s.shut i = false →
      MuxStep v s (.close i) { s with shut := Function.update s.shut i true }

end

end Frp
