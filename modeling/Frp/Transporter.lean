import Frp.Lts
import Frp.Str
import Mathlib.Logic.Function.Basic

/-!
# Requests and their responses

`pkg/transport/message.go`: `Do` registers a channel of capacity one under a message type and a
lane key, and `DispatchWithType` puts a message into it. A message is known by the call that
dispatches it.
-/

namespace Frp

open Function

/-- The arguments of the calls: `laneKey` and `recvMsgType` of a `Do`, the others of a `DispatchWithType`. -/
structure TransporterCalls (M : Type) where
  laneKey : Nat → Str
  recvMsgType : Nat → Str
  message : Nat → M
  msgType : Nat → Str
  dispatchKey : Nat → Str

inductive DoResult
  | sendErr
  | ctxErr
  | message (j : Nat)
  deriving DecidableEq

/-- After the `select` the deferred functions run: first `unregisterFn`, then the close of the channel. -/
inductive DoState
  | idle
  | registering
  | sending
  | selecting
  | unregistering (r : DoResult)
  | closing (r : DoResult)
  | returned (r : DoResult)
  deriving DecidableEq

/-- `raised` is the panic of a send on a closed channel, inside `PanicToError`. -/
inductive DispatchState
  | idle
  | sending (d : Nat)
  | raised
  | returned (ok : Bool)
  deriving DecidableEq

structure Transporter where
  registry : Str → Str → Option Nat
  buffer : Nat → Option Nat
  closed : Nat → Bool
  canceled : Nat → Bool
  dos : Nat → DoState
  dispatches : Nat → DispatchState
  panicked : Bool

inductive TransporterEvent
  | call (d : Nat)
  | register (d : Nat)
  | send (d : Nat)
  | receive (d : Nat)
  | done (d : Nat)
  | unregister (d : Nat)
  | close (d : Nat)
  | cancel (d : Nat)
  | lookup (j : Nat)
  | deliver (j : Nat)
  | raise (j : Nat)
  | recover (j : Nat)
  deriving DecidableEq

namespace Transporter

def Init (s : Transporter) : Prop :=
  s = ⟨fun _ _ => none, fun _ => none, fun _ => false, fun _ => false, fun _ => .idle, fun _ => .idle, false⟩

def setEntry (registry : Str → Str → Option Nat) (msgType laneKey : Str) (ch : Option Nat) : Str → Str → Option Nat :=
  update registry msgType (update (registry msgType) laneKey ch)

def setDo (s : Transporter) (d : Nat) (p : DoState) : Transporter := { s with dos := update s.dos d p }

def setDispatch (s : Transporter) (j : Nat) (p : DispatchState) : Transporter :=
  { s with dispatches := update s.dispatches j p }

variable {M : Type}

inductive Step (calls : TransporterCalls M) : Transporter → TransporterEvent → Transporter → Prop
  -- `Do`
  | call {s d} : s.dos d = .idle → Step calls s (.call d) (s.setDo d .registering)
  | register {s d} : s.dos d = .registering →
      Step calls s (.register d)
        { s.setDo d .sending with registry := setEntry s.registry (calls.recvMsgType d) (calls.laneKey d) (some d) }
  | sendFailed {s d} : s.dos d = .sending → Step calls s (.send d) (s.setDo d (.unregistering .sendErr))
  | sent {s d} : s.dos d = .sending → Step calls s (.send d) (s.setDo d .selecting)
  | done {s d} : s.dos d = .selecting → s.canceled d = true →
      Step calls s (.done d) (s.setDo d (.unregistering .ctxErr))
  | receive {s d j} : s.dos d = .selecting → s.buffer d = some j →
      Step calls s (.receive d)
        { s.setDo d (.unregistering (.message j)) with buffer := update s.buffer d none }
  | unregister {s d r} : s.dos d = .unregistering r →
      Step calls s (.unregister d)
        { s.setDo d (.closing r) with
          registry := setEntry s.registry (calls.recvMsgType d) (calls.laneKey d) none }
  | close {s d r} : s.dos d = .closing r → s.closed d = false →
      Step calls s (.close d) { s.setDo d (.returned r) with closed := update s.closed d true }
  | closeClosed {s d r} : s.dos d = .closing r → s.closed d = true →
      Step calls s (.close d) { s.setDo d (.returned r) with panicked := true }
  | cancel {s d} : Step calls s (.cancel d) { s with canceled := update s.canceled d true }
  -- `DispatchWithType`
  | lookupNone {s j} : s.dispatches j = .idle → s.registry (calls.msgType j) (calls.dispatchKey j) = none →
      Step calls s (.lookup j) (s.setDispatch j (.returned false))
  | lookupFound {s j d} : s.dispatches j = .idle → s.registry (calls.msgType j) (calls.dispatchKey j) = some d →
      Step calls s (.lookup j) (s.setDispatch j (.sending d))
  | deliver {s j d} : s.dispatches j = .sending d → s.closed d = false → s.buffer d = none →
      Step calls s (.deliver j)
        { s.setDispatch j (.returned true) with buffer := update s.buffer d (some j) }
  | raise {s j d} : s.dispatches j = .sending d → s.closed d = true →
      Step calls s (.raise j) (s.setDispatch j .raised)
  | recover {s j} : s.dispatches j = .raised → Step calls s (.recover j) (s.setDispatch j (.returned false))

end Transporter

end Frp
