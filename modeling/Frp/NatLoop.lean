import Frp.NatHole

/-!
# The controller and the sid loops of its proxies

`HandleVisitor` hands a session id to the loop that `XTCPProxy.Run` and `XUDPProxy.Run` start,
over an unbuffered channel, whose senders are served in order. `Close` of a proxy takes its
client out of the controller and then ends the loop.
-/

namespace Frp

open Function

inductive SidLoop
  | selecting
  | opening (sid : Nat)
  | writing (sid : Nat)
  | exited
  deriving DecidableEq

/-- The proxies, one for each channel `ListenClient` has returned: its name, its loop, the calls
blocked in a send to it, and how far its `Close` has come. -/
structure NatWorld where
  nat : NatHole
  name : Nat → Str
  loops : Nat → SidLoop
  senders : Nat → List Nat
  clientClosed : Nat → Bool
  closeCh : Nat → Bool

def NatWorld.Init (s : NatWorld) : Prop :=
  s.nat.Init ∧ (∀ ch, s.loops ch = .selecting) ∧ (∀ ch, s.senders ch = []) ∧ (∀ ch, s.clientClosed ch = false) ∧
    ∀ ch, s.closeCh ch = false

inductive NatLoopEvent
  | nat (e : NatEvent)
  | block (sid : Nat)
  | loop (ch : Nat)
  | close (ch : Nat)

def NatEvent.alone : NatEvent → Prop
  | .visitor .. | .client .. | .wake _ | .timeout _ | .respond _ | .leave _ => True
  | .listenClient .. | .closeClient _ | .sendSid _ => False

section
variable [Md5]

inductive NatLoopStep : NatWorld → NatLoopEvent → NatWorld → Prop
  | nat {s e nat'} : e.alone → NatStep s.nat e nat' → NatLoopStep s (.nat e) { s with nat := nat' }
  -- Run: ListenClient, and the loop is started
  | listenClient {s nat'} (name sk : Str) (allowUsers : List Str) : s.nat.clientCfgs name = none →
      NatStep s.nat (.listenClient name sk allowUsers) nat' →
      NatLoopStep s (.nat (.listenClient name sk allowUsers)) { s with
        nat := nat', name := update s.name s.nat.nextCh name }
  | repeated {s} (name sk : Str) (allowUsers : List Str) : s.nat.clientCfgs name ≠ none →
      NatLoopStep s (.nat (.listenClient name sk allowUsers)) s
  -- HandleVisitor comes to the send
  | block {s sid v} : s.nat.visits sid = some v → v.pc = .inserted → sid ∉ s.senders v.cfg.sidCh →
      NatLoopStep s (.block sid) { s with
        senders := update s.senders v.cfg.sidCh (s.senders v.cfg.sidCh ++ [sid]) }
  | receive {s ch nat'} (sid : Nat) (rest : List Nat) : s.loops ch = .selecting → s.senders ch = sid :: rest →
      NatStep s.nat (.sendSid sid) nat' →
      NatLoopStep s (.loop ch) { s with
        nat := nat'
        loops := update s.loops ch (.opening sid)
        senders := update s.senders ch rest }
  | noWorkConn {s ch sid} : s.loops ch = .opening sid →
      NatLoopStep s (.loop ch) { s with loops := update s.loops ch .selecting }
  | workConn {s ch sid} : s.loops ch = .opening sid →
      NatLoopStep s (.loop ch) { s with loops := update s.loops ch (.writing sid) }
  -- the message is written or not; the connection is closed
  | written {s ch sid} : s.loops ch = .writing sid →
      NatLoopStep s (.loop ch) { s with loops := update s.loops ch .selecting }
  | exit {s ch} : s.loops ch = .selecting → s.closeCh ch = true →
      NatLoopStep s (.loop ch) { s with loops := update s.loops ch .exited }
  -- Close, once: CloseClient, then close(closeCh)
  | closeClient {s ch nat'} : ch < s.nat.nextCh → s.clientClosed ch = false →
      NatStep s.nat (.closeClient (s.name ch)) nat' →
      NatLoopStep s (.close ch) { s with nat := nat', clientClosed := update s.clientClosed ch true }
  | closeLoop {s ch} : s.clientClosed ch = true → s.closeCh ch = false →
      NatLoopStep s (.close ch) { s with closeCh := update s.closeCh ch true }

end

end Frp
