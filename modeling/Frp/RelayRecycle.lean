import Frp.Visitor

/-!
# The pooled objects of a relay transport

With compression on, `wrapVisitorConn` takes the compression reader and writer from a pool, and
`xudpRelayReadWriteCloser.Close` gives them back by `recycleFn`, once. The goroutine whose
`closeTransport` was the first has the call still to make.
-/

namespace Frp

variable {α : Type*}

def Visitor.relayClosed (v : Visitor α) (k : Nat) : Bool :=
  match v.transports[k]? with
  | some t => decide (t.kind = .relay) && t.closed
  | none => false

/-- `owed` tells where the connection is closed and `recycleFn` not yet called; `recycles` counts its
calls. -/
structure RelayWorld (α : Type*) where
  visitor : Visitor α
  owed : Nat → Bool
  recycles : Nat → Nat

inductive RelayEvent (α : Type*)
  | visitor (e : Event α)
  | recycle (k : Nat)

namespace RelayWorld

def Init (s : RelayWorld α) : Prop := s = ⟨{}, fun _ => false, fun _ => 0⟩

def move (s : RelayWorld α) (v : Visitor α) : RelayWorld α :=
  { s with visitor := v, owed := fun k => s.owed k || (v.relayClosed k && !s.visitor.relayClosed k) }

def recycle (s : RelayWorld α) (k : Nat) : RelayWorld α :=
  { s with owed := Function.update s.owed k false, recycles := Function.update s.recycles k (s.recycles k + 1) }

def Waits (s : RelayWorld α) (v : Visitor α) : Prop :=
  ∀ (k : Nat) (t t' : Transport α), s.owed k = true → s.visitor.transports[k]? = some t → v.transports[k]? = some t' →
    t.main = .joinReader ∨ t.main = .returned → t'.main = t.main

end RelayWorld

inductive RelayStep : RelayWorld α → RelayEvent α → RelayWorld α → Prop
  | visitor {s e v} : Step s.visitor e v → s.Waits v → RelayStep s (.visitor e) (s.move v)
  | recycle {s k} : s.owed k = true → RelayStep s (.recycle k) (s.recycle k)

def Transport.Uses (t : Transport α) : Prop := t.reader = .receiving ∨ ∃ p, t.sender = .sending p

def Visitor.Uses (v : Visitor α) (k : Nat) : Prop := ∃ t, v.transports[k]? = some t ∧ t.Uses

def RelayWorld.CanUse (s : RelayWorld α) (k : Nat) : Prop := ∃ u, Reach (· = s) RelayStep u ∧ u.visitor.Uses k

end Frp
