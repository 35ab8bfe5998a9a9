import Frp.Lts
import Frp.Registry

/-!
# The control manager

The sections of `server/control.go` under the manager's lock or the lifecycle lock of one
control. `ManagerStep` allows them in any order and by anyone; how the server brings them
together is in `Frp.Control`.
-/

namespace Frp

inductive ControlState
  | created
  | pending
  | running
  | closing
  | closed
  deriving DecidableEq

/-- The part of a control under its lifecycle lock. The hand-off barrier is the `doneCh` of
another control, which is closed when that control is. -/
structure Control where
  runID : Str
  login : ClientLogin
  controlID : Nat
  state : ControlState
  activated : Bool
  handoffBarrier : Option Nat

namespace Control

def new (runID : Str) (login : ClientLogin) : Control := ⟨runID, login, 0, .created, false, none⟩

def admitAs (x : Control) (id : Nat) : Option Control :=
  if x.state = .created then some { x with controlID := id, state := .pending } else none

def finishLocked (x : Control) : Control := { x with state := .closed }

def close (x : Control) : Control :=
  match x.state with
  | .created | .pending => x.finishLocked
  | .running => { x with state := .closing }
  | .closing | .closed => x

def markReplaced (x : Control) (self : Nat) : Control × Option Nat :=
  match x.state with
  | .created => (x.finishLocked, none)
  | .pending => (x.finishLocked, x.handoffBarrier)
  | .running => ({ x with state := .closing }, some self)
  | .closing | .closed => (x, some self)

def startLocked (x : Control) : Option Control :=
  if x.state = .pending ∧ x.activated = true then some { x with state := .running } else none

def stop (x : Control) : Control := if x.state = .running then { x with state := .closing } else x

end Control

structure EntryRef where
  ctl : Nat
  id : Nat
  runMu : Nat
  deriving DecidableEq

structure ControlEntry extends EntryRef where
  registryOnline : Bool
  registryControlID : Nat

structure Manager where
  ctlsByRunID : Str → Option ControlEntry
  closed : Bool
  registry : Registry
  nextControlID : Nat
  controls : Nat → Option Control

inductive AddError
  | managerClosed
  | notCreated
  deriving DecidableEq

inductive Activation
  | stale
  | active
  | conflict
  deriving DecidableEq

namespace Manager

def Init (m : Manager) : Prop := m = ⟨fun _ => none, false, .new, 0, fun _ => none⟩

def setControl (m : Manager) (c : Nat) (x : Control) : Manager :=
  { m with controls := Function.update m.controls c (some x) }

def setEntry (m : Manager) (runID : Str) (e : Option ControlEntry) : Manager :=
  { m with ctlsByRunID := Function.update m.ctlsByRunID runID e }

def markReplaced (m : Manager) (c : Nat) : Manager × Option Nat :=
  match m.controls c with
  | some x => (m.setControl c (x.markReplaced c).1, (x.markReplaced c).2)
  | none => (m, none)

/-- The section of `Add` under the manager's lock, when the entry read before is still there.
`runMu` is the lock made for a run without an entry. -/
def add (m : Manager) (c : Nat) (x : Control) (runMu : Nat) : Manager × Option AddError :=
  if m.closed then (m, some .managerClosed)
  else
    let id := m.nextControlID + 1
    let m := { m with nextControlID := id }
    match x.admitAs id with
    | none => (m, some .notCreated)
    | some x =>
      match m.ctlsByRunID x.runID with
      | none => ((m.setControl c x).setEntry x.runID (some ⟨⟨c, id, runMu⟩, false, 0⟩), none)
      | some old =>
        let (m, barrier) := (m.setControl c x).markReplaced old.ctl
        ((m.setControl c { x with handoffBarrier := barrier }).setEntry x.runID
          (some ⟨⟨c, id, old.runMu⟩, old.registryOnline, old.registryControlID⟩), none)

def remoteHost (remoteAddr : Str) : Str := (remoteAddr.splitHostPort.map (·.1)).getD remoteAddr

def activate (m : Manager) (now c : Nat) (x : Control) : Manager × Activation :=
  match m.ctlsByRunID x.runID with
  | none => (m, .stale)
  | some e =>
    if m.closed = true ∨ e.ctl ≠ c ∨ e.id ≠ x.controlID ∨ x.state ≠ .pending then (m, .stale)
    else if x.activated then (m, .active)
    else
      let login := { x.login with remoteAddr := remoteHost x.login.remoteAddr }
      let (registry, _, conflict) := m.registry.registerWithControlID now login x.runID e.id
      if conflict then (m, .conflict)
      else
        (({ m with registry := registry }.setEntry x.runID (some { e with
            registryOnline := true, registryControlID := e.id })).setControl c { x with activated := true }, .active)

def remove (m : Manager) (now c : Nat) (x : Control) : Manager :=
  match m.ctlsByRunID x.runID with
  | none => m
  | some e =>
    if e.ctl ≠ c ∨ e.id ≠ x.controlID then m
    else
      let m := m.setEntry x.runID none
      if e.registryOnline then
        { m with registry := m.registry.markOfflineByRunID now x.runID (some e.registryControlID) }
      else m

end Manager

inductive Lifecycle : Control → Control → Prop
  | close (x : Control) : Lifecycle x x.close
  | start {x y : Control} : x.startLocked = some y → Lifecycle x y
  | stop (x : Control) : Lifecycle x x.stop
  | finish (x : Control) : Lifecycle x x.finishLocked

inductive ManagerEvent
  | newControl (c : Nat)
  | add (c : Nat)
  | activate (c : Nat)
  | remove (c : Nat)
  | close
  | lifecycle (c : Nat)

inductive ManagerStep : Manager → ManagerEvent → Manager → Prop
  | newControl {m c} (runID : Str) (login : ClientLogin) : m.controls c = none →
      ManagerStep m (.newControl c) (m.setControl c (.new runID login))
  | add {m c x} (runMu : Nat) : m.controls c = some x → ManagerStep m (.add c) (m.add c x runMu).1
  | activate {m c x} (now : Nat) : m.controls c = some x → ManagerStep m (.activate c) (m.activate now c x).1
  | remove {m c x} (now : Nat) : m.controls c = some x → ManagerStep m (.remove c) (m.remove now c x)
  | close (m : Manager) : ManagerStep m .close { m with closed := true }
  | lifecycle {m c x y} : m.controls c = some x → Lifecycle x y → ManagerStep m (.lifecycle c) (m.setControl c y)

end Frp
