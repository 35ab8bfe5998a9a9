import Frp.Lts
import Frp.Str
import Mathlib.Data.List.Nodup
import Mathlib.Logic.Function.Basic

/-!
# Port manager

`server/ports/ports.go`. A `PortCtx` is shared between `usedPorts` and `reservedPorts`, so both
hold pointers into a heap. The answers of `isPortAvailable`, the order of `freePorts` and the
clock are inputs of a call.
-/

namespace Frp

open Function

structure PortsRange where
  start : Int
  stop : Int
  single : Int
  deriving DecidableEq

def PortsRange.contains (r : PortsRange) (p : Int) : Bool :=
  if r.single > 0 then p = r.single else r.start ≤ p ∧ p ≤ r.stop

def minPort : Int := 1

def maxPort : Int := 65535

def maxPortReservedDuration : Int := 24 * 3600 * 1000000000

inductive PortError
  | alreadyUsed
  | notAllowed
  | unavailable
  | noAvailable
  deriving DecidableEq

structure PortCtx where
  proxyName : Str
  port : Int
  closed : Bool
  updateTime : Int
  deriving DecidableEq

structure PortManager where
  reservedPorts : Str → Option Nat
  usedPorts : Int → Option Nat
  freePorts : Int → Bool
  heap : Nat → PortCtx
  next : Nat

def allowedPort (allowPorts : List PortsRange) (p : Int) : Bool :=
  if allowPorts.length > 0 then allowPorts.any fun pair => pair.contains p else minPort ≤ p ∧ p ≤ maxPort

def maxTryTimes : Nat := 5

/-- The loop over `freePorts`, at the `count`-th port of it; the probe is given its number in the call. -/
def pickPort (probe : Nat → Int → Bool) (count : Nat) : List Int → Option Int
  | [] => none
  | k :: ks =>
    if count + 1 > maxTryTimes then none
    else if probe (count + 1) k then some k
    else pickPort probe (count + 1) ks

namespace PortManager

def new (allowPorts : List PortsRange) : PortManager where
  reservedPorts _ := none
  usedPorts _ := none
  freePorts := allowedPort allowPorts
  heap _ := ⟨[], 0, false, 0⟩
  next := 0

def markPortAcquiredLocked (pm : PortManager) (name : Str) (port : Int) (portCtx : Nat) : PortManager :=
  { pm with
    usedPorts := update pm.usedPorts port (some portCtx)
    reservedPorts := update pm.reservedPorts name (some portCtx)
    freePorts := update pm.freePorts port false }

/-- An acquisition with its new context, whose `Port` the deferred function fills in. -/
def take (pm : PortManager) (name : Str) (port now : Int) : PortManager :=
  markPortAcquiredLocked
    { pm with heap := update pm.heap pm.next ⟨name, port, false, now⟩, next := pm.next + 1 }
    name port pm.next

def remembered (pm : PortManager) (name : Str) : Option Int :=
  (pm.reservedPorts name).map fun ctx => (pm.heap ctx).port

def acquireRandom (pm : PortManager) (name : Str) (now : Int) (order : List Int) (probe : Nat → Int → Bool) :
    PortManager × Except PortError Int :=
  match pickPort probe 0 order with
  | some k => (pm.take name k now, if k = 0 then .error .noAvailable else .ok k)
  | none => (pm, .error .noAvailable)

def acquire (pm : PortManager) (name : Str) (port now : Int) (order : List Int) (probe : Nat → Int → Bool) :
    PortManager × Except PortError Int :=
  if port = 0 then
    match pm.remembered name with
    | some p =>
      if probe 0 p then (pm.take name p now, .ok p) else pm.acquireRandom name now order probe
    | none => pm.acquireRandom name now order probe
  else if pm.freePorts port then
    if probe 0 port then (pm.take name port now, .ok port) else (pm, .error .unavailable)
  else if (pm.usedPorts port).isSome then (pm, .error .alreadyUsed)
  else (pm, .error .notAllowed)

def release (pm : PortManager) (port now : Int) : PortManager :=
  match pm.usedPorts port with
  | some ctx =>
    { pm with
      freePorts := update pm.freePorts port true
      usedPorts := update pm.usedPorts port none
      heap := update pm.heap ctx { pm.heap ctx with closed := true, updateTime := now } }
  | none => pm

def cleanReservedPortsOnce (pm : PortManager) (now : Int) : PortManager :=
  { pm with
    reservedPorts := fun name =>
      match pm.reservedPorts name with
      | some ctx =>
        if (pm.heap ctx).closed ∧ now - (pm.heap ctx).updateTime > maxPortReservedDuration then none else some ctx
      | none => none }

structure FreeOrder (pm : PortManager) (order : List Int) : Prop where
  nodup : order.Nodup
  mem : ∀ p, p ∈ order ↔ pm.freePorts p = true

end PortManager

inductive PortCall
  | acquire (name : Str) (port now : Int) (order : List Int) (probe : Nat → Int → Bool)
  | release (port now : Int)
  | cleanReservedPortsOnce (now : Int)

inductive PortStep : PortManager → PortCall → PortManager → Prop
  | acquire {pm name port now order probe} : pm.FreeOrder order →
      PortStep pm (.acquire name port now order probe) (pm.acquire name port now order probe).1
  | release {pm port now} : PortStep pm (.release port now) (pm.release port now)
  | cleanReservedPortsOnce {pm now} : PortStep pm (.cleanReservedPortsOnce now) (pm.cleanReservedPortsOnce now)

end Frp
