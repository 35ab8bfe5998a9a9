import Frp.Lts
import Frp.Str
import Mathlib.Logic.Function.Basic

/-!
# Proxies and their names

`RegisterProxy`, `CloseProxy` and the end of `worker` of `server/control.go`, for controls
that share one `proxy.Manager`. A control is at one place at a time; a step is one section
under a lock, or one call of `Run` or `Close` of a proxy.
-/

namespace Frp

open Function

structure Pxy where
  id : Nat
  owner : Nat
  name : Str
  usedPortsNum : Int
  deriving DecidableEq

/-- Where a control is. In `RegisterProxy`: `created` before the quota, `counted` before `Exist`,
`checked` before `Run`, `ran` before `Add`, `refused` before `Close`, `filed` before the insertion,
`failed` before the refund; in `closeProxy`: `dropped` before `Close`, `closed` before `Del`. -/
inductive ControlPc
  | off
  | idle
  | created (p : Pxy)
  | counted (p : Pxy)
  | checked (p : Pxy)
  | ran (p : Pxy)
  | refused (p : Pxy)
  | filed (p : Pxy)
  | failed (p : Pxy)
  | dropped (p : Pxy)
  | closed (p : Pxy)
  | done
  | draining (rest : List Pxy)
  | drainClosed (p : Pxy) (rest : List Pxy)
  | finished

/-- Proxies with an `id` below `next` have been created; `closes` counts the calls of `Close` on
each. -/
structure ProxyWorld where
  pxys : Str → Option Pxy
  proxies : Nat → Str → Option Pxy
  portsUsedNum : Nat → Int
  pc : Nat → ControlPc
  next : Nat
  started : Pxy → Bool
  registered : Pxy → Bool
  closes : Pxy → Nat

namespace ProxyWorld

def init : ProxyWorld :=
  ⟨fun _ => none, fun _ _ => none, fun _ => 0, fun _ => .off, 0, fun _ => false, fun _ => false, fun _ => 0⟩

def goto (s : ProxyWorld) (c : Nat) (q : ControlPc) : ProxyWorld := { s with pc := update s.pc c q }

def count (s : ProxyWorld) (c : Nat) (ports : Int) : ProxyWorld :=
  { s with portsUsedNum := update s.portsUsedNum c (s.portsUsedNum c + ports) }

def callClose (s : ProxyWorld) (p : Pxy) : ProxyWorld :=
  { s with closes := update s.closes p (s.closes p + 1) }

def setPxy (s : ProxyWorld) (name : Str) (o : Option Pxy) : ProxyWorld :=
  { s with pxys := update s.pxys name o }

def setProxies (s : ProxyWorld) (c : Nat) (m : Str → Option Pxy) : ProxyWorld :=
  { s with proxies := update s.proxies c m }

end ProxyWorld

/-- The ports a proxy counts for, when `MaxPortsPerClient` is set. -/
def quotaOf (maxPortsPerClient usedPortsNum : Int) : Int := if maxPortsPerClient > 0 then usedPortsNum else 0

open ProxyWorld in
inductive RegistrationStep (maxPortsPerClient : Int) : ProxyWorld → Nat → ProxyWorld → Prop
  | start {s c} : s.pc c = .off → RegistrationStep maxPortsPerClient s c (s.goto c .idle)
  -- `RegisterProxy`
  | newProxy {s c} (name : Str) (usedPortsNum : Int) : s.pc c = .idle →
      RegistrationStep maxPortsPerClient s c
        ({ s with next := s.next + 1 }.goto c (.created ⟨s.next, c, name, usedPortsNum⟩))
  | overQuota {s c p} : s.pc c = .created p → maxPortsPerClient > 0 →
      s.portsUsedNum c + p.usedPortsNum > maxPortsPerClient →
      RegistrationStep maxPortsPerClient s c (s.goto c .idle)
  | counted {s c p} : s.pc c = .created p →
      ¬ (maxPortsPerClient > 0 ∧ s.portsUsedNum c + p.usedPortsNum > maxPortsPerClient) →
      RegistrationStep maxPortsPerClient s c
        ((s.count c (quotaOf maxPortsPerClient p.usedPortsNum)).goto c (.counted p))
  | exist {s c p} : s.pc c = .counted p → s.pxys p.name ≠ none →
      RegistrationStep maxPortsPerClient s c (s.goto c (.failed p))
  | notExist {s c p} : s.pc c = .counted p → s.pxys p.name = none →
      RegistrationStep maxPortsPerClient s c (s.goto c (.checked p))
  | runFailed {s c p} : s.pc c = .checked p → RegistrationStep maxPortsPerClient s c (s.goto c (.failed p))
  | run {s c p} : s.pc c = .checked p →
      RegistrationStep maxPortsPerClient s c
        ({ s with started := update s.started p true }.goto c (.ran p))
  | addRefused {s c p} : s.pc c = .ran p → s.pxys p.name ≠ none →
      RegistrationStep maxPortsPerClient s c (s.goto c (.refused p))
  | add {s c p} : s.pc c = .ran p → s.pxys p.name = none →
      RegistrationStep maxPortsPerClient s c ((s.setPxy p.name (some p)).goto c (.filed p))
  | closeRefused {s c p} : s.pc c = .refused p →
      RegistrationStep maxPortsPerClient s c ((s.callClose p).goto c (.failed p))
  | refund {s c p} : s.pc c = .failed p →
      RegistrationStep maxPortsPerClient s c
        ((s.count c (-quotaOf maxPortsPerClient p.usedPortsNum)).goto c .idle)
  | insert {s c p} : s.pc c = .filed p →
      RegistrationStep maxPortsPerClient s c
        ({ s.setProxies c (update (s.proxies c) p.name (some p)) with
            registered := update s.registered p true }.goto c .idle)
  -- `CloseProxy`, and `closeProxy`
  | drop {s c p} (name : Str) : s.pc c = .idle → s.proxies c name = some p →
      RegistrationStep maxPortsPerClient s c
        (((s.count c (-quotaOf maxPortsPerClient p.usedPortsNum)).setProxies c
          (update (s.proxies c) name none)).goto c (.dropped p))
  | close {s c p} : s.pc c = .dropped p →
      RegistrationStep maxPortsPerClient s c ((s.callClose p).goto c (.closed p))
  | delete {s c p} : s.pc c = .closed p →
      RegistrationStep maxPortsPerClient s c ((s.setPxy p.name none).goto c .idle)
  | readError {s c} : s.pc c = .idle → RegistrationStep maxPortsPerClient s c (s.goto c .done)
  -- the end of `worker`
  | takeProxies {s c} (rest : List Pxy) : s.pc c = .done → rest.Nodup →
      (∀ p, p ∈ rest ↔ ∃ n, s.proxies c n = some p) →
      RegistrationStep maxPortsPerClient s c ((s.setProxies c fun _ => none).goto c (.draining rest))
  | drainClose {s c p rest} : s.pc c = .draining (p :: rest) →
      RegistrationStep maxPortsPerClient s c ((s.callClose p).goto c (.drainClosed p rest))
  | drainDelete {s c p rest} : s.pc c = .drainClosed p rest →
      RegistrationStep maxPortsPerClient s c ((s.setPxy p.name none).goto c (.draining rest))
  | finish {s c} : s.pc c = .draining [] → RegistrationStep maxPortsPerClient s c (s.goto c .finished)

end Frp
