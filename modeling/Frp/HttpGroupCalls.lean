import Frp.Register

/-!
# HTTP proxies and their groups

`Register` and `UnRegister` of `server/group/http.go` as `HTTPProxy` calls them. A step is one
section under a lock. A draw takes its index outside of the lock and reads the members later.
-/

namespace Frp

open Function

structure GroupCall where
  pxy : HTTPProxy
  domain : Str
  location : Str

/-- `holding` a group from `getOrCreate`, `joined` after `Register` has succeeded, `leaving` with
the group `UnRegister` got; `routed` after a route of its own was registered. -/
inductive CallPc
  | idle
  | holding (g : Nat)
  | joined
  | leaving (g : Nat)
  | routed
  | gone
  deriving DecidableEq

inductive DrawKind
  | createConn
  | chooseEndpoint

/-- What a draw read: the members, the one it selected, and what the function it was made by goes
on with. -/
structure Pick where
  members : List Str
  name : Option Str
  endpoint : Str
  fn : Option GroupFn

structure Draw where
  kind : DrawKind
  newIndex : UInt64
  pick : Option Pick

def HTTPGroup.pick (g : HTTPGroup) (kind : DrawKind) (newIndex : UInt64) : Pick where
  members := g.pxyNames
  name := g.memberAt newIndex
  endpoint := match kind with
    | .createConn => []
    | .chooseEndpoint => (g.memberAt newIndex).getD []
  fn := match kind with
    | .createConn => (g.memberAt newIndex).bind g.createFunc
    | .chooseEndpoint => none

structure GroupWorld where
  ctl : GroupCtl
  pc : Nat → CallPc
  draws : Nat → List Draw

def GroupWorld.Init (s : GroupWorld) : Prop := s.ctl.Init ∧ (∀ i, s.pc i = .idle) ∧ ∀ g, s.draws g = []

inductive GroupCallEvent
  | call (i : Nat)
  | draw (g : Nat) (kind : DrawKind)
  | read (g k : Nat)

section
variable [UnicodeCase]

def GroupCall.register (c : GroupCall) (s : GroupCtl) (g : Nat) (grp : HTTPGroup) :
    Except GroupError (Routers (Route GroupFn) × HTTPGroup) :=
  grp.register s.routers (s.groups c.pxy.group = some g) g s.nextRoute c.pxy.name c.pxy.group c.pxy.groupKey
    (c.pxy.routeConfig c.domain c.location)

inductive GroupCallStep (calls : Nat → GroupCall) : GroupWorld → GroupCallEvent → GroupWorld → Prop
  | getOrCreate {s i} : s.pc i = .idle → (calls i).pxy.group ≠ [] →
      GroupCallStep calls s (.call i) { s with
        ctl := (s.ctl.getOrCreate (calls i).pxy.group).1
        pc := update s.pc i (.holding (s.ctl.getOrCreate (calls i).pxy.group).2) }
  | register {s i} (g : Nat) (grp : HTTPGroup) (routers : Routers (Route GroupFn)) (grp' : HTTPGroup) :
      s.pc i = .holding g → s.ctl.heap[g]? = some grp → (calls i).register s.ctl g grp = .ok (routers, grp') →
      GroupCallStep calls s (.call i) { s with
        ctl := { s.ctl with routers := routers, heap := s.ctl.heap.set g grp', nextRoute := s.ctl.nextRoute + 1 }
        pc := update s.pc i .joined }
  -- errGroupStale: the controller tries again
  | stale {s i} (g : Nat) (grp : HTTPGroup) : s.pc i = .holding g → s.ctl.heap[g]? = some grp →
      (calls i).register s.ctl g grp = .error .stale →
      GroupCallStep calls s (.call i) { s with pc := update s.pc i .idle }
  | refused {s i err} (g : Nat) (grp : HTTPGroup) : s.pc i = .holding g → s.ctl.heap[g]? = some grp →
      (calls i).register s.ctl g grp = .error err → err ≠ .stale →
      GroupCallStep calls s (.call i) { s with pc := update s.pc i .gone }
  | get {s i} (g : Nat) : s.pc i = .joined → s.ctl.groups (calls i).pxy.group = some g →
      GroupCallStep calls s (.call i) { s with pc := update s.pc i (.leaving g) }
  | getNone {s i} : s.pc i = .joined → s.ctl.groups (calls i).pxy.group = none →
      GroupCallStep calls s (.call i) { s with pc := update s.pc i .gone }
  | unRegister {s i} (g : Nat) (grp : HTTPGroup) : s.pc i = .leaving g → s.ctl.heap[g]? = some grp →
      GroupCallStep calls s (.call i) { s with
        ctl := s.ctl.unRegister g grp (calls i).pxy.name
        pc := update s.pc i .gone }
  | registerRoute {s i} (routers : Routers (Route GroupFn)) : s.pc i = .idle → (calls i).pxy.group = [] →
      Frp.register s.ctl.routers s.ctl.nextRoute ((calls i).pxy.routeConfig (calls i).domain (calls i).location) =
        some routers →
      GroupCallStep calls s (.call i) { s with
        ctl := { s.ctl with routers := routers, nextRoute := s.ctl.nextRoute + 1 }
        pc := update s.pc i .routed }
  | routeConflict {s i} : s.pc i = .idle → (calls i).pxy.group = [] →
      Frp.register s.ctl.routers s.ctl.nextRoute ((calls i).pxy.routeConfig (calls i).domain (calls i).location) =
        none →
      GroupCallStep calls s (.call i) { s with pc := update s.pc i .gone }
  | unRegisterRoute {s i} : s.pc i = .routed →
      GroupCallStep calls s (.call i) { s with
        ctl := { s.ctl with
          routers := Frp.unRegister s.ctl.routers ((calls i).pxy.routeConfig (calls i).domain (calls i).location) }
        pc := update s.pc i .gone }
  -- g.index.Add(1)
  | draw {s g} (kind : DrawKind) (grp : HTTPGroup) : s.ctl.heap[g]? = some grp →
      GroupCallStep calls s (.draw g kind) { s with
        ctl := { s.ctl with heap := s.ctl.heap.set g { grp with index := grp.index + 1 } }
        draws := update s.draws g (s.draws g ++ [⟨kind, grp.index + 1, none⟩]) }
  -- the section under g.mu.RLock
  | read {s g k} (d : Draw) (grp : HTTPGroup) : (s.draws g)[k]? = some d → d.pick = none →
      s.ctl.heap[g]? = some grp →
      GroupCallStep calls s (.read g k) { s with
        draws := update s.draws g
          ((s.draws g).set k { d with pick := some (grp.pick d.kind d.newIndex) }) }

end

end Frp
