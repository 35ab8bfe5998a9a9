import Frp.ProxyNames

/-!
# Server metrics in memory

`pkg/metrics/mem/server.go`: the statistics of the proxies by name, and the periodic removal
of those that are offline. Instants are numbers, 0 for the zero time, and counters have 32
bits.
-/

namespace Frp

open Function

structure ProxyStatistics where
  name : Str
  proxyType : Str
  user : Str := []
  clientID : Str := []
  curConns : Int32 := 0
  lastStartTime : Nat := 0
  lastCloseTime : Nat := 0

structure ServerMetrics where
  curConns : Int32 := 0
  proxyTypeCounts : Str → Option Int32 := fun _ => none
  proxyStatistics : Str → Option ProxyStatistics := fun _ => none

namespace ServerMetrics

def entry (m : ServerMetrics) (name proxyType : Str) : ProxyStatistics :=
  match m.proxyStatistics name with
  | some st => if st.proxyType ≠ proxyType then { name, proxyType } else st
  | none => { name, proxyType }

def set (m : ServerMetrics) (name : Str) (st : Option ProxyStatistics) : ServerMetrics :=
  { m with proxyStatistics := update m.proxyStatistics name st }

def newProxy (m : ServerMetrics) (now : Nat) (name proxyType user clientID : Str) : ServerMetrics :=
  { m with
    proxyTypeCounts :=
      update m.proxyTypeCounts proxyType (some ((m.proxyTypeCounts proxyType).getD 0 + 1)) }.set name
    (some { m.entry name proxyType with user, clientID, lastStartTime := now })

def modify (m : ServerMetrics) (name : Str) (f : ProxyStatistics → ProxyStatistics) : ServerMetrics :=
  m.set name ((m.proxyStatistics name).map f)

def closeProxy (m : ServerMetrics) (now : Nat) (name proxyType : Str) : ServerMetrics :=
  { m with
    proxyTypeCounts :=
      update m.proxyTypeCounts proxyType ((m.proxyTypeCounts proxyType).map (· - 1)) }.modify name
    fun st => { st with lastCloseTime := now }

def openConnection (m : ServerMetrics) (name : Str) : ServerMetrics :=
  { m with curConns := m.curConns + 1 }.modify name fun st => { st with curConns := st.curConns + 1 }

def closeConnection (m : ServerMetrics) (name : Str) : ServerMetrics :=
  { m with curConns := m.curConns - 1 }.modify name fun st => { st with curConns := st.curConns - 1 }

def shouldClearProxyStats (data : ProxyStatistics) (now continuousOfflineDuration : Nat) : Bool :=
  data.lastCloseTime ≠ 0 ∧ data.lastStartTime < data.lastCloseTime ∧
    data.lastCloseTime + continuousOfflineDuration < now

def clearUselessInfo (m : ServerMetrics) (now continuousOfflineDuration : Nat) : ServerMetrics :=
  { m with
    proxyStatistics := fun name => (m.proxyStatistics name).filter fun data =>
      !shouldClearProxyStats data now continuousOfflineDuration }

def pruneOfflineProxies (m : ServerMetrics) (now : Nat) : ServerMetrics := m.clearUselessInfo now 0

end ServerMetrics

/-! ## Connections -/

inductive MetricsCall
  | newProxy (name proxyType user clientID : Str)
  | closeProxy (name proxyType : Str)
  | openConnection (name : Str)
  | closeConnection (name : Str)
  | clearUselessInfo (continuousOfflineDuration : Nat)
  | pruneOfflineProxies

def ServerMetrics.call (m : ServerMetrics) (now : Nat) : MetricsCall → ServerMetrics
  | .newProxy name proxyType user clientID => m.newProxy now name proxyType user clientID
  | .closeProxy name proxyType => m.closeProxy now name proxyType
  | .openConnection name => m.openConnection name
  | .closeConnection name => m.closeConnection name
  | .clearUselessInfo d => m.clearUselessInfo now d
  | .pruneOfflineProxies => m.pruneOfflineProxies now

/-- The metrics with the number of connections of each name that are open, and how many of them were open
when the entry of the name was made. -/
structure GaugeWorld where
  metrics : ServerMetrics
  opened : Str → Nat
  before : Str → Nat

namespace GaugeWorld

def Init (s : GaugeWorld) : Prop := s.metrics = {} ∧ s.opened = fun _ => 0

def makes (m : ServerMetrics) (name : Str) : MetricsCall → Bool
  | .newProxy n proxyType _ _ => n = name ∧ ∀ st ∈ m.proxyStatistics name, st.proxyType ≠ proxyType
  | _ => false

def conns (opened : Str → Nat) : MetricsCall → Str → Nat
  | .openConnection name => update opened name (opened name + 1)
  | .closeConnection name => update opened name (opened name - 1)
  | _ => opened

def Allows (s : GaugeWorld) : MetricsCall → Prop
  | .closeConnection name => 0 < s.opened name
  | _ => True

def call (s : GaugeWorld) (now : Nat) (c : MetricsCall) : GaugeWorld where
  metrics := s.metrics.call now c
  opened := conns s.opened c
  before name := if makes s.metrics name c then s.opened name else s.before name

def CallStep (s : GaugeWorld) (e : Nat × MetricsCall) (t : GaugeWorld) : Prop := s.Allows e.2 ∧ t = s.call e.1 e.2

end GaugeWorld

/-! ## Controls that register and close proxies -/

inductive ProxyMetric
  | newProxy (p : Pxy)
  | closeProxy (p : Pxy)

/-- What a control reports right after the step it takes from here: `handleNewProxy` the proxy just inserted,
`closeProxy` the one just deleted. -/
def ControlPc.metric : ControlPc → Option ProxyMetric
  | filed p => some (.newProxy p)
  | closed p | drainClosed p _ => some (.closeProxy p)
  | _ => none

/-- `due` is what a control has still to report; `recorded` the time a proxy was reported started,
and `lateClose` the time of the last `CloseProxy` of a name since its last `NewProxy`. -/
structure StatsWorld where
  world : ProxyWorld
  metrics : ServerMetrics
  now : Nat
  due : Nat → Option ProxyMetric
  recorded : Pxy → Option Nat
  lateClose : Str → Option Nat

inductive StatsEvent
  | control (c : Nat)
  | report (c : Nat)
  | clear (continuousOfflineDuration : Nat)
  | tick

namespace StatsWorld

def Init (s : StatsWorld) : Prop :=
  s.world = .init ∧ s.metrics = {} ∧ 0 < s.now ∧ s.due = (fun _ => none) ∧ s.recorded = (fun _ => none) ∧
    s.lateClose = fun _ => none

end StatsWorld

section
variable (maxPortsPerClient : Int) (proxyType user clientID : Pxy → Str)

inductive StatsStep : StatsWorld → StatsEvent → StatsWorld → Prop
  | control {s w} (c : Nat) : s.due c = none → RegistrationStep maxPortsPerClient s.world c w →
      StatsStep s (.control c) { s with world := w, due := update s.due c (s.world.pc c).metric }
  | newProxy {s} (c : Nat) (p : Pxy) : s.due c = some (.newProxy p) →
      StatsStep s (.report c)
        { s with
          metrics := s.metrics.newProxy s.now p.name (proxyType p) (user p) (clientID p)
          due := update s.due c none
          recorded := update s.recorded p (some s.now)
          lateClose := update s.lateClose p.name none }
  | closeProxy {s} (c : Nat) (p : Pxy) : s.due c = some (.closeProxy p) →
      StatsStep s (.report c)
        { s with
          metrics := s.metrics.closeProxy s.now p.name (proxyType p)
          due := update s.due c none
          lateClose := update s.lateClose p.name (some s.now) }
  | clear {s} (d : Nat) : StatsStep s (.clear d) { s with metrics := s.metrics.clearUselessInfo s.now d }
  | tick {s} (n : Nat) : s.now ≤ n → StatsStep s .tick { s with now := n }

end

end Frp
