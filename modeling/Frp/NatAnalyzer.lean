import Mathlib.Data.List.Destutter
import Frp.HoleRecords
import Frp.NatHole

/-!
# The analysis of a hole-punching session

`Analyzer` of `pkg/nathole/analysis.go`, and `analysis` of `pkg/nathole/controller.go`. A call
finds its record under the analyzer's lock and works on it later under the record's. The
responses are built from the slices of the messages, which `slices.Compact` changes in place.
-/

namespace Frp

structure Analyzer where
  records : Str → Option Nat := fun _ => none
  heap : List MakeHoleRecords := []
  dataReserveDuration : Int

structure Recommandation where
  mode : Nat
  index : Nat
  cBehavior : RecommandBehavior
  vBehavior : RecommandBehavior

def swapsHalves (c : NatFeature) : Nat → Bool
  -- a hard NAT is always the sender
  | 1 => c.natType = .easyNAT
  -- a hard NAT is always the receiver
  | 2 => c.natType = .hardNAT
  -- regular ports are always the sender
  | 4 => !c.regularPortsChange
  | _ => false

def recommandation (c : NatFeature) (mode index : Nat) : Recommandation :=
  let (a, b) := getBehaviorByModeAndIndex mode index
  if swapsHalves c mode then ⟨mode, index, b, a⟩ else ⟨mode, index, a, b⟩

namespace Analyzer

def recordsOf (a : Analyzer) (key : Str) (c v : NatFeature) (now : Int) : Analyzer × Nat :=
  match a.records key with
  | some p => (a, p)
  | none =>
    ({ a with
      records := Function.update a.records key (some a.heap.length)
      heap := a.heap ++ [newMakeHoleRecords c v now] }, a.heap.length)

def setRecords (a : Analyzer) (p : Nat) (r : MakeHoleRecords) : Analyzer := { a with heap := a.heap.set p r }

def clean (a : Analyzer) (now : Int) : Analyzer :=
  { a with records := fun key =>
      (a.records key).filter fun p =>
        a.heap[p]?.any fun r => !decide (a.dataReserveDuration < now - r.lastUpdateTime) }

end Analyzer

/-- A call of `GetRecommandBehaviors` that has found its record; a `ReportCall` is one of `ReportSuccess`. -/
structure RecommandCall where
  c : NatFeature
  v : NatFeature
  records : Nat
  result : Option Recommandation := none

structure ReportCall where
  records : Nat
  mode : Nat
  index : Nat

structure AnalyzerWorld where
  analyzer : Analyzer
  calls : List RecommandCall := []
  reports : List ReportCall := []

inductive AnalyzerEvent
  | find (key : Str) (c v : NatFeature) (now : Int)
  | recommand (k : Nat) (now : Int)
  | report (key : Str) (mode index : Nat)
  | reported (x : ReportCall) (now : Int)
  | clean (now : Int)

inductive AnalyzerStep : AnalyzerWorld → AnalyzerEvent → AnalyzerWorld → Prop
  | find (w : AnalyzerWorld) (key : Str) (c v : NatFeature) (now : Int) :
      AnalyzerStep w (.find key c v now)
        { w with
          analyzer := (w.analyzer.recordsOf key c v now).1
          calls := w.calls ++ [⟨c, v, (w.analyzer.recordsOf key c v now).2, none⟩] }
  | recommand {w k call r} (now : Int) : w.calls[k]? = some call → call.result = none →
      w.analyzer.heap[call.records]? = some r →
      AnalyzerStep w (.recommand k now)
        { w with
          analyzer := w.analyzer.setRecords call.records (r.recommand now).1
          calls := w.calls.set k { call with
            result := some (recommandation call.c (r.recommand now).2.1 (r.recommand now).2.2) } }
  | report {w key p} (mode index : Nat) : w.analyzer.records key = some p →
      AnalyzerStep w (.report key mode index) { w with reports := w.reports ++ [⟨p, mode, index⟩] }
  | noRecord {w key} (mode index : Nat) : w.analyzer.records key = none → AnalyzerStep w (.report key mode index) w
  | reported {w x before after r} (now : Int) : w.reports = before ++ x :: after →
      w.analyzer.heap[x.records]? = some r →
      AnalyzerStep w (.reported x now)
        { w with
          analyzer := w.analyzer.setRecords x.records (r.reportSuccess x.mode x.index now)
          reports := before ++ after }
  | clean (w : AnalyzerWorld) (now : Int) :
      AnalyzerStep w (.clean now) { w with analyzer := w.analyzer.clean now }

def AnalyzerWorld.Init (w : AnalyzerWorld) : Prop :=
  ∃ dataReserveDuration, w = { analyzer := { dataReserveDuration := dataReserveDuration } }

def AnalyzerWorld.Reachable : AnalyzerWorld → Prop := Reach AnalyzerWorld.Init AnalyzerStep

/-! ## `analysis` -/

structure NatHoleVisitorMsg extends NatHoleVisitor where
  protocol : Str
  mappedAddrs : List Str
  assistedAddrs : List Str
  quicFingerprint : Str

structure NatHoleClientMsg extends NatHoleClient where
  mappedAddrs : List Str
  assistedAddrs : List Str
  quicFingerprint : Str

structure CandidateRange where
  fromPort : Int
  toPort : Int
  deriving DecidableEq

structure NatHoleDetectBehavior where
  role : DetectRole := .unset
  mode : Nat := 0
  ttl : Int := 0
  sendDelayMs : Int := 0
  readTimeoutMs : Int := 0
  candidatePorts : List CandidateRange := []
  sendRandomPorts : Int := 0
  listenRandomPorts : Int := 0
  deriving DecidableEq

/-- The message `NatHoleResp` with all its fields; an answer to an error has no `sid`. -/
structure NatHoleAnswer extends NatHoleResp where
  sid : Option Nat := none
  protocol : Str := []
  candidateAddrs : List Str := []
  assistedAddrs : List Str := []
  detectBehavior : NatHoleDetectBehavior := {}
  quicFingerprint : Str := []
  deriving DecidableEq

def parseIPs (addrs : List Str) : List Str := addrs.filterMap fun addr => addr.splitHostPort.map Prod.fst

/-- `slices.Compact`: what it returns, and what the slice it was given then holds. -/
def slicesCompact (s : List Str) : List Str × List Str :=
  let kept := s.destutter (· ≠ ·)
  (kept, kept ++ List.replicate (s.length - kept.length) [])

def getRangePorts (addrs : List Str) (difference maxNumber : Int) : List CandidateRange :=
  if maxNumber ≤ 0 then []
  else
    match addrs.getLast? with
    | none => []
    | some addr =>
      match addr.splitHostPort with
      | none => []
      | some (_, portStr) =>
        match atoi portStr with
        | none => []
        | some port =>
          [{ fromPort := max (max (wrapInt (wrapInt (port - difference) - 5)) (wrapInt (port - maxNumber))) 1
             toPort := min (min (wrapInt (wrapInt (port + difference) + 5)) (wrapInt (port + maxNumber))) 65535 }]

def newNatHoleResponse (transactionID : Str) (sid : Nat) (protocol : Str) (mode : Nat)
    (candidateAddrs assistedAddrs : List Str) (behavior : RecommandBehavior) (readTimeoutMs portsDifference : Int)
    (peerQUICFingerprint : Str) : NatHoleAnswer where
  transactionID := transactionID
  error := []
  sid := some sid
  protocol := protocol
  candidateAddrs := (slicesCompact candidateAddrs).1
  assistedAddrs := (slicesCompact assistedAddrs).1
  quicFingerprint := peerQUICFingerprint
  detectBehavior :=
    { mode := mode
      role := behavior.role
      ttl := behavior.ttl
      sendDelayMs := behavior.sendDelayMs
      readTimeoutMs := readTimeoutMs
      sendRandomPorts := behavior.portsRandomNumber
      listenRandomPorts := behavior.listenRandomPorts
      -- the slice of the message, after it was compacted
      candidatePorts := getRangePorts (slicesCompact candidateAddrs).2 portsDifference behavior.portsRangeNumber }

def genNatHoleResponse (transactionID : Str) (errInfo : Str) : NatHoleAnswer :=
  { transactionID := transactionID, error := errInfo }

def timeoutMs (cBehavior vBehavior : RecommandBehavior) : Int :=
  let timeout := max cBehavior.sendDelayMs vBehavior.sendDelayMs + 5000
  if 0 < cBehavior.listenRandomPorts ∨ 0 < vBehavior.listenRandomPorts then timeout + 30000 else timeout

def natHoleResponses (sid : Nat) (cm : NatHoleClientMsg) (vm : NatHoleVisitorMsg) (cNatFeature vNatFeature : NatFeature)
    (x : Recommandation) : NatHoleAnswer × NatHoleAnswer :=
  let timeout := timeoutMs x.cBehavior x.vBehavior
  (newNatHoleResponse vm.transactionID sid vm.protocol x.mode cm.mappedAddrs cm.assistedAddrs x.vBehavior
      (timeout - x.vBehavior.sendDelayMs) cNatFeature.portsDifference cm.quicFingerprint,
    newNatHoleResponse cm.transactionID sid vm.protocol x.mode vm.mappedAddrs vm.assistedAddrs x.cBehavior
      (timeout - x.cBehavior.sendDelayMs) vNatFeature.portsDifference vm.quicFingerprint)

def analysisFeatures [NetErrors] (cm : NatHoleClientMsg) (vm : NatHoleVisitorMsg) :
    Except Str (NatFeature × NatFeature) :=
  match classifyNATFeature cm.mappedAddrs (parseIPs cm.assistedAddrs) with
  | .error err => .error (lit "classify client nat feature error: " ++ err)
  | .ok c =>
    match classifyNATFeature vm.mappedAddrs (parseIPs vm.assistedAddrs) with
    | .error err => .error (lit "classify visitor nat feature error: " ++ err)
    | .ok v => .ok (c, v)

def analysisKeyOf (mappedAddrs : List Str) (f : NatFeature) : Str :=
  (slicesCompact (parseIPs mappedAddrs)).1.headD [] ++ f.natType.text ++ f.behavior.text ++
    lit (toString f.regularPortsChange)

def genAnalysisKey [Md5] (vMappedAddrs : List Str) (v : NatFeature) (cMappedAddrs : List Str) (c : NatFeature) : Str :=
  hexEncode (Md5.sum (analysisKeyOf vMappedAddrs v ++ analysisKeyOf cMappedAddrs c))

end Frp
