import Frp.Lts
import Frp.Roster
import Frp.Str

/-!
# The managers of a client control

`client/control.go` with the two managers: the calls of `UpdateAll`, the goroutine that
restarts visitors, and the worker that closes both managers. Each manager works under its
lock, one entry of a loop at a time.
-/

namespace Frp

inductive ControlStage
  | serving
  | closing
  | proxiesClosed
  | visitorsClosed
  | done
  deriving DecidableEq

def ControlStage.afterProxies : ControlStage → Prop
  | serving | closing => False
  | proxiesClosed | visitorsClosed | done => True

def ControlStage.afterVisitors : ControlStage → Prop
  | serving | closing | proxiesClosed => False
  | visitorsClosed | done => True

/-- A call of `UpdateAll`; `lock` is that of the visitors once it waits for the lock. -/
inductive UpdateCall (C V : Type)
  | proxies (cfgs : List C)
  | visitors (cfgs : List V)
  | lock (cfgs : List V)

inductive CallerPc (C V : Type)
  | idle
  | calls (rest : List (UpdateCall C V))
  | inside (rest : List (UpdateCall C V))

/-- The loops of `UpdateAll` under the lock: the names still to be compared with the new configurations, and the
configurations still to be added. -/
structure UpdateLoops (C : Type) where
  cfgsMap : Str → Option C
  del : List Str
  add : List C

inductive VisitorsBusy (V : Type)
  | update (caller : Nat) (loops : UpdateLoops V)
  | keep (todo : List V)

inductive KeepPc
  | absent
  | waiting
  | ticked
  | inside
  | ended
  deriving DecidableEq

structure ClientControl (C V : Type) where
  worker : ControlStage := .serving
  proxiesBusy : Option (Nat × UpdateLoops C) := none
  proxies : Roster Str C ControlStage := {}
  visitorsBusy : Option (VisitorsBusy V) := none
  cfgs : Str → Option V := fun _ => none
  visitors : Roster Str V ControlStage := {}
  stopCh : Bool := false
  keepVisitorsRunning : KeepPc := .absent
  callers : Nat → CallerPc C V := fun _ => .idle

structure ClientNames (C V : Type) where
  proxy : C → Str
  visitor : V → Str

/-- `lo.KeyBy` of `samber/lo`: the map from each configuration's name to it, a later one of the same name
in an earlier one's place. -/
def keyBy {C : Type} (name : C → Str) (cfgs : List C) : Str → Option C :=
  cfgs.foldl (fun m c => Function.update m (name c) (some c)) fun _ => none

namespace ClientControl

variable {C V : Type}

def run (ps : List C) (vs : List V) : ClientControl C V :=
  { callers := Function.update (fun _ => .idle) 0 (.calls [.proxies ps, .visitors vs]) }

def setCaller (s : ClientControl C V) (i : Nat) (pc : CallerPc C V) : ClientControl C V :=
  { s with callers := Function.update s.callers i pc }

/-! ## The proxy manager -/

def compareProxy [DecidableEq C] (r : Roster Str C ControlStage) (cfgsMap : Str → Option C) (n : Str) :
    Roster Str C ControlStage :=
  match r.slot n with
  | none => r
  -- the wrapper is taken out and stopped when its configuration is gone or has changed
  | some (_, old) => if cfgsMap n = some old then r else r.drop n

def addProxy (names : ClientNames C V) (stage : ControlStage) (r : Roster Str C ControlStage) (c : C) :
    Roster Str C ControlStage :=
  match r.slot (names.proxy c) with
  | some _ => r
  -- `NewWrapper` and `Start`, which cannot fail
  | none => r.start (names.proxy c) c stage

/-! ## The visitor manager -/

def compareVisitor [DecidableEq V] (s : ClientControl C V) (cfgsMap : Str → Option V) (n : Str) : ClientControl C V :=
  match s.cfgs n with
  | none => s
  | some old =>
    if cfgsMap n = some old then s
    else { s with cfgs := Function.update s.cfgs n none, visitors := s.visitors.drop n }

/-- `startVisitor`, where `ok` is that the visitor could be made and its `Run` has succeeded. -/
def startVisitor (names : ClientNames C V) (s : ClientControl C V) (ok : Bool) (c : V) : ClientControl C V :=
  if ok then { s with visitors := s.visitors.start (names.visitor c) c s.worker } else s

def addVisitor (names : ClientNames C V) (s : ClientControl C V) (ok : Bool) (c : V) : ClientControl C V :=
  match s.cfgs (names.visitor c) with
  | some _ => s
  | none => startVisitor names { s with cfgs := Function.update s.cfgs (names.visitor c) (some c) } ok c

def keepVisitor (names : ClientNames C V) (s : ClientControl C V) (ok : Bool) (c : V) : ClientControl C V :=
  match s.visitors.slot (names.visitor c) with
  | some _ => s
  | none => startVisitor names s ok c

def startKeep (s : ClientControl C V) (vs : List V) : ClientControl C V :=
  if vs ≠ [] ∧ s.keepVisitorsRunning = .absent then { s with keepVisitorsRunning := .waiting } else s

end ClientControl

open ClientControl in
inductive ClientStep {C V : Type} [DecidableEq C] [DecidableEq V] (names : ClientNames C V) :
    ClientControl C V → Unit → ClientControl C V → Prop
  | updateAllConfigurer {s} (i : Nat) (ps : List C) (vs : List V) (hi : s.callers i = .idle) :
    ClientStep names s () (s.setCaller i (.calls [.visitors vs, .proxies ps]))
  | lockProxies {s} (i : Nat) (ps : List C) (rest) (order : List Str) (hi : s.callers i = .calls (.proxies ps :: rest))
    (hfree : s.proxiesBusy = none) (horder : s.proxies.Keys order) :
    ClientStep names s ()
      { s.setCaller i (.inside rest) with proxiesBusy := some (i, ⟨keyBy names.proxy ps, order, ps⟩) }
  | compareProxy {s} (i : Nat) (cfgsMap) (n : Str) (del add)
    (hbusy : s.proxiesBusy = some (i, ⟨cfgsMap, n :: del, add⟩)) :
    ClientStep names s ()
      { s with
        proxiesBusy := some (i, ⟨cfgsMap, del, add⟩)
        proxies := compareProxy s.proxies cfgsMap n }
  | addProxy {s} (i : Nat) (cfgsMap) (c : C) (add) (hbusy : s.proxiesBusy = some (i, ⟨cfgsMap, [], c :: add⟩)) :
    ClientStep names s ()
      { s with
        proxiesBusy := some (i, ⟨cfgsMap, [], add⟩)
        proxies := addProxy names s.worker s.proxies c }
  | unlockProxies {s} (i : Nat) (cfgsMap rest) (hbusy : s.proxiesBusy = some (i, ⟨cfgsMap, [], []⟩))
    (hi : s.callers i = .inside rest) :
    ClientStep names s () { s.setCaller i (.calls rest) with proxiesBusy := none }
  | startKeep {s} (i : Nat) (vs : List V) (rest) (hi : s.callers i = .calls (.visitors vs :: rest)) :
    ClientStep names s () ((s.setCaller i (.calls (.lock vs :: rest))).startKeep vs)
  | lockVisitors {s} (i : Nat) (vs : List V) (rest) (order : List Str) (hi : s.callers i = .calls (.lock vs :: rest))
    (hfree : s.visitorsBusy = none) (horder : order.Nodup ∧ ∀ n, s.cfgs n ≠ none ↔ n ∈ order) :
    ClientStep names s ()
      { s.setCaller i (.inside rest) with visitorsBusy := some (.update i ⟨keyBy names.visitor vs, order, vs⟩) }
  | compareVisitor {s} (i : Nat) (cfgsMap) (n : Str) (del add)
    (hbusy : s.visitorsBusy = some (.update i ⟨cfgsMap, n :: del, add⟩)) :
    ClientStep names s ()
      { s.compareVisitor cfgsMap n with visitorsBusy := some (.update i ⟨cfgsMap, del, add⟩) }
  | addVisitor {s} (i : Nat) (cfgsMap) (c : V) (add) (ok : Bool)
    (hbusy : s.visitorsBusy = some (.update i ⟨cfgsMap, [], c :: add⟩)) :
    ClientStep names s ()
      { s.addVisitor names ok c with visitorsBusy := some (.update i ⟨cfgsMap, [], add⟩) }
  | unlockVisitors {s} (i : Nat) (cfgsMap rest) (hbusy : s.visitorsBusy = some (.update i ⟨cfgsMap, [], []⟩))
    (hi : s.callers i = .inside rest) :
    ClientStep names s () { s.setCaller i (.calls rest) with visitorsBusy := none }
  | tick {s} (hk : s.keepVisitorsRunning = .waiting) :
    ClientStep names s () { s with keepVisitorsRunning := .ticked }
  | keepEnds {s} (hk : s.keepVisitorsRunning = .waiting) (hstop : s.stopCh = true) :
    ClientStep names s () { s with keepVisitorsRunning := .ended }
  | lockKeep {s} (order : List V) (hk : s.keepVisitorsRunning = .ticked) (hfree : s.visitorsBusy = none)
    (horder : order.Nodup ∧ ∀ c, (∃ n, s.cfgs n = some c) ↔ c ∈ order) :
    ClientStep names s () { s with keepVisitorsRunning := .inside, visitorsBusy := some (.keep order) }
  | keepVisitor {s} (c : V) (todo) (ok : Bool) (hbusy : s.visitorsBusy = some (.keep (c :: todo))) :
    ClientStep names s () { s.keepVisitor names ok c with visitorsBusy := some (.keep todo) }
  | unlockKeep {s} (hbusy : s.visitorsBusy = some (.keep [])) :
    ClientStep names s () { s with keepVisitorsRunning := .waiting, visitorsBusy := none }
  | dispatcherDone {s} (hw : s.worker = .serving) : ClientStep names s () { s with worker := .closing }
  | closeProxies {s} (order : List Str) (hw : s.worker = .closing) (hfree : s.proxiesBusy = none)
    (horder : s.proxies.Keys order) :
    ClientStep names s () { s with worker := .proxiesClosed, proxies := (s.proxies.stopAll order).clear }
  | closeVisitors {s} (order : List Str) (hw : s.worker = .proxiesClosed) (hfree : s.visitorsBusy = none)
    (horder : s.visitors.Keys order) :
    ClientStep names s ()
      { s with worker := .visitorsClosed, visitors := s.visitors.stopAll order, stopCh := true }
  | closeDone {s} (hw : s.worker = .visitorsClosed) : ClientStep names s () { s with worker := .done }

end Frp
