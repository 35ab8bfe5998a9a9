import Frp.ListenGroup

/-!
# Groups of listeners, interleaved

`Listen` of the TCP, HTTPS and TCPMux groups and `Close` of their listeners, by any number of
proxies. A step is a section under the registry's lock, the taking of a group's lock, or a call
made under it; what these answer is open. The worker of a group hands connections to `Accept`
calls.
-/

namespace Frp

open Function

inductive GroupKind
  | tcp
  | https
  | tcpmux
  deriving DecidableEq

namespace GroupKind

def Params : GroupKind → Type
  | tcp => TCPGroupParams
  | https | tcpmux => VhostParams

def mismatch : (k : GroupKind) → k.Params → k.Params → Option Str
  | tcp => TCPGroupParams.mismatch
  | https => httpsMismatch
  | tcpmux => tcpMuxMismatch

end GroupKind

structure ListenCall (k : GroupKind) where
  multiplexer : Str
  group : Str
  groupKey : Str
  params : k.Params

def ListenCall.Known {k : GroupKind} (c : ListenCall k) : Prop := k = .tcpmux → c.multiplexer = lit "httpconnect"

/-- Where a call of `Listen` is, or the `Close` of the listener it returned. From `entered` to
`joining` and from `leaving` to `cleaned` it holds the lock of the group. -/
inductive ListenPc
  | idle
  | holding (g : Nat)
  | entered (g : Nat)
  | first (g : Nat)
  | acquired (g r : Nat)
  | opened (g r : Nat)
  | joining (g : Nat)
  | listening (g ch : Nat)
  | closing (g ch : Nat)
  | leaving (g ch : Nat)
  | last (g ch : Nat)
  | shut (g ch : Nat)
  | half (g ch : Nat)
  | cleaned (g ch : Nat)
  | left (ch : Nat)
  | refused (err : Str)

/-- How far a group object has come; kept for the proofs, no step reads it. -/
inductive GroupStage
  | fresh
  | acquired (r : Nat)
  | opened (r : Nat)
  | active
  | emptied
  | shut
  | half
  | cleaned
  | dead
  deriving DecidableEq

/-- A group object. `real` is the port, or the number of the route; `name` is the key it was made
for, and the last five fields record what was done on its behalf. -/
structure GroupObj (k : GroupKind) where
  name : Str
  group : Str
  groupKey : Str
  params : Option k.Params
  real : Nat
  ch : Nat
  lns : List Nat
  stage : GroupStage
  acquires : List Nat
  releases : List Nat
  opens : Nat
  closes : Nat

def GroupObj.new {k : GroupKind} (name : Str) : GroupObj k := ⟨name, [], [], none, 0, 0, [], .fresh, [], [], 0, 0⟩

def GroupObj.refuse {k : GroupKind} (o : GroupObj k) (c : ListenCall k) : Option Str :=
  if o.group ≠ c.group then some errGroupParamsInvalid
  else
    match o.params with
    | none => some errGroupParamsInvalid
    | some p => (k.mismatch p c.params).or (if o.groupKey ≠ c.groupKey then some errGroupAuthFailed else none)

inductive GroupWorkerPc
  | accepting
  | sending (conn : Nat)
  | exited
  deriving DecidableEq

structure GroupChan where
  shuts : Nat
  realClosed : Bool
  worker : GroupWorkerPc

/-- Connections are numbered in the order in which the workers accepted them; `accepts` are the
channels they were accepted for. -/
structure ListenWorld (k : GroupKind) where
  groups : Str → Option Nat
  objs : List (GroupObj k)
  mu : Nat → Option Nat
  pc : Nat → ListenPc
  chans : List GroupChan
  accepts : List Nat
  deliveries : List (Nat × Nat)
  closedConns : List Nat

def ListenPc.chan : ListenPc → Option Nat
  | listening _ ch | closing _ ch | leaving _ ch | last _ ch | shut _ ch | half _ ch | cleaned _ ch | left ch => some ch
  | _ => none

inductive ListenEvent
  | call (i : Nat)
  | worker (ch : Nat)

namespace ListenWorld

variable {k : GroupKind}

def Init (s : ListenWorld k) : Prop :=
  s = ⟨fun _ => none, [], fun _ => none, fun _ => .idle, [], [], [], []⟩

def goto (s : ListenWorld k) (i : Nat) (p : ListenPc) : ListenWorld k := { s with pc := update s.pc i p }

def lock (s : ListenWorld k) (g i : Nat) : ListenWorld k := { s with mu := update s.mu g (some i) }

def unlock (s : ListenWorld k) (g : Nat) : ListenWorld k := { s with mu := update s.mu g none }

def setObj (s : ListenWorld k) (g : Nat) (o : GroupObj k) : ListenWorld k := { s with objs := s.objs.set g o }

def setChan (s : ListenWorld k) (ch : Nat) (c : GroupChan) : ListenWorld k := { s with chans := s.chans.set ch c }

def addObj (s : ListenWorld k) (key : Str) : ListenWorld k :=
  { s with groups := update s.groups key (some s.objs.length), objs := s.objs ++ [.new key] }

def addChan (s : ListenWorld k) : ListenWorld k := { s with chans := s.chans ++ [⟨0, false, .accepting⟩] }

def removeIf (s : ListenWorld k) (key : Str) (g : Nat) : ListenWorld k :=
  if s.groups key = some g then { s with groups := update s.groups key none } else s

end ListenWorld

inductive ListenStep {k : GroupKind} (calls : Nat → ListenCall k) :
    ListenWorld k → ListenEvent → ListenWorld k → Prop
  -- getOrCreate
  | get {s i} (g : Nat) : s.pc i = .idle → s.groups (calls i).group = some g →
      ListenStep calls s (.call i) (s.goto i (.holding g))
  | create {s i} : s.pc i = .idle → s.groups (calls i).group = none →
      ListenStep calls s (.call i) ((s.addObj (calls i).group).goto i (.holding s.objs.length))
  | unknownMultiplexer {s i} (g : Nat) : s.pc i = .holding g → ¬ (calls i).Known →
      ListenStep calls s (.call i)
        (s.goto i (.refused (lit "unknown multiplexer [" ++ (calls i).multiplexer ++ lit "]")))
  -- Listen of the group
  | enter {s i} (g : Nat) : s.pc i = .holding g → (calls i).Known → s.mu g = none →
      ListenStep calls s (.call i) ((s.lock g i).goto i (.entered g))
  | stale {s i} (g : Nat) : s.pc i = .entered g → s.groups (calls i).group ≠ some g →
      ListenStep calls s (.call i) ((s.unlock g).goto i .idle)
  | first {s i} (g : Nat) (o : GroupObj k) : s.pc i = .entered g → s.groups (calls i).group = some g →
      s.objs[g]? = some o → o.lns = [] → ListenStep calls s (.call i) (s.goto i (.first g))
  | join {s i} (g : Nat) (o : GroupObj k) : s.pc i = .entered g → s.groups (calls i).group = some g →
      s.objs[g]? = some o → o.lns ≠ [] → ListenStep calls s (.call i) (s.goto i (.joining g))
  -- the first listener of a TCP group: Acquire, then net.Listen
  | acquireFails {s i} (g : Nat) (err : Str) : s.pc i = .first g → k = .tcp →
      ListenStep calls s (.call i) ((s.unlock g).goto i (.refused err))
  | acquire {s i} (g : Nat) (o : GroupObj k) (r : Nat) : s.pc i = .first g → k = .tcp → s.objs[g]? = some o →
      ListenStep calls s (.call i) ((s.setObj g { o with
        acquires := o.acquires ++ [r], stage := .acquired r }).goto i (.acquired g r))
  | netListenFails {s i} (g : Nat) (o : GroupObj k) (r : Nat) (err : Str) : s.pc i = .acquired g r →
      s.objs[g]? = some o →
      ListenStep calls s (.call i) (((s.setObj g { o with
        releases := o.releases ++ [r], stage := .fresh }).unlock g).goto i (.refused err))
  | netListen {s i} (g : Nat) (o : GroupObj k) (r : Nat) : s.pc i = .acquired g r → s.objs[g]? = some o →
      ListenStep calls s (.call i) ((s.setObj g { o with
        opens := o.opens + 1, stage := .opened r }).goto i (.opened g r))
  -- the first listener of an HTTPS or TCPMux group: Listen of the muxer
  | muxerListenFails {s i} (g : Nat) (err : Str) : s.pc i = .first g → k ≠ .tcp →
      ListenStep calls s (.call i) ((s.unlock g).goto i (.refused err))
  | muxerListen {s i} (g : Nat) (o : GroupObj k) (r : Nat) : s.pc i = .first g → k ≠ .tcp → s.objs[g]? = some o →
      ListenStep calls s (.call i) ((s.setObj g { o with
        acquires := o.acquires ++ [r], opens := o.opens + 1, stage := .opened r }).goto i (.opened g r))
  -- initBase, newListener, go worker
  | init {s i} (g : Nat) (o : GroupObj k) (r : Nat) : s.pc i = .opened g r → s.objs[g]? = some o →
      ListenStep calls s (.call i) (((s.addChan.setObj g { o with
        group := (calls i).group, groupKey := (calls i).groupKey, params := some (calls i).params, real := r
        ch := s.chans.length, lns := o.lns ++ [i], stage := .active }).unlock g).goto i
          (.listening g s.chans.length))
  -- a further listener
  | joined {s i} (g : Nat) (o : GroupObj k) : s.pc i = .joining g → s.objs[g]? = some o → o.refuse (calls i) = none →
      ListenStep calls s (.call i) (((s.setObj g { o with lns := o.lns ++ [i] }).unlock g).goto i
        (.listening g o.ch))
  | refused {s i} (g : Nat) (o : GroupObj k) (err : Str) : s.pc i = .joining g → s.objs[g]? = some o →
      o.refuse (calls i) = some err → ListenStep calls s (.call i) ((s.unlock g).goto i (.refused err))
  -- Close of a listener, once: close(closeCh), then closeListener of the group
  | close {s i} (g ch : Nat) : s.pc i = .listening g ch → ListenStep calls s (.call i) (s.goto i (.closing g ch))
  | enterClose {s i} (g ch : Nat) : s.pc i = .closing g ch → s.mu g = none →
      ListenStep calls s (.call i) ((s.lock g i).goto i (.leaving g ch))
  | leave {s i} (g ch : Nat) (o : GroupObj k) : s.pc i = .leaving g ch → s.objs[g]? = some o → o.lns.erase i ≠ [] →
      ListenStep calls s (.call i) (((s.setObj g { o with lns := o.lns.erase i }).unlock g).goto i (.left ch))
  | leaveLast {s i} (g ch : Nat) (o : GroupObj k) : s.pc i = .leaving g ch → s.objs[g]? = some o → o.lns.erase i = [] →
      ListenStep calls s (.call i) ((s.setObj g { o with lns := o.lns.erase i, stage := .emptied }).goto i (.last g ch))
  | closeAccept {s i} (g ch : Nat) (o : GroupObj k) (c : GroupChan) : s.pc i = .last g ch → s.objs[g]? = some o →
      s.chans[o.ch]? = some c →
      ListenStep calls s (.call i) (((s.setChan o.ch { c with shuts := c.shuts + 1 }).setObj g { o with
        stage := .shut }).goto i (.shut g ch))
  -- realLn.Close of a TCP group, and Release in the cleanup function
  | closeReal {s i} (g ch : Nat) (o : GroupObj k) (c : GroupChan) : s.pc i = .shut g ch → k = .tcp →
      s.objs[g]? = some o → s.chans[o.ch]? = some c →
      ListenStep calls s (.call i) (((s.setChan o.ch { c with realClosed := true }).setObj g { o with
        closes := o.closes + 1, stage := .half }).goto i (.half g ch))
  | release {s i} (g ch : Nat) (o : GroupObj k) : s.pc i = .half g ch → k = .tcp → s.objs[g]? = some o →
      ListenStep calls s (.call i) ((s.setObj g { o with
        releases := o.releases ++ [o.real], stage := .cleaned }).goto i (.cleaned g ch))
  -- realLn.Close of the other two: Del of the route, and the channel of the muxer's listener is closed
  | del {s i} (g ch : Nat) (o : GroupObj k) : s.pc i = .shut g ch → k ≠ .tcp → s.objs[g]? = some o →
      ListenStep calls s (.call i) ((s.setObj g { o with
        releases := o.releases ++ [o.real], stage := .half }).goto i (.half g ch))
  | closeMuxer {s i} (g ch : Nat) (o : GroupObj k) (c : GroupChan) : s.pc i = .half g ch → k ≠ .tcp →
      s.objs[g]? = some o → s.chans[o.ch]? = some c →
      ListenStep calls s (.call i) (((s.setChan o.ch { c with realClosed := true }).setObj g { o with
        closes := o.closes + 1, stage := .cleaned }).goto i (.cleaned g ch))
  | removeIf {s i} (g ch : Nat) (o : GroupObj k) : s.pc i = .cleaned g ch → s.objs[g]? = some o →
      ListenStep calls s (.call i) ((((s.removeIf o.group g).setObj g { o with stage := .dead }).unlock g).goto i
        (.left ch))
  -- the worker, and the Accept calls it meets
  | accept {s ch} (c : GroupChan) : s.chans[ch]? = some c → c.worker = .accepting → c.realClosed = false →
      ListenStep calls s (.worker ch) { s.setChan ch { c with worker := .sending s.accepts.length } with
        accepts := s.accepts ++ [ch] }
  | acceptFails {s ch} (c : GroupChan) : s.chans[ch]? = some c → c.worker = .accepting →
      ListenStep calls s (.worker ch) (s.setChan ch { c with worker := .exited })
  | deliver {s ch} (c : GroupChan) (conn i : Nat) : s.chans[ch]? = some c → c.worker = .sending conn → c.shuts = 0 →
      (s.pc i).chan = some ch →
      ListenStep calls s (.worker ch) { s.setChan ch { c with worker := .accepting } with
        deliveries := s.deliveries ++ [(conn, i)] }
  | panics {s ch} (c : GroupChan) (conn : Nat) : s.chans[ch]? = some c → c.worker = .sending conn → 0 < c.shuts →
      ListenStep calls s (.worker ch) { s.setChan ch { c with worker := .exited } with
        closedConns := s.closedConns ++ [conn] }

end Frp
