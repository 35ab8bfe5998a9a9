import Frp.Muxer
import Frp.Ports

/-!
# Groups of listeners

`server/group/base.go`, `registry.go`, `tcp.go`, `https.go` and `tcpmux.go`. The first listener
of a group opens the real one and fixes the settings; the last one closes it. Calls are not
interleaved here.
-/

namespace Frp

def errGroupAuthFailed : Str := lit "group auth failed"

def errGroupParamsInvalid : Str := lit "group params invalid"

def errGroupDifferentPort : Str := lit "group should have same remote port"

/-- A group from its first listener to its last; a listener is known by a number. -/
@[ext] structure ListenCycle (P L : Type) where
  group : Str
  groupKey : Str
  params : P
  realLn : L
  lns : List Nat
  nonempty : lns ≠ []

inductive BaseGroup (P L : Type)
  | idle
  | listening (c : ListenCycle P L)

def BaseGroup.cycle {P L : Type} : BaseGroup P L → Option (ListenCycle P L)
  | .idle => none
  | .listening c => some c

/-- The groups by name; listeners made from now on have numbers from `next` on. -/
structure GroupRegistry (P L : Type) where
  groups : Str → Option (BaseGroup P L)
  next : Nat
  fresh : ∀ key c, (groups key).bind BaseGroup.cycle = some c → ∀ ln ∈ c.lns, ln < next

namespace GroupRegistry

variable {P L : Type}

def new : GroupRegistry P L := ⟨fun _ => none, 0, fun _ _ h => by cases h⟩

def live (r : GroupRegistry P L) (key : Str) : Option (ListenCycle P L) := (r.groups key).bind BaseGroup.cycle

def put (r : GroupRegistry P L) (key : Str) (g : Option (BaseGroup P L)) (next : Nat) (hn : r.next ≤ next)
    (hg : ∀ c, g.bind BaseGroup.cycle = some c → ∀ ln ∈ c.lns, ln < next) : GroupRegistry P L where
  groups := Function.update r.groups key g
  next := next
  fresh k c h ln hm := by
    by_cases hk : k = key
    · rw [hk, Function.update_self] at h; exact hg c h ln hm
    · rw [Function.update_of_ne hk] at h; exact Nat.lt_of_lt_of_le (r.fresh k c h ln hm) hn

def getOrCreate (r : GroupRegistry P L) (key : Str) : GroupRegistry P L :=
  match r.groups key with
  | some _ => r
  | none => r.put key (some .idle) r.next (Nat.le_refl _) fun _ h => by cases h

def start (r : GroupRegistry P L) (group groupKey : Str) (params : P) (realLn : L) : GroupRegistry P L :=
  r.put group (some (.listening ⟨group, groupKey, params, realLn, [r.next], List.cons_ne_nil _ _⟩)) (r.next + 1)
    (Nat.le_succ _) fun c h ln hm => by
      cases h
      rw [List.mem_singleton.mp hm]; exact Nat.lt_succ_self _

def join (r : GroupRegistry P L) (group : Str) (c : ListenCycle P L) (h : r.live group = some c) : GroupRegistry P L :=
  r.put group (some (.listening { c with lns := c.lns ++ [r.next], nonempty := by simp })) (r.next + 1)
    (Nat.le_succ _) fun c' h' ln hm => by
      cases h'
      rcases List.mem_append.mp hm with hm | hm
      · exact Nat.lt_succ_of_lt (r.fresh group c h ln hm)
      · rw [List.mem_singleton.mp hm]; exact Nat.lt_succ_self _

end GroupRegistry

def ListenCycle.refuse {P L : Type} (c : ListenCycle P L) (mismatch : P → P → Option Str) (group groupKey : Str)
    (params : P) : Option Str :=
  if c.group ≠ group then some errGroupParamsInvalid
  else (mismatch c.params params).or (if c.groupKey ≠ groupKey then some errGroupAuthFailed else none)

namespace GroupRegistry

variable {P L S : Type}

def listen (r : GroupRegistry P L) (openReal : S → S × Except Str L) (mismatch : P → P → Option Str)
    (group groupKey : Str) (params : P) (s : S) : (S × GroupRegistry P L) × Except Str (Nat × L) :=
  match h : r.live group with
  | none =>
    match openReal s with
    | (s, .error e) => ((s, r.getOrCreate group), .error e)
    | (s, .ok l) => ((s, r.start group groupKey params l), .ok (r.next, l))
  | some c =>
    match c.refuse mismatch group groupKey params with
    | some e => ((s, r), .error e)
    | none => ((s, r.join group c h), .ok (r.next, c.realLn))

def closeListener (r : GroupRegistry P L) (closeReal : L → S → S) (group : Str) (ln : Nat) (s : S) :
    S × GroupRegistry P L :=
  match h : r.live group with
  | none => (s, r)
  | some c =>
    if he : c.lns.erase ln = [] then
      (closeReal c.realLn s, r.put group none r.next (Nat.le_refl _) fun _ h => by cases h)
    else
      (s, r.put group (some (.listening { c with lns := c.lns.erase ln, nonempty := he })) r.next (Nat.le_refl _)
        fun c' h' ln' hm => by
          cases h'
          exact r.fresh group c h ln' (List.mem_of_mem_erase hm))

end GroupRegistry

/-! ## The groups of the three kinds -/

structure TCPGroupParams where
  addr : Str
  port : Int

def TCPGroupParams.mismatch (tg p : TCPGroupParams) : Option Str :=
  if tg.addr ≠ p.addr then some errGroupParamsInvalid
  else if tg.port ≠ p.port then some errGroupDifferentPort
  else none

structure VhostParams where
  domain : Str
  routeByHTTPUser : Str
  username : Str
  password : Str

def httpsMismatch (g p : VhostParams) : Option Str :=
  if g.domain ≠ p.domain then some errGroupParamsInvalid else none

def tcpMuxMismatch (tmg p : VhostParams) : Option Str :=
  if tmg.domain ≠ p.domain ∨ tmg.routeByHTTPUser ≠ p.routeByHTTPUser ∨ tmg.username ≠ p.username ∨
      tmg.password ≠ p.password then some errGroupParamsInvalid
  else none

/-! ## A muxer with its groups -/

structure VhostTable where
  registryRouter : Routers VhostListener
  next : Nat

def errRouterConfigConflict : Str := lit "router config conflict"

section
variable [UnicodeCase]

def VhostTable.listen (p : VhostParams) (m : VhostTable) : VhostTable × Except Str VhostListener :=
  let l : VhostListener := ⟨m.next, p.domain, [], p.routeByHTTPUser, [], p.username, p.password⟩
  match Muxer.listen m.registryRouter l with
  | none => (m, .error errRouterConfigConflict)
  | some tbl => (⟨tbl, m.next + 1⟩, .ok l)

def VhostTable.close (l : VhostListener) (m : VhostTable) : VhostTable :=
  { m with registryRouter := m.registryRouter.del l.name l.location l.routeByHTTPUser }

structure VhostMux where
  table : VhostTable
  groups : GroupRegistry VhostParams VhostListener

inductive VhostEvent
  | listen (l : VhostListener)
  | close (l : VhostListener)

inductive VhostStep : Routers VhostListener → VhostEvent → Routers VhostListener → Prop
  | listen {tbl l tbl'} : Muxer.listen tbl l = some tbl' → VhostStep tbl (.listen l) tbl'
  | close (tbl : Routers VhostListener) (l : VhostListener) :
      VhostStep tbl (.close l) (tbl.del l.name l.location l.routeByHTTPUser)

inductive VhostLn
  | plain (l : VhostListener)
  | member (group : Str) (ln : Nat)

/-- `listenForDomain` and `httpConnectListen`: in the group if there is one, or on the muxer. -/
def VhostMux.listen (mismatch : VhostParams → VhostParams → Option Str) (group groupKey : Str) (p : VhostParams)
    (v : VhostMux) : VhostMux × Except Str VhostLn :=
  if group ≠ [] then
    match v.groups.listen (VhostTable.listen p) mismatch group groupKey p v.table with
    | ((table, groups), r) => (⟨table, groups⟩, r.map fun x => .member group x.1)
  else
    match VhostTable.listen p v.table with
    | (table, r) => ({ v with table := table }, r.map .plain)

def VhostMux.close (l : VhostLn) (v : VhostMux) : VhostMux :=
  match l with
  | .plain l => { v with table := v.table.close l }
  | .member group ln =>
    match v.groups.closeListener VhostTable.close group ln v.table with
    | (table, groups) => ⟨table, groups⟩

end

end Frp
