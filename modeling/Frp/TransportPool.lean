import Frp.ReverseProxySound
import Frp.RoutersSound
import Frp.Slots

/-!
# Idle connections of the reverse proxy

The `http.Transport` of `pkg/util/vhost/http.go` beside registrations: a request that was
matched takes an idle connection kept under its `URL.Host`, or is dialled, which looks the
table up again. `UnRegister` leaves the idle connections alone.
-/

namespace Frp

structure TransportConn (F : Type) where
  key : Str
  route : Route F
  call : Call F

structure IdleConn (F : Type) where
  conn : TransportConn F
  since : Nat

def idleConnTimeout : Nat := 60

def maxIdleConnsPerHost : Nat := 5

def IdleConn.Fresh {F : Type} (x : IdleConn F) (now : Nat) : Prop := now ≤ x.since + idleConnTimeout

structure Matched (F : Type) where
  req : Request
  ctx : Context F

/-- `registrations` are all there have been; a route's place in the list is its address. -/
structure PooledProxy (F : Type) where
  table : Routers (Route F) := .new
  registrations : List (Route F) := []
  matched : List (Matched F) := []
  now : Nat := 0
  busy : List (TransportConn F) := []
  idle : List (IdleConn F) := []

inductive TransportEvent (F : Type)
  | register (cfg : RouteConfig F)
  | unRegister (cfg : RouteConfig F)
  | serve (req : Request)
  | request (k : Nat) (out : Header) (chosen : Str) (carried : Option (TransportConn F))
  | release
  | drop
  | tick (n : Nat)

section
variable {F : Type} [UnicodeCase]

def Matched.urlHost (q : Matched F) (out : Header) (chosen : Str) : Str := (rewrite q.ctx q.req out chosen).1.urlHost

/-- A matched request may get a connection at any later time, and again when it is tried again. It
has it until `finish` or `close`; an idle one may be closed by its other end at any time. -/
inductive TransportStep : PooledProxy F → TransportEvent F → PooledProxy F → Prop
  | register {s} (cfg : RouteConfig F) (tbl : Routers (Route F))
    (h : register s.table s.registrations.length cfg = some tbl) :
    TransportStep s (.register cfg)
      { s with table := tbl, registrations := s.registrations ++ [⟨cfg, s.registrations.length⟩] }
  | conflict {s} (cfg : RouteConfig F) (h : register s.table s.registrations.length cfg = none) :
    TransportStep s (.register cfg) s
  | unRegister {s} (cfg : RouteConfig F) :
    TransportStep s (.unRegister cfg) { s with table := unRegister s.table cfg }
  | denied {s} (req : Request) (status : Nat) (challenge : Str × Str)
    (h : serveHTTP s.table req = .denied status challenge) : TransportStep s (.serve req) s
  | serve {s} (req : Request) (ctx : Context F)
    (h : serveHTTP s.table req = .connect ctx ∨ serveHTTP s.table req = .proxied ctx) :
    TransportStep s (.serve req) { s with matched := s.matched ++ [⟨req, ctx⟩] }
  | connect {s} (k : Nat) (out : Header) (chosen : Str) (q : Matched F) (rc : Route F) (call : Call F)
    (hq : s.matched[k]? = some q) (hm : q.req.method = Request.connect)
    (hdial : createConnection s.table q.ctx.info false = some (rc, call)) :
    TransportStep s (.request k out chosen (some ⟨[], rc, call⟩)) s
  | connectFails {s} (k : Nat) (out : Header) (chosen : Str) (q : Matched F)
    (hq : s.matched[k]? = some q) (hm : q.req.method = Request.connect)
    (hdial : createConnection s.table q.ctx.info false = none) : TransportStep s (.request k out chosen none) s
  | reuse {s} (k : Nat) (out : Header) (chosen : Str) (q : Matched F) (x : IdleConn F) (before after)
    (hq : s.matched[k]? = some q) (hm : q.req.method ≠ Request.connect) (hx : s.idle = before ++ x :: after)
    (hfresh : x.Fresh s.now) (hkey : x.conn.key = q.urlHost out chosen) :
    TransportStep s (.request k out chosen (some x.conn)) { s with idle := before ++ after, busy := s.busy ++ [x.conn] }
  | dial {s} (k : Nat) (out : Header) (chosen : Str) (q : Matched F) (rc : Route F) (call : Call F)
    (hq : s.matched[k]? = some q) (hm : q.req.method ≠ Request.connect)
    (hnone : ∀ x ∈ s.idle, x.Fresh s.now → x.conn.key ≠ q.urlHost out chosen)
    (hdial : createConnection s.table (rewrite q.ctx q.req out chosen).2 true = some (rc, call)) :
    TransportStep s (.request k out chosen (some ⟨q.urlHost out chosen, rc, call⟩))
      { s with busy := s.busy ++ [⟨q.urlHost out chosen, rc, call⟩] }
  | dialFails {s} (k : Nat) (out : Header) (chosen : Str) (q : Matched F)
    (hq : s.matched[k]? = some q) (hm : q.req.method ≠ Request.connect)
    (hnone : ∀ x ∈ s.idle, x.Fresh s.now → x.conn.key ≠ q.urlHost out chosen)
    (hdial : createConnection s.table (rewrite q.ctx q.req out chosen).2 true = none) :
    TransportStep s (.request k out chosen none) s
  | finish {s} (c : TransportConn F) (before after) (hc : s.busy = before ++ c :: after)
    (hroom : (s.idle.filter fun x => x.conn.key = c.key).length < maxIdleConnsPerHost) :
    TransportStep s .release { s with busy := before ++ after, idle := s.idle ++ [⟨c, s.now⟩] }
  | close {s} (c : TransportConn F) (before after) (hc : s.busy = before ++ c :: after) :
    TransportStep s .release { s with busy := before ++ after }
  | drop {s} (x : IdleConn F) (before after) (hx : s.idle = before ++ x :: after) :
    TransportStep s .drop { s with idle := before ++ after }
  | tick {s} (n : Nat) : TransportStep s (.tick n) { s with now := s.now + n }

/-- A request that gets a connection is still routed as when it was matched. -/
def PooledProxy.Steady (s : PooledProxy F) : TransportEvent F → Prop
  | .request k _ _ _ => ∀ q, s.matched[k]? = some q → routeOf s.table q.ctx.info = q.ctx.rc
  | _ => True

end

open RouteTable

/-! ## The table beside all registrations -/

section
variable {F : Type} [UnicodeCase] {tbl tbl' : Routers (Route F)} {regs : List (Route F)} {r : Route F}

theorem Routers.Represents.getByRoute_registered {P : Type} {r : Routers P} {T : RouteTable P} (h : r.Represents T)
    {host path user : Str} {vr : Router P} (hget : r.getByRoute host path user = some vr) :
    T vr.domain vr.location vr.httpUser = some vr.payload := by
  rw [Routers.getByRoute_eq] at hget
  obtain ⟨_, c, _, -, hc, -⟩ := List.findSome?_eq_some_iff.mp hget
  rcases h.getExactOrAllUsers_some.mp hc with hbest | ⟨-, hbest⟩
  · rw [hbest.domain, hbest.httpUser]; exact hbest.registered
  · rw [hbest.domain, hbest.httpUser]; exact hbest.registered

def RouteTable.atNames (T : RouteTable (Route F)) (a : Route F) : Option (Route F) :=
  T a.domain.toLower a.location a.routeByHTTPUser

structure Latest (tbl : Routers (Route F)) (T : RouteTable (Route F)) (regs : List (Route F)) : Prop where
  represents : tbl.Represents T
  address : ∀ (i : Nat) (a : Route F), regs[i]? = some a → a.id = i
  names : ∀ d l u a, T d l u = some a → a.domain.toLower = d ∧ a.location = l ∧ a.routeByHTTPUser = u ∧ a ∈ regs
  last : ∀ a ∈ regs, ∀ b, T.atNames a = some b → a.id ≤ b.id

namespace Latest

variable {T : RouteTable (Route F)}

theorem new : Latest (F := F) .new (fun _ _ _ => none) [] :=
  ⟨.new, by simp, by simp, by simp⟩

variable (h : Latest tbl T regs)
include h

theorem id_inj {a b : Route F} (ha : a ∈ regs) (hb : b ∈ regs) (heq : a.id = b.id) : a = b := by
  obtain ⟨i, hi⟩ := List.mem_iff_getElem?.mp ha
  obtain ⟨j, hj⟩ := List.mem_iff_getElem?.mp hb
  rw [h.address i a hi, h.address j b hj] at heq
  subst heq; exact Option.some.inj (hi.symm.trans hj)

theorem id_lt {a : Route F} (ha : a ∈ regs) : a.id < regs.length := by
  obtain ⟨i, hi⟩ := List.mem_iff_getElem?.mp ha
  rw [h.address i a hi]; exact (List.getElem?_eq_some_iff.mp hi).1

theorem register {cfg : RouteConfig F} (hadd : register tbl regs.length cfg = some tbl') :
    ∃ T', Latest tbl' T' (regs ++ [⟨cfg, regs.length⟩]) := by
  have hfree : T cfg.domain.toLower cfg.location cfg.routeByHTTPUser = none := by
    by_contra hne
    have hnone := (h.represents.add_eq_none cfg.domain cfg.location cfg.routeByHTTPUser ⟨cfg, regs.length⟩).mpr hne
    exact absurd (hnone.symm.trans hadd) (by simp)
  refine ⟨_, h.represents.add hadd, fun i a hi => ?_, fun d l u a ha => ?_, fun a ha b hb => ?_⟩
  · rcases getElem?_append_singleton_iff.mp hi with ⟨-, hi⟩ | ⟨rfl, rfl⟩
    · exact h.address i a hi
    · rfl
  · rw [exec_add] at ha
    split at ha
    · rename_i hk
      obtain ⟨rfl, rfl, rfl⟩ := hk
      rw [hfree, Option.none_or] at ha; cases ha
      exact ⟨rfl, rfl, rfl, by simp⟩
    · obtain ⟨hd, hl, hu, hmem⟩ := h.names d l u a ha
      exact ⟨hd, hl, hu, List.mem_append_left _ hmem⟩
  · -- the new route is after all others, and under other names the table is as before
    rw [atNames, exec_add] at hb
    split at hb
    · rename_i hk
      rw [hk.1, hk.2.1, hk.2.2, hfree, Option.none_or] at hb; cases hb
      rcases List.mem_append.mp ha with ha | ha
      · exact Nat.le_of_lt (h.id_lt ha)
      · rw [List.mem_singleton.mp ha]
    · rename_i hk
      rcases List.mem_append.mp ha with ha | ha
      · exact h.last a ha b hb
      · rw [List.mem_singleton.mp ha] at hk; exact absurd ⟨rfl, rfl, rfl⟩ hk

theorem unRegister (cfg : RouteConfig F) : ∃ T', Latest (unRegister tbl cfg) T' regs := by
  have hsub : ∀ d l u a, exec T (.del cfg.domain cfg.location cfg.routeByHTTPUser) d l u = some a →
      T d l u = some a := by
    intro d l u a ha
    rw [exec_del] at ha
    split at ha
    · cases ha
    · exact ha
  exact ⟨_, h.represents.del _ _ _, h.address, fun d l u a ha => h.names d l u a (hsub d l u a ha),
    fun a ha b hb => h.last a ha b (hsub _ _ _ _ hb)⟩

theorem of_routeOf {info : RequestRouteInfo} (hr : routeOf tbl info = some r) :
    T.atNames r = some r ∧ r ∈ regs := by
  obtain ⟨vr, hvr, rfl⟩ := Option.map_eq_some_iff.mp hr
  have hT := h.represents.getByRoute_registered hvr
  obtain ⟨hd, hl, hu, hmem⟩ := h.names _ _ _ _ hT
  refine ⟨?_, hmem⟩
  rw [atNames, hd, hl, hu]; exact hT

end Latest

end

/-! ## Runs -/

section
variable {F : Type} [UnicodeCase] {s t : PooledProxy F} {e : TransportEvent F} {q : Matched F} {r : Route F}

def TransportConn.Kept (regs : List (Route F)) (c : TransportConn F) : Prop :=
  c.route ∈ regs ∧ ∃ endpoint, c.key = poolKey c.route.toRouteConfig endpoint

structure PooledProxy.Inv (s : PooledProxy F) : Prop where
  table : ∃ T, Latest s.table T s.registrations
  busy : ∀ c ∈ s.busy, c.Kept s.registrations
  idle : ∀ x ∈ s.idle, x.conn.Kept s.registrations

theorem Matched.dial_route {tbl : Routers (Route F)} {out : Header} {chosen : Str} {rc : Route F} {call : Call F}
    (h : routeOf tbl q.ctx.info = q.ctx.rc)
    (hdial : createConnection tbl (rewrite q.ctx q.req out chosen).2 true = some (rc, call)) : q.ctx.rc = some rc := by
  have hroute := createConnection_route hdial
  rw [routeOf_rewrite, h] at hroute; exact hroute

theorem PooledProxy.Inv.dial (hs : s.Inv) {out : Header} {chosen : Str} {rc : Route F} {call : Call F}
    (h : routeOf s.table q.ctx.info = q.ctx.rc)
    (hdial : createConnection s.table (rewrite q.ctx q.req out chosen).2 true = some (rc, call)) :
    TransportConn.Kept s.registrations ⟨q.urlHost out chosen, rc, call⟩ := by
  obtain ⟨T, hT⟩ := hs.table
  have hrc := q.dial_route h hdial
  exact ⟨(hT.of_routeOf (h.trans hrc)).2, _, rewrite_routed hrc q.req out chosen⟩

theorem TransportStep.inv (hs : s.Inv) (h : TransportStep s e t) (hsteady : s.Steady e) : t.Inv := by
  cases h with
  | register cfg tbl hadd =>
    obtain ⟨T, hT⟩ := hs.table
    have hmore : ∀ c : TransportConn F, c.Kept s.registrations →
        c.Kept (s.registrations ++ [⟨cfg, s.registrations.length⟩]) :=
      fun c hc => ⟨List.mem_append_left _ hc.1, hc.2⟩
    exact ⟨hT.register hadd, fun c hc => hmore c (hs.busy c hc), fun x hx => hmore x.conn (hs.idle x hx)⟩
  | unRegister cfg =>
    obtain ⟨T, hT⟩ := hs.table
    exact ⟨hT.unRegister cfg, hs.busy, hs.idle⟩
  | conflict | denied | connect | connectFails | dialFails => exact hs
  | serve => exact ⟨hs.table, hs.busy, hs.idle⟩
  | reuse k out chosen q x before after _ _ hx =>
    have hconn := hs.idle x (by simp [hx])
    refine ⟨hs.table, fun c hc => ?_, fun y hy => hs.idle y (mem_of_mem_taken hx hy)⟩
    rcases List.mem_append.mp hc with hc | hc
    · exact hs.busy c hc
    · rw [List.mem_singleton.mp hc]; exact hconn
  | dial k out chosen q rc call hq _ _ hdial =>
    refine ⟨hs.table, fun c hc => ?_, hs.idle⟩
    rcases List.mem_append.mp hc with hc | hc
    · exact hs.busy c hc
    · rw [List.mem_singleton.mp hc]; exact hs.dial (hsteady q hq) hdial
  | finish c before after hc =>
    have hconn := hs.busy c (by simp [hc])
    refine ⟨hs.table, fun d hd => hs.busy d (mem_of_mem_taken hc hd), fun y hy => ?_⟩
    rcases List.mem_append.mp hy with hy | hy
    · exact hs.idle y hy
    · rw [List.mem_singleton.mp hy]; exact hconn
  | close c before after hc => exact ⟨hs.table, fun d hd => hs.busy d (mem_of_mem_taken hc hd), hs.idle⟩
  | drop x before after hx => exact ⟨hs.table, hs.busy, fun y hy => hs.idle y (mem_of_mem_taken hx hy)⟩
  | tick => exact ⟨hs.table, hs.busy, hs.idle⟩

theorem PooledProxy.inv_of_reach (h : Reach (· = {}) (When TransportStep Steady) s) : s.Inv :=
  h.invariant (fun _ heq => heq ▸ ⟨⟨_, .new⟩, by simp, by simp⟩) fun _ _ _ _ hs hstep => hstep.1.inv hs hstep.2

structure TransportConn.Stale (s : PooledProxy F) (r : Route F) (c : TransportConn F) : Prop where
  domain : c.route.domain = r.domain
  location : c.route.location = r.location
  user : c.route.routeByHTTPUser = r.routeByHTTPUser
  earlier : c.route.id < r.id
  gone : ∀ d u, ∀ vr ∈ s.table.indexByDomain d u, vr.payload ≠ c.route

theorem PooledProxy.Inv.stale (hs : s.Inv) {info : RequestRouteInfo} (hr : routeOf s.table info = some r)
    {c : TransportConn F} (hc : c.Kept s.registrations) {endpoint : Str}
    (hkey : c.key = poolKey r.toRouteConfig endpoint) (hne : c.route ≠ r) : c.Stale s r := by
  obtain ⟨T, hT⟩ := hs.table
  obtain ⟨hat, hmem⟩ := hT.of_routeOf hr
  obtain ⟨e, he⟩ := hc.2
  obtain ⟨hd, hl, hu, -⟩ := poolKey_inj (he.symm.trans hkey)
  have hnames : T.atNames c.route = some r := by rw [atNames, hd, hl, hu]; exact hat
  refine ⟨hd, hl, hu, ?_, fun d u vr hvr heq => ?_⟩
  · exact Nat.lt_of_le_of_ne (hT.last _ hc.1 r hnames) fun hid => hne (hT.id_inj hc.1 hmem hid)
  · -- a route in the table is there under its own names, where the table has `r`
    obtain ⟨rfl, rfl, hvr⟩ := (hT.represents.mem d u vr).mp hvr
    obtain ⟨hd', hl', hu', -⟩ := hT.names _ _ _ _ hvr
    rw [← hd', ← hl', ← hu', heq] at hvr; exact hne (Option.some.inj (hvr.symm.trans hnames))

/-- If requests are still routed as matched when they get their connections, a request is carried by
one of the registration it matched just when it is a `CONNECT`, which always dials, or none of an
earlier one with its names is idle under its host. -/
theorem PooledProxy.carried_by_current_iff (h : Reach (· = {}) (When TransportStep Steady) s) {k : Nat}
    (hq : s.matched[k]? = some q) (hr : q.ctx.rc = some r) (hroute : routeOf s.table q.ctx.info = some r)
    (out : Header) (chosen : Str) :
    (∀ c t, TransportStep s (.request k out chosen (some c)) t → c.route = r) ↔
      q.req.method = Request.connect ∨
        ¬ ∃ x ∈ s.idle, x.Fresh s.now ∧ x.conn.key = poolKey r.toRouteConfig (endpointOf r.toRouteConfig chosen) ∧
          x.conn.Stale s r := by
  have hs := inv_of_reach h
  have hhost : q.urlHost out chosen = poolKey r.toRouteConfig (endpointOf r.toRouteConfig chosen) :=
    rewrite_routed hr q.req out chosen
  constructor
  · refine fun hall => or_iff_not_imp_left.mpr fun hm => ?_
    rintro ⟨x, hx, hfresh, hkey, hold⟩
    obtain ⟨before, after, hsplit⟩ := List.append_of_mem hx
    have hcur := hall _ _ (.reuse k out chosen q x before after hq hm hsplit hfresh (hkey.trans hhost.symm))
    exact absurd (congrArg Route.id hcur) (Nat.ne_of_lt hold.earlier)
  · intro hno c t hstep
    cases hstep with
    | connect _ _ _ q' rc call hq' _ hdial =>
      cases hq.symm.trans hq'
      exact Option.some.inj ((createConnection_route hdial).symm.trans hroute)
    | reuse _ _ _ q' x before after hq' hm hx hfresh hkey =>
      cases hq.symm.trans hq'
      have hmem : x ∈ s.idle := by simp [hx]
      have hkey := hkey.trans hhost
      by_contra hne
      exact hno.resolve_left hm ⟨x, hmem, hfresh, hkey, hs.stale hroute (hs.idle x hmem) hkey hne⟩
    | dial _ _ _ q' rc call hq' _ _ hdial =>
      cases hq.symm.trans hq'
      exact Option.some.inj ((q.dial_route (hroute.trans hr.symm) hdial).symm.trans hr)

end

/-! ## A route that changes hands -/

section
attribute [local instance] UnicodeCase.ascii

def routeBy (f : Nat) : RouteConfig Nat := ⟨lit "example.com", [], [], [], [], [], [], [], some f, none, none⟩

def getRoot : Request := .get (lit "example.com") (lit "/") .empty

theorem PooledProxy.carried_again :
    ∃ s q, Reach (· = {}) (When TransportStep Steady) s ∧ s.matched[1]? = some q ∧ q.ctx.rc = some ⟨routeBy 1, 0⟩ ∧
      s.idle.length = 1 ∧ ∀ c t, TransportStep s (.request 1 .empty [] (some c)) t → c.route = ⟨routeBy 1, 0⟩ := by
  have h := (.start rfl : Reach (· = {}) (When (TransportStep (F := Nat)) Steady) _)
    |>.next ⟨.register (routeBy 1) _ rfl, trivial⟩
    |>.next ⟨.serve getRoot _ (.inr rfl), trivial⟩
    |>.next ⟨.dial 0 .empty [] _ ⟨routeBy 1, 0⟩ _ rfl (by decide) (by simp) rfl, fun q hq => by cases hq; rfl⟩
    |>.next ⟨.finish _ [] [] rfl (by simp [maxIdleConnsPerHost]), trivial⟩
    |>.next ⟨.serve getRoot _ (.inr rfl), trivial⟩
  refine ⟨_, _, h, rfl, rfl, rfl, (carried_by_current_iff h rfl rfl rfl .empty []).mpr (.inr ?_)⟩
  rintro ⟨x, hx, -, -, hold⟩
  have hx : x = ⟨⟨_, ⟨routeBy 1, 0⟩, _⟩, _⟩ := List.mem_singleton.mp hx
  exact absurd hold.earlier (by simp [hx])

theorem PooledProxy.carried_by_former :
    ∃ s q c t, Reach (· = {}) (When TransportStep Steady) s ∧ s.matched[1]? = some q ∧
      q.ctx.rc = some ⟨routeBy 2, 1⟩ ∧ routeOf s.table q.ctx.info = some ⟨routeBy 2, 1⟩ ∧
      TransportStep s (.request 1 .empty [] (some c)) t ∧ c.route = ⟨routeBy 1, 0⟩ ∧
      c.call = .conn 1 getRoot.remoteAddr := by
  have h := (.start rfl : Reach (· = {}) (When (TransportStep (F := Nat)) Steady) _)
    |>.next ⟨.register (routeBy 1) _ rfl, trivial⟩
    |>.next ⟨.serve getRoot _ (.inr rfl), trivial⟩
    |>.next ⟨.dial 0 .empty [] _ ⟨routeBy 1, 0⟩ _ rfl (by decide) (by simp) rfl, fun q hq => by cases hq; rfl⟩
    |>.next ⟨.finish _ [] [] rfl (by simp [maxIdleConnsPerHost]), trivial⟩
    |>.next ⟨.unRegister (routeBy 1), trivial⟩
    |>.next ⟨.register (routeBy 2) _ rfl, trivial⟩
    |>.next ⟨.serve getRoot _ (.inr rfl), trivial⟩
  refine ⟨_, _, _, _, h, rfl, rfl, rfl, .reuse 1 .empty [] _ _ [] [] rfl (by decide) rfl ?_ ?_, rfl, rfl⟩
  · exact Nat.zero_le _
  · rfl

end

end Frp
