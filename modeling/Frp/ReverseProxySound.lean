import Frp.ReverseProxy

/-!
# The reverse proxy keeps routes apart, up to a forged host

The pool key of a routed request is injective in the route and the endpoint. A request
without a route is pooled under its own `Host` header, which may spell the key of any route.
-/

namespace Frp

open Base64

/-! ## Pool keys -/

section
variable {F : Type}

theorem poolKey_inj {a b : RouteConfig F} {e e' : Str} (h : poolKey a e = poolKey b e') :
    a.domain = b.domain ∧ a.location = b.location ∧ a.routeByHTTPUser = b.routeByHTTPUser ∧ e = e' := by
  have reassoc : ∀ d x y z : Str, d ++ Str.dot :: (x ++ Str.dot :: (y ++ Str.dot :: z)) =
      ((d ++ Str.dot :: x) ++ Str.dot :: y) ++ Str.dot :: z := by simp
  unfold poolKey at h
  rw [reassoc, reassoc] at h
  obtain ⟨h, he⟩ := append_sep_inj (dot_not_mem_encode _) (dot_not_mem_encode _) h
  obtain ⟨h, hu⟩ := append_sep_inj (dot_not_mem_encode _) (dot_not_mem_encode _) h
  obtain ⟨hd, hl⟩ := append_sep_inj (dot_not_mem_encode _) (dot_not_mem_encode _) h
  exact ⟨hd, encode_injective hl, encode_injective hu, encode_injective he⟩

def SameRoute (c d : Context F) (i j : RequestRouteInfo) : Prop :=
  match c.rc, d.rc with
  | some a, some b => a.domain = b.domain ∧ a.location = b.location ∧
      a.routeByHTTPUser = b.routeByHTTPUser ∧ i.endpoint = j.endpoint
  | none, none => True
  | _, _ => False

def Spells (c d : Context F) (chosen : Str) (q : Request) : Prop :=
  ∃ rc, c.rc = some rc ∧ d.rc = none ∧ q.host = poolKey rc.toRouteConfig (endpointOf rc.toRouteConfig chosen)

variable {ctx : Context F}

theorem rewrite_routed {rc : Route F} (h : ctx.rc = some rc) (q : Request) (out : Header)
    (e : Str) : (rewrite ctx q out e).1.urlHost = poolKey rc.toRouteConfig (endpointOf rc.toRouteConfig e) := by
  simp [rewrite, h]

theorem rewrite_unrouted (h : ctx.rc = none) (q : Request) (out : Header) (e : Str) :
    (rewrite ctx q out e).1.urlHost = q.host := by
  simp [rewrite, h]

theorem rewrite_endpoint {rc : Route F} (h : ctx.rc = some rc) (h0 : ctx.info.endpoint = [])
    (q : Request) (out : Header) (e : Str) : (rewrite ctx q out e).2.endpoint = endpointOf rc.toRouteConfig e := by
  simp only [rewrite, h, endpointOf]
  split <;> simp [h0]

end

section
variable {F : Type} [UnicodeCase]

theorem serveHTTP_passed {tbl : Routers (Route F)} {q : Request} {ctx : Context F}
    (h : serveHTTP tbl q = .connect ctx ∨ serveHTTP tbl q = .proxied ctx) :
    ctx = injectRequestInfoToCtx tbl q ∧ checkRouteAuthByRequest q (ctx.rc.map (·.toRouteConfig)) = true := by
  by_cases hc : checkRouteAuthByRequest q ((injectRequestInfoToCtx tbl q).rc.map (·.toRouteConfig)) = true
  · have hx : ctx = injectRequestInfoToCtx tbl q := by
      by_cases hm : q.method = Request.connect <;> simpa [serveHTTP, hc, hm, eq_comm] using h
    exact ⟨hx, hx ▸ hc⟩
  · by_cases hu : q.urlHost = [] <;> simp [serveHTTP, hc, hu] at h

/-- Two requests pooled under one key are of one route and endpoint exactly when neither, having no
route, spells the key of the other's route in its `Host` header. -/
theorem pool_separates_iff (tbl : Routers (Route F)) (q₁ q₂ : Request) (c₁ c₂ : Context F) (o₁ o₂ : Header)
    (e₁ e₂ : Str) (h₁ : serveHTTP tbl q₁ = .proxied c₁) (h₂ : serveHTTP tbl q₂ = .proxied c₂) :
    ((rewrite c₁ q₁ o₁ e₁).1.urlHost = (rewrite c₂ q₂ o₂ e₂).1.urlHost →
      SameRoute c₁ c₂ (rewrite c₁ q₁ o₁ e₁).2 (rewrite c₂ q₂ o₂ e₂).2) ↔
    ¬ Spells c₁ c₂ e₁ q₂ ∧ ¬ Spells c₂ c₁ e₂ q₁ := by
  have i₁ : c₁.info.endpoint = [] := by rw [(serveHTTP_passed (.inr h₁)).1]; rfl
  have i₂ : c₂.info.endpoint = [] := by rw [(serveHTTP_passed (.inr h₂)).1]; rfl
  cases r₁ : c₁.rc with
  | none =>
    cases r₂ : c₂.rc with
    | none => simp [SameRoute, Spells, r₁, r₂]
    | some =>
      simp only [rewrite_unrouted r₁, rewrite_routed r₂, SameRoute, Spells, r₁, r₂]
      simp
  | some =>
    cases r₂ : c₂.rc with
    | none =>
      simp only [rewrite_unrouted r₂, rewrite_routed r₁, SameRoute, Spells, r₁, r₂]
      simp [eq_comm]
    | some =>
      simp only [rewrite_routed r₁, rewrite_routed r₂, rewrite_endpoint r₁ i₁, rewrite_endpoint r₂ i₂,
        SameRoute, Spells, r₁, r₂]
      simpa using poolKey_inj

end

/-! ### A guarded route and a forged host -/

section
attribute [local instance] UnicodeCase.ascii

def Request.get (host path : Str) (header : Header) : Request :=
  ⟨lit "GET", [], path, host, header, lit "192.0.2.1:5000", false⟩

def guarded : RouteConfig Unit :=
  ⟨lit "example.com", [], [], lit "alice", lit "secret", [], [], [], some (), none, none⟩

def guardedTable : Routers (Route Unit) := (register .new 0 guarded).getD .new

def loggedIn (path : Str) : Request := .get (lit "example.com") path
  (Header.empty.set (lit "Authorization") (basicAuth (lit "alice") (lit "secret")))

def forged : Request := .get (lit "example.com...") (lit "/") .empty

theorem pool_separates_logins : ∃ c₁ c₂ : Context Unit,
    serveHTTP guardedTable (loggedIn (lit "/a")) = .proxied c₁ ∧
    serveHTTP guardedTable (loggedIn (lit "/b")) = .proxied c₂ ∧
    (((rewrite c₁ (loggedIn (lit "/a")) .empty []).1.urlHost = (rewrite c₂ (loggedIn (lit "/b")) .empty []).1.urlHost →
      SameRoute c₁ c₂ (rewrite c₁ (loggedIn (lit "/a")) .empty []).2 (rewrite c₂ (loggedIn (lit "/b")) .empty []).2) ↔
      ¬ Spells c₁ c₂ [] (loggedIn (lit "/b")) ∧ ¬ Spells c₂ c₁ [] (loggedIn (lit "/a"))) :=
  ⟨_, _, rfl, rfl, pool_separates_iff guardedTable _ _ _ _ _ _ _ _ rfl rfl⟩

theorem forged_host_shares_pool : register .new 0 guarded = some guardedTable ∧ ∃ c₁ c₂ : Context Unit,
    serveHTTP guardedTable (loggedIn (lit "/")) = .proxied c₁ ∧ serveHTTP guardedTable forged = .proxied c₂ ∧
    c₁.rc = some ⟨guarded, 0⟩ ∧ c₂.rc = none ∧
    (rewrite c₁ (loggedIn (lit "/")) .empty []).1.urlHost = (rewrite c₂ forged .empty []).1.urlHost ∧
    ¬ SameRoute c₁ c₂ (rewrite c₁ (loggedIn (lit "/")) .empty []).2 (rewrite c₂ forged .empty []).2 :=
  ⟨rfl, _, _, rfl, rfl, rfl, rfl, rfl, id⟩

end

/-! ## The dialled route -/

section
variable {F : Type} [UnicodeCase]

def Proxy.DialsChecked (s : Proxy F) : Prop :=
  ∀ d ∈ s.dials, ∃ q, s.inflight[d.request]? = some q ∧ q.ctx.rc = some d.route ∧
    checkRouteAuthByRequest q.req (some d.route.toRouteConfig) = true

def Proxy.Keeps (s : Proxy F) (tbl : Routers (Route F)) : Prop :=
  ∀ q ∈ s.inflight, q.progress ≠ .finished → routeOf tbl q.ctx.info = routeOf s.table q.ctx.info

def Proxy.Steady (s : Proxy F) : ProxyEvent F → Prop
  | .register cfg => ∀ tbl, register s.table s.nextId cfg = some tbl → s.Keeps tbl
  | .unRegister cfg => s.Keeps (unRegister s.table cfg)
  | _ => True

structure Proxy.Inv (s : Proxy F) : Prop where
  passed : ∀ q ∈ s.inflight, checkRouteAuthByRequest q.req (q.ctx.rc.map (·.toRouteConfig)) = true
  routed : ∀ q ∈ s.inflight, q.progress ≠ .finished → routeOf s.table q.ctx.info = q.ctx.rc
  dials : ∀ d ∈ s.dials, ∃ q, s.inflight[d.request]? = some q ∧ q.ctx.rc = some d.route

theorem routeOf_rewrite (tbl : Routers (Route F)) (ctx : Context F) (q : Request) (out : Header) (e : Str) :
    routeOf tbl (rewrite ctx q out e).2 = routeOf tbl ctx.info := by
  cases hr : ctx.rc with
  | none => simp [rewrite, hr]
  | some =>
    simp only [rewrite, hr]
    split <;> rfl

theorem createConnection_route {tbl : Routers (Route F)} {info : RequestRouteInfo} {b : Bool} {rc : Route F}
    {c : Call F} (h : createConnection tbl info b = some (rc, c)) : routeOf tbl info = some rc := by
  unfold createConnection at h
  cases hr : routeOf tbl info with
  | none => simp [hr] at h
  | some =>
    simp only [hr, Option.bind_some, Option.map_eq_some_iff, Prod.mk.injEq] at h
    obtain ⟨_, -, rfl, -⟩ := h
    rfl

namespace Proxy.Inv

variable {s : Proxy F}

theorem table (hi : s.Inv) {tbl : Routers (Route F)} (n : Nat) (hk : s.Keeps tbl) :
    Inv { s with table := tbl, nextId := n } :=
  ⟨hi.passed, fun q hq hp => (hk q hq hp).trans (hi.routed q hq hp), hi.dials⟩

theorem checked (hi : s.Inv) {req : Request} {ctx : Context F} (p : Progress) (b : Bool)
    (h : serveHTTP s.table req = .connect ctx ∨ serveHTTP s.table req = .proxied ctx) :
    Inv { s with inflight := s.inflight ++ [⟨req, ctx, p, b⟩] } := by
  obtain ⟨hx, hc⟩ := serveHTTP_passed h
  refine ⟨fun q hq => ?_, fun q hq hp => ?_, fun d hd => ?_⟩
  · rcases List.mem_append.mp hq with hq | hq
    · exact hi.passed q hq
    · rw [List.mem_singleton.mp hq]; exact hc
  · rcases List.mem_append.mp hq with hq | hq
    · exact hi.routed q hq hp
    · rw [List.mem_singleton.mp hq, hx]; rfl
  · obtain ⟨q, hq, hr⟩ := hi.dials d hd
    exact ⟨q, by rw [List.getElem?_append_left (List.getElem?_eq_some_iff.mp hq).1, hq], hr⟩

theorem move (hi : s.Inv) {k : Nat} {q q' : Inflight F} (hq : s.inflight[k]? = some q) (hreq : q'.req = q.req)
    (hrc : q'.ctx.rc = q.ctx.rc) (hp : q'.progress ≠ .finished → q.progress ≠ .finished ∧
      routeOf s.table q'.ctx.info = routeOf s.table q.ctx.info) :
    Inv { s with inflight := s.inflight.set k q' } := by
  have hm := List.mem_of_getElem? hq
  refine ⟨fun x hx => ?_, fun x hx hxp => ?_, fun d hd => ?_⟩
  · rcases List.mem_or_eq_of_mem_set hx with hx | rfl
    · exact hi.passed x hx
    · rw [hreq, hrc]; exact hi.passed q hm
  · rcases List.mem_or_eq_of_mem_set hx with hx | rfl
    · exact hi.routed x hx hxp
    · rw [hrc, (hp hxp).2]; exact hi.routed q hm (hp hxp).1
  · obtain ⟨x, hx, hr⟩ := hi.dials d hd
    by_cases hk : d.request = k
    · rw [hk, hq] at hx; cases hx
      exact ⟨q', by simp [hk, (List.getElem?_eq_some_iff.mp hq).1], hrc.trans hr⟩
    · exact ⟨x, by rw [List.getElem?_set_ne (Ne.symm hk)]; exact hx, hr⟩

theorem dial (hi : s.Inv) {k : Nat} {q : Inflight F} {rc : Route F} {c : Call F} (hq : s.inflight[k]? = some q)
    (hp : q.progress = .dialling) (h : createConnection s.table q.ctx.info q.byEndpoint = some (rc, c)) :
    Inv { s with dials := s.dials ++ [⟨k, rc, c⟩] } := by
  refine ⟨hi.passed, hi.routed, fun d hd => ?_⟩
  rcases List.mem_append.mp hd with hd | hd
  · exact hi.dials d hd
  · rw [List.mem_singleton.mp hd]
    have hr := hi.routed q (List.mem_of_getElem? hq) (by simp [hp])
    exact ⟨q, hq, by rw [← hr, createConnection_route h]⟩

end Proxy.Inv

theorem ProxyStep.inv {s t : Proxy F} {e : ProxyEvent F} (h : When ProxyStep Proxy.Steady s e t) (hi : s.Inv) :
    t.Inv := by
  obtain ⟨h, hok⟩ := h
  cases h with
  | register hr => exact hi.table _ (hok _ hr)
  | conflict | denied | noRoute => exact hi
  | unRegister => exact hi.table _ hok
  | connect h => exact hi.checked _ _ (.inl h)
  | proxied h => exact hi.checked _ _ (.inr h)
  | rewrite out e hq hp => exact hi.move hq rfl rfl fun _ => ⟨by simp [hp], routeOf_rewrite _ _ _ _ _⟩
  | dial hq hp h => exact hi.dial hq hp h
  | finish hq => exact hi.move hq rfl rfl fun h => absurd rfl h

/-- If no registration changes where a request that can still dial is routed, each dial is made on
the route whose credentials were checked. -/
theorem dial_checked {s : Proxy F} (h : Reach Proxy.Init (When ProxyStep Proxy.Steady) s) : s.DialsChecked := by
  have hi : s.Inv := h.invariant (fun _ h0 => by subst h0; constructor <;> simp)
    fun _ _ _ _ hi hs => ProxyStep.inv hs hi
  intro d hd
  obtain ⟨q, hq, hr⟩ := hi.dials d hd
  have hc := hi.passed q (List.mem_of_getElem? hq)
  rw [hr] at hc; exact ⟨q, hq, hr, hc⟩

end

section
attribute [local instance] UnicodeCase.ascii

theorem late_route_dialled : ∃ s : Proxy Unit, Reach Proxy.Init ProxyStep s ∧ ¬ s.DialsChecked ∧
    ∃ d ∈ s.dials, d.route = ⟨guarded, 0⟩ ∧ ∃ q, s.inflight[d.request]? = some q ∧ presented q.req = none := by
  have h := (.start rfl : Reach Proxy.Init ProxyStep (⟨.new, 0, [], []⟩ : Proxy Unit))
    |>.next (@ProxyStep.proxied Unit _ _ (.get (lit "example.com") (lit "/") .empty) _ rfl)
    |>.next (.rewrite (k := 0) .empty [] rfl rfl)
    |>.next (@ProxyStep.register Unit _ _ guarded _ rfl)
    |>.next (.dial (k := 0) rfl rfl rfl)
  refine ⟨_, h, fun hd => ?_, _, List.mem_singleton_self _, rfl, _, rfl, rfl⟩
  obtain ⟨q, hq, hr, -⟩ := hd _ (List.mem_singleton_self _)
  cases hq
  cases hr

theorem dial_checked_login : ∃ s : Proxy Unit, Reach Proxy.Init (When ProxyStep Proxy.Steady) s ∧
    s.dials.length = 1 ∧ s.DialsChecked := by
  have h := (.start rfl : Reach Proxy.Init (When ProxyStep Proxy.Steady) (⟨.new, 0, [], []⟩ : Proxy Unit))
    |>.next ⟨@ProxyStep.register Unit _ _ guarded _ rfl, fun _ _ q hq => absurd hq (by simp)⟩
    |>.next ⟨@ProxyStep.proxied Unit _ _ (loggedIn (lit "/")) _ rfl, trivial⟩
    |>.next ⟨.rewrite (k := 0) .empty [] rfl rfl, trivial⟩
    |>.next ⟨.dial (k := 0) rfl rfl rfl, trivial⟩
  exact ⟨_, h, rfl, dial_checked h⟩

end

end Frp
