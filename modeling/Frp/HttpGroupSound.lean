import Frp.HttpGroup

/-!
# Credentials of group members

A request is checked against the route its group filed, which carries the first member's
user and password.
-/

namespace Frp

namespace HTTPProxy

def Agrees (pxy : HTTPProxy) (rt : Route GroupFn) : Prop :=
  (pxy.httpUser = [] ∧ pxy.httpPassword = []) ∨ (pxy.httpUser = rt.username ∧ pxy.httpPassword = rt.password)

end HTTPProxy

namespace GroupCtl

def Installed (s : GroupCtl) (g : Nat) (rt : Route GroupFn) : Prop :=
  rt.createConnFn = some (.createConn g) ∧ ∃ d u, ∃ vr ∈ s.routers.indexByDomain d u, vr.payload = rt

def Selects (s : GroupCtl) (g : Nat) (pxy : HTTPProxy) : Prop :=
  ∃ grp, s.heap[g]? = some grp ∧ (grp.createConn.2 = some (.getRealConn pxy) ∨
    ∃ endpoint, grp.createConnByEndpoint endpoint = some (.getRealConn pxy))

def Enforced (s : GroupCtl) : Prop :=
  ∀ g rt pxy (q : Request), s.Installed g rt → checkRouteAuthByRequest q (some rt.toRouteConfig) = true →
    s.Selects g pxy → checkRouteAuthByRequest q (some (pxy.routeConfig rt.domain rt.location)) = true

def Agreeing (s : GroupCtl) : GroupEvent → Prop
  | .register g pxy _ _ => ∀ grp rt, s.heap[g]? = some grp → grp.createFuncs ≠ [] → s.Installed g rt →
      pxy.Agrees rt
  | _ => True

end GroupCtl

open HTTPGroup Routers

/-! ## One call -/

theorem addMember_ok {g g' : HTTPGroup} {n : Str} {f : Option GroupFn} {tbl tbl' : Routers (Route GroupFn)}
    (h : (g.addMember n f).map (fun g => (tbl, g)) = .ok (tbl', g')) :
    g.createFuncs.lookup n = none ∧ tbl' = tbl ∧
      g' = { g with createFuncs := g.createFuncs ++ [(n, f)], pxyNames := g.pxyNames ++ [n] } := by
  unfold addMember at h
  split at h
  next => cases h
  next hn => cases h; exact ⟨Option.not_isSome_iff_eq_none.mp hn, rfl, rfl⟩

theorem createFunc_mem {g : HTTPGroup} {n : Str} {f : GroupFn} (h : g.createFunc n = some f) :
    (n, some f) ∈ g.createFuncs := by
  unfold createFunc at h
  cases hl : g.createFuncs.lookup n with
  | none => simp [hl] at h
  | some =>
    simp only [hl, Option.join_some] at h
    obtain ⟨l, r, hlr, -⟩ := List.lookup_eq_some_iff.mp hl
    simp [hlr, h]

theorem selects_mem {s : GroupCtl} {g : Nat} {pxy : HTTPProxy} (h : s.Selects g pxy) :
    ∃ grp n, s.heap[g]? = some grp ∧ (n, some (.getRealConn pxy)) ∈ grp.createFuncs := by
  obtain ⟨grp, hg, h | ⟨n, h⟩⟩ := h
  · simp only [createConn, Option.bind_eq_some_iff] at h
    obtain ⟨n, -, h⟩ := h
    exact ⟨grp, n, hg, createFunc_mem h⟩
  · exact ⟨grp, n, hg, createFunc_mem h⟩

/-! ## The check on the route and the check of the member -/

theorem checkRouteAuth_eq_true (q : Request) (rc : RouteConfig GroupFn) :
    checkRouteAuthByRequest q (some rc) = true ↔
      (rc.username = [] ∧ rc.password = []) ∨ presented q = some ⟨rc.username, rc.password⟩ := by
  unfold checkRouteAuthByRequest
  split <;> simp_all

attribute [local simp] HTTPProxy.routeConfig

theorem HTTPProxy.Agrees.check {pxy : HTTPProxy} {rt : Route GroupFn} (h : pxy.Agrees rt) {q : Request}
    (hq : checkRouteAuthByRequest q (some rt.toRouteConfig) = true) (domain location : Str) :
    checkRouteAuthByRequest q (some (pxy.routeConfig domain location)) = true := by
  rw [checkRouteAuth_eq_true] at hq ⊢
  rcases h with h | ⟨hu, hp⟩
  · exact .inl h
  · simpa [hu, hp] using hq

def Request.login (host : Str) (c : Credentials) : Request :=
  ⟨lit "GET", [], lit "/", host, Header.empty.set (lit "Authorization") (Frp.basicAuth c.username c.password),
    lit "192.0.2.1:5000", false⟩

theorem presented_login (host : Str) (c : Credentials) (hc : Str.colon ∉ c.username) :
    presented (.login host c) = some c := by
  have hg : (Request.login host c).header.get (lit "Authorization") = Frp.basicAuth c.username c.password :=
    Header.get_set ..
  have hne : Frp.basicAuth c.username c.password ≠ [] := by simp [Frp.basicAuth, basicPrefix, lit]
  simp only [presented, Request.basicAuth, hg, if_neg hne, parseBasicAuth_basicAuth _ _ hc]; rfl

/-! ## `Register` -/

attribute [local simp] HTTPGroup.register

section
variable [UnicodeCase]

variable {routers routers' : Routers (Route GroupFn)} {rc : RouteConfig GroupFn} {n group key : Str}

variable {g g' : HTTPGroup}

theorem register_result {cur : Bool} {self id : Nat}
    (h : g.register routers cur self id n group key rc = .ok (routers', g')) :
    (g.createFuncs = [] ∧ routers.add rc.domain rc.location rc.routeByHTTPUser
        (HTTPGroup.groupRoute self id rc) = some routers' ∧
      g' = { g with group := group, groupKey := key, domain := rc.domain, location := rc.location,
                    routeByHTTPUser := rc.routeByHTTPUser, createFuncs := [(n, rc.createConnFn)],
                    pxyNames := g.pxyNames ++ [n] }) ∨
    (g.createFuncs ≠ [] ∧ routers' = routers ∧ g.createFuncs.lookup n = none ∧ g.domain = rc.domain ∧
      g.location = rc.location ∧ g.routeByHTTPUser = rc.routeByHTTPUser ∧
      g' = { g with createFuncs := g.createFuncs ++ [(n, rc.createConnFn)], pxyNames := g.pxyNames ++ [n] }) := by
  cases cur with
  | false => simp at h
  | true =>
    by_cases he : g.createFuncs = []
    · cases ha : routers.add rc.domain rc.location rc.routeByHTTPUser (HTTPGroup.groupRoute self id rc) with
      | none => simp [he, ha] at h
      | some =>
        simp only [HTTPGroup.register, Bool.not_true, Bool.false_eq_true, he, ha, if_true, if_false] at h
        obtain ⟨-, rfl, rfl⟩ := addMember_ok h
        exact .inl ⟨he, rfl, by simp⟩
    · by_cases hp : g.group ≠ group ∨ g.domain ≠ rc.domain ∨ g.location ≠ rc.location ∨
          g.routeByHTTPUser ≠ rc.routeByHTTPUser
      · simp [he, hp] at h
      · by_cases hk : g.groupKey ≠ key
        · simp [he, hp, hk] at h
        · simp only [HTTPGroup.register, Bool.not_true, Bool.false_eq_true, he, hp, hk, if_false] at h
          obtain ⟨hn, rfl, rfl⟩ := addMember_ok h
          simp only [not_or, not_not] at hp
          exact .inr ⟨he, rfl, hn, hp.2.1, hp.2.2.1, hp.2.2.2, rfl⟩

theorem register_ok {cur : Bool} {self id : Nat}
    (h : g.register routers cur self id n group key rc = .ok (routers', g')) :
    g.createFuncs.lookup n = none ∧ g'.createFuncs = g.createFuncs ++ [(n, rc.createConnFn)] ∧ g'.domain = rc.domain ∧
      g'.location = rc.location ∧ g'.routeByHTTPUser = rc.routeByHTTPUser ∧
      ((g.createFuncs = [] ∧ routers.add rc.domain rc.location rc.routeByHTTPUser
          (groupRoute self id rc) = some routers') ∨
        (g.createFuncs ≠ [] ∧ routers' = routers ∧ g.domain = rc.domain ∧ g.location = rc.location ∧
          g.routeByHTTPUser = rc.routeByHTTPUser)) := by
  rcases register_result h with ⟨he, ha, rfl⟩ | ⟨hne, rfl, hn, hd, hl, hu, rfl⟩
  · exact ⟨by simp [he], by simp [he], rfl, rfl, rfl, .inl ⟨he, ha⟩⟩
  · exact ⟨hn, rfl, hd, hl, hu, .inr ⟨hne, rfl, hd, hl, hu⟩⟩

/-! ## The route of a group and its members -/

structure Owns (R : HTTPProxy → Route GroupFn → Prop) (grp : HTTPGroup) (rt : Route GroupFn) : Prop where
  nonempty : grp.createFuncs ≠ []
  domain : rt.domain = grp.domain
  location : rt.location = grp.location
  user : rt.routeByHTTPUser = grp.routeByHTTPUser
  members : ∀ n pxy, (n, some (.getRealConn pxy)) ∈ grp.createFuncs → R pxy rt

/-- `R` is a relation that holds between the first member and the route it files, and is kept
by those who join. -/
structure GroupCtl.Inv (R : HTTPProxy → Route GroupFn → Prop) (s : GroupCtl) : Prop where
  filed : ∀ (d u : Str), ∀ vr ∈ s.routers.indexByDomain d u,
    d = vr.payload.domain.toLower ∧ u = vr.payload.routeByHTTPUser ∧ vr.location = vr.payload.location
  owner : ∀ g rt, s.Installed g rt → ∃ grp, s.heap[g]? = some grp ∧ Owns R grp rt

namespace GroupCtl.Inv

variable {R : HTTPProxy → Route GroupFn → Prop} {s : GroupCtl}

theorem init (h : s.Init) : s.Inv R := by
  subst h; exact ⟨by simp [Routers.new], fun g rt h => by simp [Installed, Routers.new] at h⟩

theorem setGroup (hi : s.Inv R) {g : Nat} {grp grp' : HTTPGroup} (hg : s.heap[g]? = some grp)
    (n : Nat) (ho : ∀ rt, s.Installed g rt → Owns R grp rt → Owns R grp' rt) :
    Inv R { s with heap := s.heap.set g grp', nextRoute := n } := by
  refine ⟨hi.filed, fun g' rt hin => ?_⟩
  obtain ⟨x, hx, hw⟩ := hi.owner g' rt hin
  by_cases hgg : g = g'
  · subst hgg
    rw [hg] at hx; cases hx
    exact ⟨grp', by simp [(List.getElem?_eq_some_iff.mp hg).1], ho rt hin hw⟩
  · exact ⟨x, by simpa [List.getElem?_set_ne hgg] using hx, hw⟩

variable {heap : List HTTPGroup}

theorem delete (hi : s.Inv R) (domain location user : Str) {groups : Str → Option Nat}
    (ho : ∀ (g : Nat) (rt : Route GroupFn) (grp : HTTPGroup), s.heap[g]? = some grp → Owns R grp rt →
      heap[g]? = some grp ∨ grp.domain = domain ∧ grp.location = location ∧ grp.routeByHTTPUser = user) :
    Inv R { s with routers := s.routers.del domain location user, groups := groups, heap := heap } := by
  refine ⟨fun d u vr hv => hi.filed d u vr (mem_del.mp hv).1, fun g rt hin => ?_⟩
  obtain ⟨hf, d, u, vr, hv, rfl⟩ := hin
  rw [mem_del] at hv
  obtain ⟨grp, hg, hw⟩ := hi.owner g _ ⟨hf, d, u, vr, hv.1, rfl⟩
  rcases ho g _ grp hg hw with hh | ⟨h1, h2, h3⟩
  · exact ⟨grp, hh, hw⟩
  · obtain ⟨f1, f2, f3⟩ := hi.filed d u vr hv.1
    exact absurd ⟨by rw [f1, hw.domain, h1], by rw [f2, hw.user, h3], by rw [f3, hw.location, h2]⟩ hv.2

theorem fileRoute (hi : s.Inv R) (rt : Route GroupFn) {routers : Routers (Route GroupFn)}
    (n : Nat) (h : s.routers.add rt.domain rt.location rt.routeByHTTPUser rt = some routers)
    (hold : ∀ g rt', s.Installed g rt' → ∃ grp, heap[g]? = some grp ∧ Owns R grp rt')
    (hnew : ∀ g, rt.createConnFn = some (.createConn g) → ∃ grp, heap[g]? = some grp ∧ Owns R grp rt) :
    Inv R { s with routers := routers, heap := heap, nextRoute := n } := by
  refine ⟨fun d u vr hv => ?_, fun g rt' hin => ?_⟩
  · rcases (mem_add h).mp hv with hv | ⟨rfl, rfl, rfl⟩
    · exact hi.filed d u vr hv
    · exact ⟨rfl, rfl, rfl⟩
  · obtain ⟨hf, d, u, vr, hv, rfl⟩ := hin
    rcases (mem_add h).mp hv with hv | ⟨-, -, rfl⟩
    · exact hold g _ ⟨hf, d, u, vr, hv, rfl⟩
    · exact hnew g hf

end GroupCtl.Inv

theorem GroupStep.inv {R : HTTPProxy → Route GroupFn → Prop} {s t : GroupCtl} {e : GroupEvent}
    (hfirst : ∀ pxy g id domain location, R pxy (groupRoute g id (pxy.routeConfig domain location)))
    (hjoin : ∀ g pxy domain location, e = .register g pxy domain location → ∀ grp rt, s.heap[g]? = some grp →
      grp.createFuncs ≠ [] → s.Installed g rt → R pxy rt)
    (h : GroupStep s e t) (hi : s.Inv R) : t.Inv R := by
  cases h with
  | create =>
    refine ⟨hi.filed, fun g rt hin => ?_⟩
    obtain ⟨grp, hg, hw⟩ := hi.owner g rt hin
    exact ⟨grp, by rw [List.getElem?_append_left (List.getElem?_eq_some_iff.mp hg).1, hg], hw⟩
  | @register g grp pxy domain location routers grp' hg hr =>
    obtain ⟨-, hc, hd, hl, hu, ⟨he, ha⟩ | ⟨hne, rfl, hd', hl', hu'⟩⟩ := register_ok hr
    · have hlt := (List.getElem?_eq_some_iff.mp hg).1
      refine hi.fileRoute (groupRoute g s.nextRoute (pxy.routeConfig domain location)) _ ha (fun g' rt hin => ?_)
        (fun g' hf => ?_)
      · obtain ⟨x, hx, hw⟩ := hi.owner g' rt hin
        have hgg : g ≠ g' := by
          rintro rfl
          rw [hg] at hx; cases hx
          exact hw.nonempty he
        exact ⟨x, by rw [List.getElem?_set_ne hgg]; exact hx, hw⟩
      · cases hf
        refine ⟨grp', by simp [hlt], by simp [hc], hd.symm, hl.symm, hu.symm, fun n p hm => ?_⟩
        simp only [hc, he, List.nil_append, List.mem_singleton, Prod.mk.injEq] at hm
        cases hm.2; exact hfirst _ _ _ _ _
    · refine hi.setGroup hg _ fun rt hin hw => ?_
      refine ⟨by simp [hc], by rw [hw.domain, hd, hd'], by rw [hw.location, hl, hl'], by rw [hw.user, hu, hu'], ?_⟩
      intro n p hm
      simp only [hc, List.mem_append, List.mem_singleton, Prod.mk.injEq] at hm
      rcases hm with hm | ⟨-, hm⟩
      · exact hw.members n p hm
      · cases hm; exact hjoin g pxy domain location rfl grp rt hg hne hin
  | refused => exact hi
  | @unRegister g grp n hg =>
    unfold GroupCtl.unRegister
    by_cases he : (grp.dropMember n).createFuncs = []
    · simp only [he, if_true]
      refine hi.delete _ _ _ fun g' rt x hx _ => ?_
      by_cases hgg : g = g'
      · subst hgg
        rw [hg] at hx; cases hx
        exact .inr ⟨rfl, rfl, rfl⟩
      · exact .inl (by rw [List.getElem?_set_ne hgg]; exact hx)
    · simp only [he, if_false]
      refine hi.setGroup hg _ fun rt _ hw => ⟨he, hw.domain, hw.location, hw.user, fun m p hm => ?_⟩
      exact hw.members m p (List.mem_of_mem_filter hm)
  | createConn hg | chooseEndpoint hg => exact hi.setGroup hg _ fun rt _ hw => ⟨hw.1, hw.2, hw.3, hw.4, hw.5⟩
  | @registerRoute pxy domain location routers ha =>
    exact hi.fileRoute ⟨pxy.routeConfig domain location, s.nextRoute⟩ _ ha (fun g rt hin => hi.owner g rt hin)
      (fun g hf => by cases hf)
  | unRegisterRoute => exact hi.delete _ _ _ fun g rt grp hg _ => .inl hg

/-! ## Enforcement -/

/-- If whoever joins a group brings the user and password of its route, or none, a request that
passed the check of the route passes that of each member. -/
theorem group_credentials_enforced {s : GroupCtl} (h : Reach GroupCtl.Init (When GroupStep GroupCtl.Agreeing) s) :
    s.Enforced := by
  have hi : s.Inv HTTPProxy.Agrees := by
    refine h.invariant (fun _ h0 => .init h0) fun s e t _ hi hst => hst.1.inv (fun _ _ _ _ _ => .inr ⟨rfl, rfl⟩) ?_ hi
    rintro g pxy domain location rfl; exact hst.2
  intro g rt pxy q hin hq hsel
  obtain ⟨grp, n, hg, hm⟩ := selects_mem hsel
  obtain ⟨x, hx, hw⟩ := hi.owner g rt hin
  rw [hg] at hx; cases hx
  exact (hw.members n pxy hm).check hq _ _

/-- A member that disagrees with the route of the group it enters is selected for a request it would
refuse. -/
theorem disagreeing_member_exposed {s : GroupCtl} (h : Reach GroupCtl.Init GroupStep s) {g : Nat} {pxy : HTTPProxy}
    {domain location : Str} {grp grp' : HTTPGroup} {routers : Routers (Route GroupFn)} {rt : Route GroupFn}
    (hg : s.heap[g]? = some grp)
    (hr : grp.register s.routers (s.groups pxy.group = some g) g s.nextRoute pxy.name pxy.group pxy.groupKey
      (pxy.routeConfig domain location) = .ok (routers, grp'))
    (hin : s.Installed g rt) (hd : ¬ pxy.Agrees rt) (hc : Str.colon ∉ rt.username) :
    ¬ GroupCtl.Enforced { s with routers := routers, heap := s.heap.set g grp', nextRoute := s.nextRoute + 1 } := by
  have hi : s.Inv fun _ _ => True :=
    h.invariant (fun _ h0 => .init h0) fun _ _ _ _ hi hst => hst.inv (by simp) (by simp) hi
  obtain ⟨x, hx, hw⟩ := hi.owner g rt hin
  rw [hg] at hx; cases hx
  obtain ⟨hn, hcf, -, -, -, ⟨he, -⟩ | ⟨-, rfl, -⟩⟩ := register_ok hr
  · exact absurd he hw.nonempty
  intro henf
  have hsel : grp'.createConnByEndpoint pxy.name = some (.getRealConn pxy) := by
    simp [createConnByEndpoint, createFunc, hcf, List.lookup_append, hn]
  have hpres := presented_login [] ⟨rt.username, rt.password⟩ hc
  have := henf g rt pxy (.login [] ⟨rt.username, rt.password⟩) hin
    ((checkRouteAuth_eq_true _ _).mpr (.inr hpres))
    ⟨grp', by simp [(List.getElem?_eq_some_iff.mp hg).1], .inr ⟨_, hsel⟩⟩
  rw [checkRouteAuth_eq_true, hpres] at this
  exact hd (this.imp id fun h => by simpa [eq_comm] using h)

end

/-! ### Two members of one group -/

section
attribute [local instance] UnicodeCase.ascii

def webProxy (name httpUser httpPassword : Str) : HTTPProxy :=
  ⟨name, lit "web", lit "key", [], [], [], [], httpUser, httpPassword⟩

theorem open_group_exposes_member : ∃ s : GroupCtl, Reach GroupCtl.Init GroupStep s ∧ ¬ s.Enforced := by
  have h := (.start rfl : Reach GroupCtl.Init GroupStep ⟨fun _ => none, [], .new, 0⟩)
    |>.next (@GroupStep.create _ _ (lit "web") rfl)
    |>.next (@GroupStep.register _ _ 0 _ (webProxy (lit "a") [] []) (lit "example.com") [] _ _ rfl rfl)
    |>.next (@GroupStep.register _ _ 0 _ (webProxy (lit "b") (lit "alice") (lit "secret"))
      (lit "example.com") [] _ _ rfl rfl)
  refine ⟨_, h, fun he => ?_⟩
  have := he 0 _ (webProxy (lit "b") (lit "alice") (lit "secret"))
    ⟨lit "GET", [], lit "/", lit "example.com", .empty, [], false⟩
    ⟨rfl, lit "example.com", [], _, List.mem_singleton_self _, rfl⟩ rfl ⟨_, rfl, .inr ⟨lit "b", rfl⟩⟩
  exact absurd this (by decide)

theorem guarded_group_enforced : ∃ s : GroupCtl, Reach GroupCtl.Init (When GroupStep GroupCtl.Agreeing) s ∧
    s.Selects 0 (webProxy (lit "a") (lit "alice") (lit "secret")) ∧ s.Selects 0 (webProxy (lit "b") [] []) ∧
    s.Enforced := by
  have h := (.start rfl : Reach GroupCtl.Init (When GroupStep GroupCtl.Agreeing) ⟨fun _ => none, [], .new, 0⟩)
    |>.next ⟨@GroupStep.create _ _ (lit "web") rfl, trivial⟩
    |>.next ⟨@GroupStep.register _ _ 0 _ (webProxy (lit "a") (lit "alice") (lit "secret"))
      (lit "example.com") [] _ _ rfl rfl, fun _ _ hg hne _ => absurd rfl (Option.some.inj hg ▸ hne)⟩
    |>.next ⟨@GroupStep.register _ _ 0 _ (webProxy (lit "b") [] []) (lit "example.com") [] _ _ rfl rfl,
      fun _ _ _ _ _ => .inl ⟨rfl, rfl⟩⟩
  exact ⟨_, h, ⟨_, rfl, .inr ⟨lit "a", rfl⟩⟩, ⟨_, rfl, .inr ⟨lit "b", rfl⟩⟩, group_credentials_enforced h⟩

end

end Frp
