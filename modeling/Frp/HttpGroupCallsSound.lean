import Frp.HttpGroupCalls
import Frp.HttpGroupUndo
import Frp.RoutersSound
import Frp.Slots

/-!
# Members of HTTP groups

The members of a group are the proxies that have registered and not yet left, and its route
is in the table as long as there is one.
-/

namespace Frp

open Function Routers

/-! ## The routes of the calls -/

theorem Routers.Represents.unique {P : Type} {r : Routers P} {T : RouteTable P} (h : r.Represents T) {d u : Str}
    {vr vr' : Router P} (hv : vr ∈ r.indexByDomain d u) (hv' : vr' ∈ r.indexByDomain d u)
    (hl : vr.location = vr'.location) : vr = vr' := by
  obtain ⟨hd, hu, hT⟩ := (h.mem d u vr).mp hv
  obtain ⟨hd', hu', hT'⟩ := (h.mem d u vr').mp hv'
  rw [hl, hT'] at hT; cases vr
  cases vr'
  simp_all

section
variable [UnicodeCase]

theorem register_current {routers routers' : Routers (Route GroupFn)} {cur : Bool} {self id : Nat} {g g' : HTTPGroup}
    {n group key : Str} {rc : RouteConfig GroupFn}
    (h : g.register routers cur self id n group key rc = .ok (routers', g')) :
    cur = true ∧ (g.createFuncs ≠ [] → g.group = group ∧ g.groupKey = key) := by
  unfold HTTPGroup.register at h
  cases cur with
  | false => cases h
  | true =>
    refine ⟨rfl, fun he => ?_⟩
    simp only [Bool.not_true, Bool.false_eq_true, he, if_false] at h
    split_ifs at h with hp hk
    simp only [not_or, not_not] at hp hk; exact ⟨hp.1, hk⟩

def GroupCtl.RouteOf (s : GroupCtl) (g : Nat) (grp : HTTPGroup) : Prop :=
  ∃ vr ∈ s.routers.indexByDomain grp.domain.toLower grp.routeByHTTPUser,
    vr.location = grp.location ∧ vr.payload.createConnFn = some (.createConn g)

def GroupCtl.OwnRoute (s : GroupCtl) (c : GroupCall) : Prop :=
  ∃ vr ∈ s.routers.indexByDomain c.domain.toLower c.pxy.routeByHTTPUser,
    vr.location = c.location ∧ ∀ g, vr.payload.createConnFn ≠ some (.createConn g)

end

structure GroupCall.In (c : GroupCall) (grp : HTTPGroup) : Prop where
  name : c.pxy.name ∈ grp.pxyNames
  group : grp.group = c.pxy.group
  groupKey : grp.groupKey = c.pxy.groupKey
  domain : grp.domain = c.domain
  location : grp.location = c.location
  user : grp.routeByHTTPUser = c.pxy.routeByHTTPUser

def CallPc.Member : CallPc → Prop
  | .joined | .leaving _ => True
  | _ => False

def CallPc.Busy (p : CallPc) : Prop := p.Member ∨ p = .routed

section
variable {pc : Nat → CallPc} {i j : Nat} {p q : CallPc}

theorem of_update_eq (h : update pc i p j = q) (hne : p ≠ q) : j ≠ i ∧ pc j = q :=
  (update_cases (· = q) h).resolve_left fun h => hne h.2

theorem mem_gone (h : (update pc i .gone j).Member) : j ≠ i ∧ (pc j).Member :=
  (update_cases CallPc.Member h).resolve_left And.right

theorem CallPc.Member.update (h : (pc j).Member) (hi : ¬ (pc i).Member ∨ j ≠ i ∨ p.Member) :
    (Function.update pc i p j).Member := by
  by_cases hji : j = i
  · rw [hji, Function.update_self]
    rcases hi with hi | hi | hi
    · exact absurd (hji ▸ h) hi
    · exact absurd hji hi
    · exact hi
  · rwa [Function.update_of_ne hji]

end

/-! ## The invariant -/

section
variable [UnicodeCase] (calls : Nat → GroupCall)

structure GroupWorld.Inv (s : GroupWorld) : Prop where
  shape : s.ctl.Shape
  table : ∃ T, s.ctl.routers.Represents T
  member : ∀ i, (s.pc i).Member → ∃ g grp, s.ctl.groups (calls i).pxy.group = some g ∧ s.ctl.heap[g]? = some grp ∧
    (calls i).In grp
  leaving : ∀ i g, s.pc i = .leaving g → s.ctl.groups (calls i).pxy.group = some g
  distinct : ∀ i j, (s.pc i).Member → (s.pc j).Member → (calls i).pxy.group = (calls j).pxy.group →
    (calls i).pxy.name = (calls j).pxy.name → i = j
  caller : ∀ (g : Nat) (grp : HTTPGroup) (n : Str), s.ctl.heap[g]? = some grp → n ∈ grp.pxyNames →
    ∃ i, (s.pc i).Member ∧ (calls i).pxy.name = n ∧ s.ctl.groups (calls i).pxy.group = some g
  route : ∀ (g : Nat) (grp : HTTPGroup), s.ctl.heap[g]? = some grp → grp.pxyNames ≠ [] → s.ctl.RouteOf g grp
  ownRoute : ∀ i, s.pc i = .routed → s.ctl.OwnRoute (calls i)
  ownDistinct : ∀ i j, s.pc i = .routed → s.pc j = .routed → (calls i).domain.toLower = (calls j).domain.toLower →
    (calls i).pxy.routeByHTTPUser = (calls j).pxy.routeByHTTPUser → (calls i).location = (calls j).location → i = j

end

namespace GroupWorld.Inv

section
variable [UnicodeCase] {calls : Nat → GroupCall} {s : GroupWorld}

theorem init (h : s.Init) : s.Inv calls := by
  cases s
  obtain ⟨rfl, hp, -⟩ := h
  obtain rfl := funext hp
  exact ⟨.init rfl, ⟨_, .new⟩, nofun, nofun, nofun, nofun, nofun, nofun, nofun⟩

variable {g i : Nat} {grp : HTTPGroup} (hi : s.Inv calls)
include hi

theorem setPc {p : CallPc} (hmem : p.Member = (s.pc i).Member) (hne : p ≠ .routed)
    (hleaving : ∀ g, p = .leaving g → s.ctl.groups (calls i).pxy.group = some g) :
    Inv calls { s with pc := update s.pc i p } := by
  have hm := update_same CallPc.Member hmem
  have hrouted : ∀ j, update s.pc i p j = .routed → s.pc j = .routed := fun j hj => (of_update_eq hj hne).2
  refine ⟨hi.shape, hi.table, fun j hj => hi.member j (hm j ▸ hj), fun j g hj => ?_,
    fun j k hj hk => hi.distinct j k (hm j ▸ hj) (hm k ▸ hk), fun g grp n hg hn => ?_, hi.route,
    fun j hj => hi.ownRoute j (hrouted j hj), fun j k hj hk => hi.ownDistinct j k (hrouted j hj) (hrouted k hk)⟩
  · rcases update_cases (· = _) hj with ⟨rfl, hp⟩ | ⟨-, hj⟩
    · exact hleaving g hp
    · exact hi.leaving j g hj
  · obtain ⟨j, hmj, hj⟩ := hi.caller g grp n hg hn
    exact ⟨j, (hm j).symm ▸ hmj, hj⟩

theorem quiet {p : CallPc} (h : ¬ (s.pc i).Busy) (hp : ¬ p.Busy) : Inv calls { s with pc := update s.pc i p } := by
  refine hi.setPc (propext (iff_of_false (fun hm => hp (.inl hm)) fun hm => h (.inl hm))) (fun hr => hp (.inr hr)) ?_
  rintro g rfl; exact absurd (.inl trivial) hp

theorem create {group : Str} (hnone : s.ctl.groups group = none) : Inv calls { s with ctl := { s.ctl with
      groups := update s.ctl.groups group (some s.ctl.heap.length), heap := s.ctl.heap ++ [.new] } } := by
  have hgroups : ∀ key g, s.ctl.groups key = some g →
      update s.ctl.groups group (some s.ctl.heap.length) key = some g := by
    intro key g hk
    rw [update_of_ne]
    · exact hk
    · rintro rfl
      rw [hnone] at hk; cases hk
  have hheap : ∀ (g : Nat) (grp : HTTPGroup) (n : Str), (s.ctl.heap ++ [.new])[g]? = some grp → n ∈ grp.pxyNames →
      s.ctl.heap[g]? = some grp := by
    intro g grp n hg hn
    rcases getElem?_append_singleton_iff.mp hg with ⟨-, h⟩ | ⟨-, rfl⟩
    · exact h
    · cases hn
  refine ⟨hi.shape.create group, hi.table, fun i hm => ?_, fun i g hl => hgroups _ _ (hi.leaving i g hl), hi.distinct,
    fun g grp n hg hn => ?_, fun g grp hg hne => ?_, hi.ownRoute, hi.ownDistinct⟩
  · obtain ⟨g, grp, hk, hg, hin⟩ := hi.member i hm
    exact ⟨g, grp, hgroups _ _ hk,
      getElem?_append_old hg, hin⟩
  · obtain ⟨i, hm, hname, hk⟩ := hi.caller g grp n (hheap g grp n hg hn) hn
    exact ⟨i, hm, hname, hgroups _ _ hk⟩
  · obtain ⟨n, hn⟩ := List.exists_mem_of_ne_nil _ hne
    exact hi.route g grp (hheap g grp n hg hn) hne

theorem get (hpc : s.pc i = .joined) (hk : s.ctl.groups (calls i).pxy.group = some g) :
    Inv calls { s with pc := update s.pc i (.leaving g) } := by
  refine hi.setPc (by rw [hpc]; rfl) nofun fun x hx => ?_
  cases hx; exact hk

variable {routers : Routers (Route GroupFn)}

theorem routed (hpc : ¬ (s.pc i).Busy) (ha : Frp.register s.ctl.routers s.ctl.nextRoute
      ((calls i).pxy.routeConfig (calls i).domain (calls i).location) = some routers)
    (hshape : GroupCtl.Shape { s.ctl with routers := routers, nextRoute := s.ctl.nextRoute + 1 }) :
    Inv calls { s with
      ctl := { s.ctl with routers := routers, nextRoute := s.ctl.nextRoute + 1 }
      pc := update s.pc i .routed } := by
  obtain ⟨T, hT⟩ := hi.table
  have hmono : ∀ d u, ∀ vr ∈ s.ctl.routers.indexByDomain d u, vr ∈ routers.indexByDomain d u :=
    fun d u vr hv => (mem_add ha).mpr (.inl hv)
  have hmem : ∀ j, (update s.pc i .routed j).Member → (s.pc j).Member := fun j hj =>
    (update_cases CallPc.Member hj).elim (fun hj => hj.2.elim) And.right
  have hrouted : ∀ j, update s.pc i .routed j = .routed → j = i ∨ s.pc j = .routed := fun j hj =>
    (update_cases (· = _) hj).imp And.left And.right
  -- `Add` would have refused the place of a route that is there
  have hfree : ∀ j, s.pc j = .routed → (calls i).domain.toLower = (calls j).domain.toLower →
      (calls i).pxy.routeByHTTPUser = (calls j).pxy.routeByHTTPUser → (calls i).location ≠ (calls j).location := by
    intro j hj hd hu hl
    obtain ⟨vr, hv, hvl, -⟩ := hi.ownRoute j hj
    rw [← hd, ← hu] at hv; exact (add_eq_some ha).1 vr hv (hvl.trans hl.symm)
  refine ⟨hshape, ⟨_, hT.add ha⟩, fun j hj => hi.member j (hmem j hj), fun j g hj => hi.leaving j g ?_,
    fun j k hj hk => hi.distinct j k (hmem j hj) (hmem k hk), fun g grp n hg hn => ?_, fun g grp hg hne => ?_,
    fun j hj => ?_, fun j k hj hk hd hu hl => ?_⟩
  · exact (of_update_eq hj (by simp)).2
  · obtain ⟨j, hm, hj⟩ := hi.caller g grp n hg hn
    exact ⟨j, hm.update (.inl fun hm' => hpc (.inl hm')), hj⟩
  · obtain ⟨vr, hv, h⟩ := hi.route g grp hg hne
    exact ⟨vr, hmono _ _ vr hv, h⟩
  · rcases hrouted j hj with rfl | hj
    · exact ⟨_, (mem_add ha).mpr (.inr ⟨rfl, rfl, rfl⟩), rfl, fun g h => by cases h⟩
    · obtain ⟨vr, hv, h⟩ := hi.ownRoute j hj
      exact ⟨vr, hmono _ _ vr hv, h⟩
  · rcases hrouted j hj with rfl | hj' <;> rcases hrouted k hk with rfl | hk'
    · rfl
    · exact absurd hl (hfree k hk' hd hu)
    · exact absurd hl.symm (hfree j hj' hd.symm hu.symm)
    · exact hi.ownDistinct j k hj' hk' hd hu hl

theorem unRouted (hpc : s.pc i = .routed) (hshape : GroupCtl.Shape { s.ctl with
      routers := Frp.unRegister s.ctl.routers ((calls i).pxy.routeConfig (calls i).domain (calls i).location) }) :
    Inv calls { s with
      ctl := { s.ctl with
        routers := Frp.unRegister s.ctl.routers ((calls i).pxy.routeConfig (calls i).domain (calls i).location) }
      pc := update s.pc i .gone } := by
  obtain ⟨T, hT⟩ := hi.table
  obtain ⟨vr, hv, hvl, hvf⟩ := hi.ownRoute i hpc
  refine ⟨hshape, ⟨_, hT.del ..⟩, fun j hj => hi.member j (mem_gone hj).2,
    fun j g hj => hi.leaving j g (of_update_eq hj (by simp)).2,
    fun j k hj hk => hi.distinct j k (mem_gone hj).2 (mem_gone hk).2, fun g grp n hg hn => ?_, fun g grp hg hne => ?_,
    fun j hj => ?_, fun j k hj hk => hi.ownDistinct j k (of_update_eq hj (by simp)).2 (of_update_eq hk (by simp)).2⟩
  · obtain ⟨j, hm, hj⟩ := hi.caller g grp n hg hn
    refine ⟨j, hm.update (.inl fun hm' => ?_), hj⟩
    rw [hpc] at hm'; exact hm'
  · obtain ⟨vr', hv', hl', hf'⟩ := hi.route g grp hg hne
    refine ⟨vr', mem_del.mpr ⟨hv', ?_⟩, hl', hf'⟩
    rintro ⟨hd, hu, hl⟩
    rw [hd, hu] at hv'
    rw [hT.unique hv' hv (hl.trans hvl.symm)] at hf'; exact hvf g hf'
  · obtain ⟨hji, hj⟩ := of_update_eq hj (by simp)
    obtain ⟨vr', hv', hl', hf'⟩ := hi.ownRoute j hj
    refine ⟨vr', mem_del.mpr ⟨hv', ?_⟩, hl', hf'⟩
    rintro ⟨hd, hu, hl⟩
    exact hji (hi.ownDistinct j i hj hpc hd hu (hl'.symm.trans hl))

theorem caller_other {x : Nat} {y : HTTPGroup} {n : Str} (hk : s.ctl.groups (calls i).pxy.group = some g)
    (hxg : x ≠ g) (hx : s.ctl.heap[x]? = some y) (hn : n ∈ y.pxyNames) :
    ∃ j, j ≠ i ∧ (s.pc j).Member ∧ (calls j).pxy.name = n ∧ s.ctl.groups (calls j).pxy.group = some x := by
  obtain ⟨j, hm, hname, hj⟩ := hi.caller x y n hx hn
  refine ⟨j, ?_, hm, hname, hj⟩
  rintro rfl
  rw [hk] at hj; exact hxg (Option.some.inj hj).symm

variable (hg : s.ctl.heap[g]? = some grp)
include hg

theorem current (hne : grp.pxyNames ≠ []) : s.ctl.groups grp.group = some g := by
  obtain ⟨n, hn⟩ := List.exists_mem_of_ne_nil _ hne
  obtain ⟨i, hm, -, hgrp⟩ := hi.caller g grp n hg hn
  obtain ⟨g', grp', hg', hh, hin⟩ := hi.member i hm
  rw [hgrp] at hg'; cases hg'
  rw [hg] at hh; cases hh
  rw [hin.group]; exact hgrp

theorem in_of_groups (hm : (s.pc i).Member)
    (hk : s.ctl.groups (calls i).pxy.group = some g) : (calls i).In grp := by
  obtain ⟨g', grp', hg', hh, hin⟩ := hi.member i hm
  rw [hk] at hg'; cases hg'
  rw [hg] at hh; cases hh
  exact hin

variable {grp' : HTTPGroup}

theorem member_set (hm : (s.pc i).Member)
    (hin : s.ctl.groups (calls i).pxy.group = some g → (calls i).In grp → (calls i).In grp') :
    ∃ x y, s.ctl.groups (calls i).pxy.group = some x ∧ (s.ctl.heap.set g grp')[x]? = some y ∧ (calls i).In y := by
  obtain ⟨x, y, hkx, hx, hxin⟩ := hi.member i hm
  by_cases hxg : x = g
  · subst hxg
    rw [hg] at hx; cases hx
    exact ⟨x, grp', hkx, (getElem?_set_iff hg).mpr (.inl ⟨rfl, rfl⟩), hin hkx hxin⟩
  · exact ⟨x, y, hkx, (getElem?_set_iff hg).mpr (.inr ⟨hxg, hx⟩), hxin⟩

theorem join
    (hpc : ¬ (s.pc i).Busy) (hk : s.ctl.groups (calls i).pxy.group = some g) (hshape : GroupCtl.Shape { s.ctl with
      routers := routers, heap := s.ctl.heap.set g grp', nextRoute := s.ctl.nextRoute + 1 })
    (htable : ∃ T, routers.Represents T)
    (hroutes : ∀ d u, ∀ vr ∈ s.ctl.routers.indexByDomain d u, vr ∈ routers.indexByDomain d u)
    (hroute : GroupCtl.RouteOf { s.ctl with routers := routers } g grp')
    (hnew : (calls i).pxy.name ∉ grp.pxyNames) (hnames : grp'.pxyNames = grp.pxyNames ++ [(calls i).pxy.name])
    (hin : (calls i).In grp') (hold : ∀ c : GroupCall, c.In grp → c.In grp') :
    Inv calls { s with
      ctl := { s.ctl with routers := routers, heap := s.ctl.heap.set g grp', nextRoute := s.ctl.nextRoute + 1 }
      pc := update s.pc i .joined } := by
  have hrouted : ∀ j, update s.pc i .joined j = .routed → s.pc j = .routed := fun j hj =>
    (of_update_eq hj (by simp)).2
  have hfresh : ∀ j, (s.pc j).Member → (calls i).pxy.group = (calls j).pxy.group →
      (calls i).pxy.name ≠ (calls j).pxy.name := by
    intro j hm hgrp hname
    have hj := hi.in_of_groups hg hm (by rw [← hgrp]; exact hk)
    exact hnew (hname ▸ hj.name)
  refine ⟨hshape, htable, fun j hj => ?_, fun j x hj => ?_, fun j k hj hk' hgrp hname => ?_, fun x y n hx hn => ?_,
    fun x y hx hne => ?_, fun j hj => ?_, fun j k hj hk' => hi.ownDistinct j k (hrouted j hj) (hrouted k hk')⟩
  · rcases update_cases CallPc.Member hj with ⟨rfl, -⟩ | ⟨-, hm⟩
    · exact ⟨g, grp', hk, (getElem?_set_iff hg).mpr (.inl ⟨rfl, rfl⟩), hin⟩
    · exact hi.member_set hg hm fun _ => hold _
  · exact hi.leaving j x (of_update_eq hj (by simp)).2
  · rcases update_cases CallPc.Member hj with ⟨rfl, -⟩ | ⟨-, hmj⟩ <;>
      rcases update_cases CallPc.Member hk' with ⟨rfl, -⟩ | ⟨-, hmk⟩
    · rfl
    · exact absurd hname (hfresh k hmk hgrp)
    · exact absurd hname.symm (hfresh j hmj hgrp.symm)
    · exact hi.distinct j k hmj hmk hgrp hname
  · have hsome : ∀ j, (s.pc j).Member → (update s.pc i .joined j).Member := fun j hm =>
      hm.update (.inr (.inr trivial))
    rcases (getElem?_set_iff hg).mp hx with ⟨rfl, rfl⟩ | ⟨-, hx⟩
    · rw [hnames, List.mem_append, List.mem_singleton] at hn
      rcases hn with hn | rfl
      · obtain ⟨j, hm, hj⟩ := hi.caller x grp n hg hn
        exact ⟨j, hsome j hm, hj⟩
      · exact ⟨i, by show (update s.pc i .joined i).Member; rw [update_self]; trivial, rfl, hk⟩
    · obtain ⟨j, hm, hj⟩ := hi.caller x y n hx hn
      exact ⟨j, hsome j hm, hj⟩
  · rcases (getElem?_set_iff hg).mp hx with ⟨rfl, rfl⟩ | ⟨-, hx⟩
    · exact hroute
    · obtain ⟨vr, hv, h⟩ := hi.route x y hx hne
      exact ⟨vr, hroutes _ _ vr hv, h⟩
  · obtain ⟨vr, hv, h⟩ := hi.ownRoute j (hrouted j hj)
    exact ⟨vr, hroutes _ _ vr hv, h⟩

theorem others {j : Nat} (hm : (s.pc i).Member) (hk : s.ctl.groups (calls i).pxy.group = some g) (hji : j ≠ i)
    (hj : (s.pc j).Member) (hkj : s.ctl.groups (calls j).pxy.group = some g) :
    (calls j).In (grp.dropMember (calls i).pxy.name) := by
  have hin := hi.in_of_groups hg hj hkj
  have hne : (calls j).pxy.name ≠ (calls i).pxy.name := fun h =>
    hji (hi.distinct j i hj hm (hi.shape.inj _ _ g hkj hk) h)
  exact { hin with name := (List.mem_erase_of_ne hne).mpr hin.name }

theorem caller_drop {n : Str} (hn : n ∈ (grp.dropMember (calls i).pxy.name).pxyNames) :
    ∃ j, (update s.pc i .gone j).Member ∧ (calls j).pxy.name = n ∧ s.ctl.groups (calls j).pxy.group = some g := by
  have hmem := (hi.shape.names g grp hg).2.mem_erase_iff.mp hn
  obtain ⟨j, hm, hname, hj⟩ := hi.caller g grp n hg hmem.2
  have hji : j ≠ i := by rintro rfl; exact hmem.1 hname.symm
  exact ⟨j, hm.update (.inr (.inl hji)), hname, hj⟩

theorem leave (hpc : s.pc i = .leaving g)
    (hshape : GroupCtl.Shape { s.ctl with heap := s.ctl.heap.set g (grp.dropMember (calls i).pxy.name) }) :
    Inv calls { s with
      ctl := { s.ctl with heap := s.ctl.heap.set g (grp.dropMember (calls i).pxy.name) }
      pc := update s.pc i .gone } := by
  have hm : (s.pc i).Member := by rw [hpc]; trivial
  have hk := hi.leaving i g hpc
  refine ⟨hshape, hi.table, fun j hj => ?_, fun j x hj => hi.leaving j x (of_update_eq hj (by simp)).2,
    fun j k hj hk' => hi.distinct j k (mem_gone hj).2 (mem_gone hk').2, fun x y n hx hn => ?_, fun x y hx hney => ?_,
    fun j hj => hi.ownRoute j (of_update_eq hj (by simp)).2,
    fun j k hj hk' => hi.ownDistinct j k (of_update_eq hj (by simp)).2 (of_update_eq hk' (by simp)).2⟩
  · obtain ⟨hji, hmj⟩ := mem_gone hj
    exact hi.member_set hg hmj fun hkj _ => hi.others hg hm hk hji hmj hkj
  · rcases (getElem?_set_iff hg).mp hx with ⟨rfl, rfl⟩ | ⟨hxg, hx⟩
    · exact hi.caller_drop hg hn
    · obtain ⟨j, hji, hmj, hname, hj⟩ := hi.caller_other hk hxg hx hn
      exact ⟨j, hmj.update (.inr (.inl hji)), hname, hj⟩
  · rcases (getElem?_set_iff hg).mp hx with ⟨rfl, rfl⟩ | ⟨-, hx⟩
    · exact hi.route x grp hg (List.ne_nil_of_mem (hi.in_of_groups hg hm hk).name)
    · exact hi.route x y hx hney

theorem leave_last (hpc : s.pc i = .leaving g) (hnil : (grp.dropMember (calls i).pxy.name).pxyNames = [])
    (hshape : GroupCtl.Shape { s.ctl with
      routers := s.ctl.routers.del grp.domain grp.location grp.routeByHTTPUser
      heap := s.ctl.heap.set g (grp.dropMember (calls i).pxy.name)
      groups := update s.ctl.groups grp.group none }) :
    Inv calls { s with
      ctl := { s.ctl with
        routers := s.ctl.routers.del grp.domain grp.location grp.routeByHTTPUser
        heap := s.ctl.heap.set g (grp.dropMember (calls i).pxy.name)
        groups := update s.ctl.groups grp.group none }
      pc := update s.pc i .gone } := by
  have hm : (s.pc i).Member := by rw [hpc]; trivial
  have hk := hi.leaving i g hpc
  have hin := hi.in_of_groups hg hm hk
  obtain ⟨T, hT⟩ := hi.table
  obtain ⟨vr, hv, hvl, hvf⟩ := hi.route g grp hg (List.ne_nil_of_mem hin.name)
  -- who is left is in another group, so under another name
  have hother : ∀ j x, j ≠ i → (s.pc j).Member → s.ctl.groups (calls j).pxy.group = some x →
      x ≠ g ∧ update s.ctl.groups grp.group none (calls j).pxy.group = some x := by
    intro j x hji hmj hkx
    have hxg : x ≠ g := by
      rintro rfl
      have := (hi.others hg hm hk hji hmj hkx).name
      rw [hnil] at this; cases this
    refine ⟨hxg, ?_⟩
    rw [update_of_ne]
    · exact hkx
    · rintro hgrp
      rw [hgrp, hin.group, hk] at hkx; exact hxg (Option.some.inj hkx).symm
  -- a route that is not the group's is not at its place
  have hkeep : ∀ d u (vr' : Router (Route GroupFn)), vr' ∈ s.ctl.routers.indexByDomain d u →
      vr'.payload.createConnFn ≠ some (.createConn g) →
      vr' ∈ (s.ctl.routers.del grp.domain grp.location grp.routeByHTTPUser).indexByDomain d u := by
    intro d u vr' hv' hne
    rw [mem_del]
    refine ⟨hv', ?_⟩
    rintro ⟨rfl, rfl, hl⟩
    rw [hT.unique hv' hv (hl.trans hvl.symm)] at hne; exact hne hvf
  refine ⟨hshape, ⟨_, hT.del ..⟩, fun j hj => ?_, fun j x hj => ?_,
    fun j k hj hk' => hi.distinct j k (mem_gone hj).2 (mem_gone hk').2, fun x y n hx hn => ?_, fun x y hx hney => ?_,
    fun j hj => ?_, fun j k hj hk' => hi.ownDistinct j k (of_update_eq hj (by simp)).2 (of_update_eq hk' (by simp)).2⟩
  · obtain ⟨hji, hmj⟩ := mem_gone hj
    obtain ⟨x, y, hkx, hx, hjin⟩ := hi.member j hmj
    obtain ⟨hxg, hkx'⟩ := hother j x hji hmj hkx
    exact ⟨x, y, hkx', (getElem?_set_iff hg).mpr (.inr ⟨hxg, hx⟩), hjin⟩
  · obtain ⟨hji, hj⟩ := of_update_eq hj (by simp)
    exact (hother j x hji (by rw [hj]; trivial) (hi.leaving j x hj)).2
  · rcases (getElem?_set_iff hg).mp hx with ⟨rfl, rfl⟩ | ⟨hxg, hx⟩
    · rw [hnil] at hn; cases hn
    · obtain ⟨j, hji, hmj, hname, hj⟩ := hi.caller_other hk hxg hx hn
      exact ⟨j, hmj.update (.inr (.inl hji)), hname, (hother j x hji hmj hj).2⟩
  · rcases (getElem?_set_iff hg).mp hx with ⟨rfl, rfl⟩ | ⟨hxg, hx⟩
    · exact absurd hnil hney
    · obtain ⟨vr', hv', hl', hf'⟩ := hi.route x y hx hney
      refine ⟨vr', hkeep _ _ vr' hv' ?_, hl', hf'⟩
      rw [hf']; simpa using hxg
  · obtain ⟨vr', hv', hl', hf'⟩ := hi.ownRoute j (of_update_eq hj (by simp)).2
    exact ⟨vr', hkeep _ _ vr' hv' (hf' g), hl', hf'⟩

theorem draw (n : UInt64) (draws : Nat → List Draw)
    (hshape : GroupCtl.Shape { s.ctl with heap := s.ctl.heap.set g { grp with index := n } }) :
    Inv calls { s with
      ctl := { s.ctl with heap := s.ctl.heap.set g { grp with index := n } }
      draws := draws } := by
  refine { hi with
    shape := hshape
    member := fun i hm => ?_
    caller := fun x y m hx hn => ?_
    route := fun x y hx hne => ?_ }
  · exact hi.member_set hg hm fun _ hin => ⟨hin.1, hin.2, hin.3, hin.4, hin.5, hin.6⟩
  · rcases (getElem?_set_iff hg).mp hx with ⟨rfl, rfl⟩ | ⟨-, hx⟩
    · exact hi.caller x grp m hg hn
    · exact hi.caller x y m hx hn
  · rcases (getElem?_set_iff hg).mp hx with ⟨rfl, rfl⟩ | ⟨-, hx⟩
    · exact hi.route x grp hg hne
    · exact hi.route x y hx hne

end

end GroupWorld.Inv

/-! ## The calls as steps of the controller -/

section
variable [UnicodeCase] {calls : Nat → GroupCall} {s t : GroupWorld} {e : GroupCallEvent}

theorem GroupCallStep.ctl (h : GroupCallStep calls s e t) : t.ctl = s.ctl ∨ ∃ d, GroupStep s.ctl d t.ctl := by
  cases h with
  | getOrCreate =>
    simp only [GroupCtl.getOrCreate]
    split
    next => exact .inl rfl
    next hnone => exact .inr ⟨_, .create hnone⟩
  | register g grp routers grp' _ hg hr => exact .inr ⟨_, .register hg hr⟩
  | stale | refused | get | getNone | routeConflict | read => exact .inl rfl
  | unRegister g grp _ hg => exact .inr ⟨_, .unRegister _ hg⟩
  | registerRoute routers _ _ ha => exact .inr ⟨_, .registerRoute ha⟩
  | unRegisterRoute => exact .inr ⟨_, .unRegisterRoute ..⟩
  | draw kind grp hg => exact .inr ⟨_, .createConn hg⟩

theorem GroupCallStep.shape (h : GroupCallStep calls s e t) (hs : s.ctl.Shape) : t.ctl.Shape := by
  rcases h.ctl with heq | ⟨d, hd⟩
  · rw [heq]; exact hs
  · exact hd.shape hs

theorem GroupWorld.ctl_reach (h : Reach GroupWorld.Init (GroupCallStep calls) s) :
    Reach GroupCtl.Init GroupStep s.ctl :=
  h.simulate GroupWorld.ctl (fun _ h0 => h0.1) fun _ _ _ _ hst => hst.ctl

theorem GroupWorld.Inv.register (hi : s.Inv calls) {i g : Nat} {grp grp' : HTTPGroup}
    {routers : Routers (Route GroupFn)} (hpc : s.pc i = .holding g) (hg : s.ctl.heap[g]? = some grp)
    (hr : (calls i).register s.ctl g grp = .ok (routers, grp'))
    (hshape : GroupCtl.Shape { s.ctl with
      routers := routers, heap := s.ctl.heap.set g grp', nextRoute := s.ctl.nextRoute + 1 }) :
    Inv calls { s with
      ctl := { s.ctl with routers := routers, heap := s.ctl.heap.set g grp', nextRoute := s.ctl.nextRoute + 1 }
      pc := update s.pc i .joined } := by
  have hbusy : ¬ (s.pc i).Busy := by
    rw [hpc]
    rintro (h | h)
    · exact h
    · cases h
  obtain ⟨hcur, hkeys⟩ := register_current hr
  have hk : s.ctl.groups (calls i).pxy.group = some g := of_decide_eq_true hcur
  obtain ⟨T, hT⟩ := hi.table
  have hnamed := hi.shape.names g grp hg
  rcases register_result hr with ⟨he, ha, rfl⟩ | ⟨hne, rfl, hn, hd, hl, hu, rfl⟩
  · have hnil : grp.pxyNames = [] := by rw [hnamed.1, he]; rfl
    refine hi.join hg hbusy hk hshape ⟨_, hT.add ha⟩ (fun d u vr hv => (mem_add ha).mpr (.inl hv))
      ⟨_, (mem_add ha).mpr (.inr ⟨rfl, rfl, rfl⟩), rfl, rfl⟩ (by simp [hnil]) rfl
      ⟨by simp, rfl, rfl, rfl, rfl, rfl⟩ (fun c hc => ?_)
    have hmem := hc.name
    rw [hnil] at hmem; cases hmem
  · obtain ⟨hgrp, hkey⟩ := hkeys hne
    have hroute := hi.route g grp hg (by rw [hnamed.1]; simpa using hne)
    exact hi.join hg hbusy hk hshape ⟨T, hT⟩ (fun _ _ _ hv => hv) hroute (hnamed.not_mem hn) rfl
      ⟨by simp, hgrp, hkey, hd, hl, hu⟩
      (fun c hc => { hc with name := by simp [hc.name] })

theorem GroupWorld.Inv.unRegister (hi : s.Inv calls) {i g : Nat} {grp : HTTPGroup} (hpc : s.pc i = .leaving g)
    (hg : s.ctl.heap[g]? = some grp) (hshape : (s.ctl.unRegister g grp (calls i).pxy.name).Shape) :
    Inv calls { s with
      ctl := s.ctl.unRegister g grp (calls i).pxy.name
      pc := update s.pc i .gone } := by
  have hdrop := (hi.shape.names g grp hg).drop (calls i).pxy.name
  have hin := hi.in_of_groups hg (by rw [hpc]; trivial) (hi.leaving i g hpc)
  have hcur : s.ctl.groups grp.group = some g := hi.current hg (List.ne_nil_of_mem hin.name)
  unfold GroupCtl.unRegister at hshape ⊢
  by_cases hne : (grp.dropMember (calls i).pxy.name).createFuncs = []
  · have hcur' : s.ctl.groups (grp.dropMember (calls i).pxy.name).group = some g := hcur
    simp only [hne, if_true, hcur'] at hshape ⊢
    exact hi.leave_last hg hpc (by rw [hdrop.1, hne]; rfl) hshape
  · simp only [hne, if_false] at hshape ⊢; exact hi.leave hg hpc hshape

theorem GroupCallStep.inv (h : GroupCallStep calls s e t) (hi : s.Inv calls) : t.Inv calls := by
  have hshape := h.shape hi.shape
  have hbusy : ∀ {p : CallPc}, p = .idle ∨ p = .gone ∨ (∃ g, p = .holding g) → ¬ p.Busy := by
    rintro p (rfl | rfl | ⟨g, rfl⟩) (h | h) <;> first | exact h | cases h
  cases h with
  | @getOrCreate i hpc =>
    have hquiet : ∀ {s' : GroupWorld} {g : Nat}, s'.Inv calls → s'.pc i = .idle →
        GroupWorld.Inv calls { s' with pc := update s'.pc i (.holding g) } :=
      fun hi' hpc' => hi'.quiet (hbusy (.inl hpc')) (hbusy (.inr (.inr ⟨_, rfl⟩)))
    simp only [GroupCtl.getOrCreate]
    split
    next => exact hquiet hi hpc
    next hnone => exact hquiet (hi.create hnone) hpc
  | register g grp routers grp' hpc hg hr => exact hi.register hpc hg hr hshape
  | stale g grp hpc => exact hi.quiet (hbusy (.inr (.inr ⟨g, hpc⟩))) (hbusy (.inl rfl))
  | refused g grp hpc => exact hi.quiet (hbusy (.inr (.inr ⟨g, hpc⟩))) (hbusy (.inr (.inl rfl)))
  | @get i g hpc hk => exact hi.get hpc hk
  | @getNone i hpc hk =>
    obtain ⟨g, _, hg, -⟩ := hi.member i (by rw [hpc]; trivial)
    rw [hk] at hg; cases hg
  | unRegister g grp hpc hg => exact hi.unRegister hpc hg hshape
  | registerRoute routers hpc _ ha => exact hi.routed (hbusy (.inl hpc)) ha hshape
  | routeConflict hpc => exact hi.quiet (hbusy (.inl hpc)) (hbusy (.inr (.inl rfl)))
  | unRegisterRoute hpc => exact hi.unRouted hpc hshape
  | draw kind grp hg => exact hi.draw hg _ _ hshape
  | read => exact ⟨hi.1, hi.2, hi.3, hi.4, hi.5, hi.6, hi.7, hi.8, hi.9⟩

theorem GroupWorld.inv_of_reach (h : Reach GroupWorld.Init (GroupCallStep calls) s) : s.Inv calls :=
  h.invariant (fun _ h0 => .init h0) fun _ _ _ _ hi hst => hst.inv hi

end

end Frp
