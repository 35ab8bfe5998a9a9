import Mathlib.Algebra.Ring.Nat
import Mathlib.Data.List.Rotate
import Frp.HttpGroupCallsSound

/-!
# Membership and balance of HTTP groups

The route of a group is filed exactly while it has members, its members are the proxies that
have registered and not yet left, and they agree with the first one.
-/

namespace Frp

open Function

/-! ## Rotations -/

theorem perm_of_consecutive {α β : Type*} {l : List α} {ds : List β} {f : β → Option α} {a : Nat}
    (hlen : ds.length = l.length)
    (hf : ∀ (j : Nat) (d : β), ds[j]? = some d → f d = l[(a + j) % l.length]?) : (ds.map f).Perm (l.map some) := by
  have heq : ds.map f = (l.rotate a).map some := by
    refine List.ext_getElem? fun j => ?_
    rw [List.getElem?_map, List.getElem?_map]
    rcases Nat.lt_or_ge j l.length with hj | hj
    · have hd := List.getElem?_eq_getElem (hlen.symm ▸ hj : j < ds.length)
      rw [hd, Option.map_some, hf j _ hd, List.getElem?_rotate hj, Nat.add_comm j a]
      rw [List.getElem?_eq_getElem (Nat.mod_lt _ (Nat.lt_of_le_of_lt (Nat.zero_le j) hj))]; rfl
    · rw [List.getElem?_eq_none (hlen.symm ▸ hj), List.getElem?_eq_none (by rwa [List.length_rotate])]
      rfl
  rw [heq]; exact (List.rotate_perm l a).map some

/-! ## Draws -/

def HTTPGroup.Bound (grp : HTTPGroup) : Prop :=
  ∀ x ∈ grp.createFuncs, ∃ pxy : HTTPProxy, x = (pxy.name, some (.getRealConn pxy))

structure GroupWorld.Drawn (s : GroupWorld) : Prop where
  index : ∀ (g : Nat) (grp : HTTPGroup), s.ctl.heap[g]? = some grp →
    grp.index = UInt64.ofNat (s.draws g).length
  bound : ∀ (g : Nat) (grp : HTTPGroup), s.ctl.heap[g]? = some grp → grp.Bound
  fresh : ∀ g, s.ctl.heap.length ≤ g → s.draws g = []
  number : ∀ (g k : Nat) (d : Draw), (s.draws g)[k]? = some d → d.newIndex = UInt64.ofNat (k + 1)
  pick : ∀ (g k : Nat) (d : Draw) (p : Pick), (s.draws g)[k]? = some d → d.pick = some p →
    ∃ grp : HTTPGroup, grp.Named ∧ grp.Bound ∧ p = grp.pick d.kind d.newIndex

section
variable {s : GroupWorld}

theorem GroupWorld.Drawn.set (hd : s.Drawn) {g : Nat} {grp grp' : HTTPGroup} (hg : s.ctl.heap[g]? = some grp)
    {c : GroupCtl} (hheap : c.heap = s.ctl.heap.set g grp') (hidx : grp'.index = grp.index) (hb : grp'.Bound)
    (pc : Nat → CallPc) : Drawn { s with ctl := c, pc := pc } := by
  refine ⟨fun x y hx => ?_, fun x y hx => ?_, fun x hx => hd.fresh x (by simpa [hheap] using hx), hd.number, hd.pick⟩
  · replace hx : c.heap[x]? = some y := hx
    rw [hheap] at hx
    rcases (getElem?_set_iff hg).mp hx with ⟨rfl, rfl⟩ | ⟨-, hx⟩
    · rw [hidx]; exact hd.index x grp hg
    · exact hd.index x y hx
  · replace hx : c.heap[x]? = some y := hx
    rw [hheap] at hx
    rcases (getElem?_set_iff hg).mp hx with ⟨rfl, rfl⟩ | ⟨-, hx⟩
    · exact hb
    · exact hd.bound x y hx

theorem GroupWorld.Drawn.create (hd : s.Drawn) {c : GroupCtl} (hheap : c.heap = s.ctl.heap ++ [.new])
    (pc : Nat → CallPc) : Drawn { s with ctl := c, pc := pc } := by
  refine ⟨fun x y hx => ?_, fun x y hx => ?_, fun x hx => hd.fresh x ?_, hd.number, hd.pick⟩
  · replace hx : c.heap[x]? = some y := hx
    rw [hheap] at hx
    rcases getElem?_append_singleton_iff.mp hx with ⟨-, hx⟩ | ⟨rfl, rfl⟩
    · exact hd.index x y hx
    · rw [hd.fresh _ (Nat.le_refl _)]; rfl
  · replace hx : c.heap[x]? = some y := hx
    rw [hheap] at hx
    rcases getElem?_append_singleton_iff.mp hx with ⟨-, hx⟩ | ⟨rfl, rfl⟩
    · exact hd.bound x y hx
    · exact fun x hx => by cases hx
  · replace hx : c.heap.length ≤ x := hx
    rw [hheap, List.length_append] at hx; omega

theorem GroupWorld.Drawn.draw (hd : s.Drawn) {g : Nat} {grp : HTTPGroup} (hg : s.ctl.heap[g]? = some grp)
    (kind : DrawKind) : Drawn { s with
      ctl := { s.ctl with heap := s.ctl.heap.set g { grp with index := grp.index + 1 } }
      draws := update s.draws g (s.draws g ++ [⟨kind, grp.index + 1, none⟩]) } := by
  have hnext : grp.index + 1 = UInt64.ofNat ((s.draws g).length + 1) := by
    rw [hd.index g grp hg]; simp
  -- a draw in the new list is an old one or the last
  have hget : ∀ (x k : Nat) (d : Draw),
      (update s.draws g (s.draws g ++ [⟨kind, grp.index + 1, none⟩]) x)[k]? = some d →
      (s.draws x)[k]? = some d ∨ x = g ∧ k = (s.draws g).length ∧ d = ⟨kind, grp.index + 1, none⟩ := by
    intro x k d h
    rcases update_cases (fun l => l[k]? = some d) h with ⟨rfl, hin⟩ | ⟨-, hin⟩
    · exact (getElem?_append_singleton_iff.mp hin).imp And.right fun hlast => ⟨rfl, hlast⟩
    · exact .inl hin
  refine ⟨fun x y hx => ?_, fun x y hx => ?_, fun x hx => ?_, fun x k d h => ?_, fun x k d p h hp => ?_⟩
  · show y.index = UInt64.ofNat (update s.draws g _ x).length
    rcases (getElem?_set_iff hg).mp hx with ⟨rfl, rfl⟩ | ⟨hxg, hx⟩
    · rw [update_self, List.length_append]; exact hnext
    · rw [update_of_ne hxg]; exact hd.index x y hx
  · rcases (getElem?_set_iff hg).mp hx with ⟨rfl, rfl⟩ | ⟨-, hx⟩
    · exact hd.bound x grp hg
    · exact hd.bound x y hx
  · have hlt := (List.getElem?_eq_some_iff.mp hg).1
    replace hx : (s.ctl.heap.set g { grp with index := grp.index + 1 }).length ≤ x := hx
    rw [List.length_set] at hx
    show update s.draws g _ x = []
    rw [update_of_ne (by omega)]; exact hd.fresh x hx
  · rcases hget x k d h with h | ⟨rfl, rfl, rfl⟩
    · exact hd.number x k d h
    · exact hnext
  · rcases hget x k d h with h | ⟨rfl, rfl, rfl⟩
    · exact hd.pick x k d p h hp
    · cases hp

theorem GroupWorld.Drawn.read (hd : s.Drawn) (hs : s.ctl.Shape) {g k : Nat} {d : Draw} {grp : HTTPGroup}
    (hk : (s.draws g)[k]? = some d) (hg : s.ctl.heap[g]? = some grp) : Drawn { s with
      draws := update s.draws g ((s.draws g).set k { d with pick := some (grp.pick d.kind d.newIndex) }) } := by
  have hlen : ∀ x, (update s.draws g
      ((s.draws g).set k { d with pick := some (grp.pick d.kind d.newIndex) }) x).length = (s.draws x).length :=
    update_same List.length List.length_set
  have hget : ∀ (x j : Nat) (d' : Draw), (update s.draws g
      ((s.draws g).set k { d with pick := some (grp.pick d.kind d.newIndex) }) x)[j]? = some d' →
      (s.draws x)[j]? = some d' ∨
        x = g ∧ j = k ∧ d' = { d with pick := some (grp.pick d.kind d.newIndex) } := by
    intro x j d' h
    rcases update_cases (fun l => l[j]? = some d') h with ⟨rfl, hin⟩ | ⟨-, hin⟩
    · rcases (getElem?_set_iff hk).mp hin with ⟨rfl, rfl⟩ | ⟨-, hold⟩
      · exact .inr ⟨rfl, rfl, rfl⟩
      · exact .inl hold
    · exact .inl hin
  refine ⟨fun x y hx => ?_, hd.bound, fun x hx => ?_, fun x j d' h => ?_, fun x j d' p h hp => ?_⟩
  · rw [hd.index x y hx]; exact congrArg UInt64.ofNat (hlen x).symm
  · rw [← List.length_eq_zero_iff]; exact (hlen x).trans (by rw [hd.fresh x hx]; rfl)
  · rcases hget x j d' h with h | ⟨rfl, rfl, rfl⟩
    · exact hd.number x j d' h
    · exact hd.number x j d hk
  · rcases hget x j d' h with h | ⟨rfl, rfl, rfl⟩
    · exact hd.pick x j d' p h hp
    · exact ⟨grp, hs.names x grp hg, hd.bound x grp hg, (Option.some.inj hp).symm⟩

end

section
variable [UnicodeCase] {calls : Nat → GroupCall} {s t : GroupWorld} {e : GroupCallEvent}

theorem GroupCtl.unRegister_heap (c : GroupCtl) (g : Nat) (grp : HTTPGroup) (n : Str) :
    (c.unRegister g grp n).heap = c.heap.set g (grp.dropMember n) := by
  unfold GroupCtl.unRegister
  dsimp only
  split_ifs <;> rfl

theorem GroupCallStep.drawn (h : GroupCallStep calls s e t) (hs : s.ctl.Shape) (hd : s.Drawn) : t.Drawn := by
  cases h with
  | getOrCreate =>
    simp only [GroupCtl.getOrCreate]
    split
    next => exact ⟨hd.1, hd.2, hd.3, hd.4, hd.5⟩
    next => exact hd.create rfl _
  | register g grp routers grp' _ hg hr =>
    have hidx : grp'.index = grp.index := by
      rcases register_result hr with ⟨-, -, rfl⟩ | ⟨-, -, -, -, -, -, rfl⟩ <;> rfl
    have hb : grp'.Bound := by
      intro x hx
      rw [(register_ok hr).2.1, List.mem_append, List.mem_singleton] at hx
      exact hx.elim (hd.bound g grp hg x) fun hx => ⟨_, hx⟩
    exact hd.set hg rfl hidx hb _
  | @unRegister i g grp _ hg =>
    have hb : (grp.dropMember (calls i).pxy.name).Bound := fun x hx =>
      hd.bound g grp hg x (List.mem_of_mem_filter hx)
    exact hd.set hg (s.ctl.unRegister_heap ..) rfl hb _
  | stale | refused | get | getNone | routeConflict | registerRoute | unRegisterRoute =>
    exact ⟨hd.1, hd.2, hd.3, hd.4, hd.5⟩
  | draw kind grp hg => exact hd.draw hg kind
  | read d grp hk _ hg => exact hd.read hs hk hg

theorem GroupWorld.drawn_of_reach (h : Reach GroupWorld.Init (GroupCallStep calls) s) : s.Drawn := by
  refine h.invariant (fun s h0 => ?_) fun _ _ _ hr hd hst => hst.drawn (inv_of_reach hr).shape hd
  obtain ⟨hc, -, hdraws⟩ := h0
  have hctl : s.ctl = ⟨fun _ => none, [], .new, 0⟩ := hc
  refine ⟨?_, ?_, fun g _ => hdraws g, ?_, ?_⟩
  · intro g grp hg
    rw [hctl] at hg; simp at hg
  · intro g grp hg
    rw [hctl] at hg; simp at hg
  · intro g k d hk
    rw [hdraws] at hk; simp at hk
  · intro g k d p hk
    rw [hdraws] at hk; simp at hk

end

def Draw.selected (d : Draw) : Option Str := d.pick.bind Pick.name

def Draw.GoesTo (d : Draw) (n : Str) : Prop :=
  ∃ p, d.pick = some p ∧ match d.kind with
    | .createConn => ∃ pxy : HTTPProxy, pxy.name = n ∧ p.fn = some (.getRealConn pxy)
    | .chooseEndpoint => p.endpoint = n

def Draw.Saw (d : Draw) (members : List Str) : Prop := ∃ p, d.pick = some p ∧ p.members = members

structure GroupWorld.Round (s : GroupWorld) (g k : Nat) (members : List Str) (ds : List Draw) : Prop where
  consecutive : ((s.draws g).drop k).take members.length = ds
  length : ds.length = members.length
  saw : ∀ d ∈ ds, d.Saw members
  noWrap : ∀ d ∈ ds.head?, d.newIndex.toNat + members.length ≤ 2 ^ 64

theorem HTTPGroup.Bound.createFunc {grp : HTTPGroup} (hb : grp.Bound) (hn : grp.Named) {n : Str}
    (hm : n ∈ grp.pxyNames) : ∃ pxy : HTTPProxy, pxy.name = n ∧ grp.createFunc n = some (.getRealConn pxy) := by
  cases hl : grp.createFuncs.lookup n with
  | none => exact absurd hm (hn.not_mem hl)
  | some f =>
    obtain ⟨l, r, hlr, -⟩ := List.lookup_eq_some_iff.mp hl
    obtain ⟨pxy, hpxy⟩ := hb (n, f) (by simp [hlr])
    obtain ⟨rfl, rfl⟩ := Prod.mk.inj hpxy
    exact ⟨pxy, rfl, by rw [HTTPGroup.createFunc, hl]; rfl⟩

theorem HTTPGroup.goesTo_pick {grp : HTTPGroup} (hb : grp.Bound) (hn : grp.Named) {d : Draw} {n : Str}
    (hp : d.pick = some (grp.pick d.kind d.newIndex)) (hs : grp.memberAt d.newIndex = some n) : d.GoesTo n := by
  refine ⟨_, hp, ?_⟩
  obtain ⟨pxy, hname, hf⟩ := hb.createFunc hn (List.mem_of_getElem? hs)
  cases d.kind with
  | createConn => exact ⟨pxy, hname, by show (grp.memberAt d.newIndex).bind grp.createFunc = _; rw [hs]; exact hf⟩
  | chooseEndpoint =>
    show (grp.memberAt d.newIndex).getD [] = n
    rw [hs]; rfl

theorem GroupWorld.Drawn.balanced {s : GroupWorld} (hd : s.Drawn) {g k : Nat} {members : List Str} {ds : List Draw}
    (h : s.Round g k members ds) :
    (ds.map Draw.selected).Perm (members.map some) ∧ ∀ d ∈ ds, ∀ n, d.selected = some n → d.GoesTo n := by
  have hget : ∀ (j : Nat) (d : Draw), ds[j]? = some d → j < members.length ∧ (s.draws g)[k + j]? = some d := by
    intro j d hj
    have hlt : j < members.length := h.length ▸ (List.getElem?_eq_some_iff.mp hj).1
    rw [← h.consecutive, List.getElem?_take_of_lt hlt, List.getElem?_drop] at hj; exact ⟨hlt, hj⟩
  -- the number of the draw at position `j` is that of the first plus `j`
  have hnum : ∀ (j : Nat) (d : Draw), ds[j]? = some d → d.newIndex.toNat = (k + 1) % 2 ^ 64 + j := by
    intro j d hj
    obtain ⟨hlt, hjd⟩ := hget j d hj
    have hd₀ := List.getElem?_eq_getElem (show 0 < ds.length by rw [h.length]; omega)
    have hwrap := h.noWrap _ (by rwa [List.head?_eq_getElem?])
    rw [hd.number g k _ (hget 0 _ hd₀).2, UInt64.toNat_ofNat'] at hwrap
    rw [hd.number g (k + j) d hjd, UInt64.toNat_ofNat']; omega
  constructor
  · refine perm_of_consecutive (a := (k + 1) % 2 ^ 64) h.length fun j d hj => ?_
    obtain ⟨p, hp, hmem⟩ := h.saw d (List.mem_of_getElem? hj)
    obtain ⟨grp, -, -, rfl⟩ := hd.pick g (k + j) d p (hget j d hj).2 hp
    have hnames : grp.pxyNames = members := hmem
    rw [Draw.selected, hp, ← hnum j d hj, ← hnames]; rfl
  · intro d hdm n hs
    obtain ⟨j, hj⟩ := List.getElem?_of_mem hdm
    obtain ⟨p, hp, -⟩ := h.saw d hdm
    obtain ⟨grp, hn, hb, rfl⟩ := hd.pick g (k + j) d p (hget j d hj).2 hp
    rw [Draw.selected, hp] at hs; exact HTTPGroup.goesTo_pick hb hn hp hs

/-! ## Membership and balance -/

section
variable [UnicodeCase]

/-- With one `UnRegister` for each `Register` that has succeeded, the members of a group are the
proxies that have registered and not left, and a round of draws selects each member once. -/
theorem http_group_members_and_balance (calls : Nat → GroupCall) {s : GroupWorld}
    (h : Reach GroupWorld.Init (GroupCallStep calls) s) :
    (∀ (g : Nat) (grp : HTTPGroup), s.ctl.heap[g]? = some grp →
      grp.pxyNames.Nodup ∧ grp.pxyNames = grp.createFuncs.map Prod.fst ∧
      (∀ n, n ∈ grp.pxyNames ↔ ∃ i, (s.pc i).Member ∧ (calls i).pxy.name = n ∧
        s.ctl.groups (calls i).pxy.group = some g ∧ (calls i).In grp) ∧
      (s.ctl.RouteOf g grp ↔ grp.pxyNames ≠ []) ∧ ((∃ rt, s.ctl.Installed g rt) ↔ grp.pxyNames ≠ []) ∧
      (grp.pxyNames ≠ [] → s.ctl.groups grp.group = some g)) ∧
    (∀ i j, (s.pc i).Member → (s.pc j).Member → (calls i).pxy.group = (calls j).pxy.group →
      (calls i).domain = (calls j).domain ∧ (calls i).location = (calls j).location ∧
      (calls i).pxy.routeByHTTPUser = (calls j).pxy.routeByHTTPUser ∧
      (calls i).pxy.groupKey = (calls j).pxy.groupKey) ∧
    ∀ (g k : Nat) (members : List Str) (ds : List Draw), s.Round g k members ds →
      (ds.map Draw.selected).Perm (members.map some) ∧ ∀ d ∈ ds, ∀ n, d.selected = some n → d.GoesTo n := by
  have hi := GroupWorld.inv_of_reach h
  have hown : s.ctl.Inv fun _ _ => True :=
    (GroupWorld.ctl_reach h).invariant (fun _ h0 => .init h0) fun _ _ _ _ hi hst => hst.inv (by simp) (by simp) hi
  refine ⟨fun g grp hg => ?_, fun i j hmi hmj hgrp => ?_, fun _ _ _ _ => (GroupWorld.drawn_of_reach h).balanced⟩
  · have hnamed := hi.shape.names g grp hg
    have hinst : (∃ rt, s.ctl.Installed g rt) → grp.pxyNames ≠ [] := by
      rintro ⟨rt, hin⟩
      obtain ⟨grp', hg', hw⟩ := hown.owner g rt hin
      rw [hg] at hg'; cases hg'
      rw [hnamed.1]; simpa using hw.nonempty
    have hroute : s.ctl.RouteOf g grp → ∃ rt, s.ctl.Installed g rt :=
      fun ⟨vr, hv, _, hf⟩ => ⟨vr.payload, hf, _, _, vr, hv, rfl⟩
    refine ⟨hnamed.2, hnamed.1, fun n => ⟨fun hn => ?_, ?_⟩, ⟨fun hr => hinst (hroute hr), hi.route g grp hg⟩,
      ⟨hinst, fun hne => hroute (hi.route g grp hg hne)⟩, hi.current hg⟩
    · obtain ⟨i, hm, hname, hk⟩ := hi.caller g grp n hg hn
      exact ⟨i, hm, hname, hk, hi.in_of_groups hg hm hk⟩
    · rintro ⟨i, -, rfl, -, hin⟩
      exact hin.name
  · obtain ⟨g, grp, hk, hg, hin⟩ := hi.member i hmi
    have hjn := hi.in_of_groups hg hmj (by rw [← hgrp]; exact hk)
    exact ⟨hin.domain.symm.trans hjn.domain, hin.location.symm.trans hjn.location, hin.user.symm.trans hjn.user,
      hin.groupKey.symm.trans hjn.groupKey⟩

end

/-! ### Two members, and a call too many -/

section
attribute [local instance] UnicodeCase.ascii

def webCall (i : Nat) : GroupCall := ⟨webProxy (lit (if i = 0 then "a" else "b")) [] [], lit "example.com", []⟩

def webDraws : List Draw :=
  [⟨.createConn, 1, some ⟨[lit "a", lit "b"], some (lit "b"), [], some (.getRealConn (webCall 1).pxy)⟩⟩,
    ⟨.chooseEndpoint, 2, some ⟨[lit "a", lit "b"], some (lit "a"), lit "a", none⟩⟩]

theorem http_group_two_members : ∃ s : GroupWorld, Reach GroupWorld.Init (GroupCallStep webCall) s ∧
    s.Round 0 0 [lit "a", lit "b"] webDraws ∧ (webDraws.map Draw.selected).Perm ([lit "a", lit "b"].map some) := by
  have h : Reach GroupWorld.Init (GroupCallStep webCall)
      ⟨⟨fun _ => none, [], .new, 0⟩, fun _ => .idle, fun _ => []⟩ := .start ⟨rfl, fun _ => rfl, fun _ => rfl⟩
  have h := h
    |>.next (.getOrCreate (i := 0) rfl (by decide))
    |>.next (.register (i := 0) 0 _ _ _ rfl rfl rfl)
    |>.next (.getOrCreate (i := 1) rfl (by decide))
    |>.next (.register (i := 1) 0 _ _ _ rfl rfl rfl)
    |>.next (.draw (g := 0) .createConn _ rfl)
    |>.next (.draw (g := 0) .chooseEndpoint _ rfl)
    |>.next (.read (g := 0) (k := 1) _ _ rfl rfl rfl)
    |>.next (.read (g := 0) (k := 0) _ _ rfl rfl rfl)
  obtain ⟨s, hs, hr⟩ : ∃ s : GroupWorld, Reach GroupWorld.Init (GroupCallStep webCall) s ∧
      s.Round 0 0 [lit "a", lit "b"] webDraws := by
    refine ⟨_, h, rfl, rfl, fun d hd => ?_, fun d hd => ?_⟩
    · rcases List.mem_cons.mp hd with rfl | hd
      · exact ⟨_, rfl, rfl⟩
      · rw [List.mem_singleton.mp hd]; exact ⟨_, rfl, rfl⟩
    · rw [← Option.some.inj hd]; decide
  exact ⟨s, hs, hr, ((http_group_members_and_balance webCall hs).2.2 0 0 _ _ hr).1⟩

theorem second_unRegister_drops_route : ∃ (s : GroupCtl) (grp : HTTPGroup), Reach GroupCtl.Init GroupStep s ∧
    s.groups (lit "web") = some 1 ∧ s.heap[1]? = some grp ∧ grp.pxyNames = [lit "b"] ∧
    ∀ rt, ¬ s.Installed 1 rt := by
  have h := (.start rfl : Reach GroupCtl.Init GroupStep ⟨fun _ => none, [], .new, 0⟩)
    |>.next (@GroupStep.create _ _ (lit "web") rfl)
    |>.next (@GroupStep.register _ _ 0 _ (webCall 0).pxy (lit "example.com") [] _ _ rfl rfl)
    |>.next (.unRegister (g := 0) (lit "a") rfl)
    |>.next (@GroupStep.create _ _ (lit "web") rfl)
    |>.next (@GroupStep.register _ _ 1 _ (webCall 1).pxy (lit "example.com") [] _ _ rfl rfl)
    |>.next (.unRegister (g := 0) (lit "a") rfl)
  refine ⟨_, _, h, rfl, rfl, rfl, ?_⟩
  rintro rt ⟨-, d, u, vr, hv, -⟩
  by_cases hk : d = lit "example.com" ∧ u = []
  · obtain ⟨rfl, rfl⟩ := hk
    cases hv
  · have hput : ∀ (r : Routers (Route GroupFn)) vrs,
        vr ∈ (r.put (lit "example.com") [] vrs).indexByDomain d u → vr ∈ r.indexByDomain d u := by
      intro r vrs h; simpa only [Routers.put, if_neg hk] using h
    cases hput .new _ (hput _ _ (hput _ _ (hput _ _ hv)))

end

end Frp
