import Frp.HttpGroupSound
import Frp.Register

/-!
# Leaving an HTTP group

An HTTP proxy that registers and then runs its close functions leaves the routes and the
members of the groups as they were.
-/

namespace Frp

open Function

/-! ## Members -/

namespace HTTPGroup

variable {grp : HTTPGroup} {n : Str} {f : Option GroupFn}

def Named (grp : HTTPGroup) : Prop := grp.pxyNames = grp.createFuncs.map Prod.fst ∧ grp.pxyNames.Nodup

theorem Named.not_mem (h : grp.Named) (hn : grp.createFuncs.lookup n = none) : n ∉ grp.pxyNames := by
  rw [h.1, List.mem_map]
  rintro ⟨x, hx, rfl⟩
  have := List.lookup_eq_none_iff.mp hn x hx
  simp at this

theorem Named.add (h : grp.Named) (hn : grp.createFuncs.lookup n = none) :
    Named { grp with createFuncs := grp.createFuncs ++ [(n, f)], pxyNames := grp.pxyNames ++ [n] } := by
  refine ⟨by simp [h.1], ?_⟩
  have := h.2.concat (h.not_mem hn)
  rwa [List.concat_eq_append] at this

theorem Named.drop (h : grp.Named) (n : Str) : (grp.dropMember n).Named := by
  refine ⟨?_, h.2.erase n⟩
  show grp.pxyNames.erase n = (grp.createFuncs.filter (·.1 ≠ n)).map Prod.fst
  rw [h.2.erase_eq_filter, h.1, List.filter_map]
  congr 2
  funext x
  by_cases hx : x.1 = n <;> simp [hx]

theorem Named.drop_add (h : grp.Named) (hn : grp.createFuncs.lookup n = none) :
    HTTPGroup.dropMember { grp with createFuncs := grp.createFuncs ++ [(n, f)], pxyNames := grp.pxyNames ++ [n] } n =
      grp := by
  have hfil : grp.createFuncs.filter (·.1 ≠ n) = grp.createFuncs := by
    rw [List.filter_eq_self]
    intro x hx
    have := List.lookup_eq_none_iff.mp hn x hx
    simp only [bne_iff_ne] at this
    simp [Ne.symm this]
  have herase : (grp.pxyNames ++ [n]).erase n = grp.pxyNames := by
    rw [List.erase_append_right _ (h.not_mem hn), List.erase_cons_head, List.append_nil]
  unfold dropMember
  simp only [List.filter_append, hfil, herase]
  simp

end HTTPGroup

/-! ## The registry -/

namespace GroupCtl

structure Shape (s : GroupCtl) : Prop where
  valid : ∀ key g, s.groups key = some g → g < s.heap.length
  inj : ∀ key key' g, s.groups key = some g → s.groups key' = some g → key = key'
  names : ∀ (g : Nat) (grp : HTTPGroup), s.heap[g]? = some grp → grp.Named
  sorted : s.routers.Sorted

def live (s : GroupCtl) (key : Str) : Option HTTPGroup :=
  ((s.groups key).bind fun g => s.heap[g]?).filter fun grp => !grp.createFuncs.isEmpty

structure Same (s s' : GroupCtl) : Prop where
  routes : s'.routers = s.routers
  groups : ∀ key, s'.live key = s.live key

theorem Same.trans {s s' s'' : GroupCtl} (h : s.Same s') (h' : s'.Same s'') : s.Same s'' :=
  ⟨h'.routes.trans h.routes, fun key => (h'.groups key).trans (h.groups key)⟩

namespace Shape

variable {s : GroupCtl}

theorem init (h : s.Init) : s.Shape := by
  subst h
  exact ⟨fun _ _ h => (by cases h), fun _ _ _ h => (by cases h), fun g grp h => (by simp at h), fun _ _ => .nil⟩

theorem setGroup (h : s.Shape) {g : Nat} {grp : HTTPGroup} (n : Nat)
    (hn : grp.Named) {routers : Routers (Route GroupFn)}
    (hr : routers.Sorted) : Shape { s with routers := routers, heap := s.heap.set g grp, nextRoute := n } where
  valid key g' hg := by rw [List.length_set]; exact h.valid key g' hg
  inj := h.inj
  names g' grp' hg := by
    by_cases hgg : g = g'
    · subst hgg
      rw [List.getElem?_set_self' ] at hg
      obtain ⟨_, -, rfl⟩ := Option.map_eq_some_iff.mp hg
      exact hn
    · rw [List.getElem?_set_ne hgg] at hg; exact h.names g' grp' hg
  sorted := hr

theorem dropGroup (h : s.Shape) (key : Str) : Shape { s with groups := update s.groups key none } := by
  have hold : ∀ k g, update s.groups key none k = some g → s.groups k = some g := by
    intro k g hg
    by_cases hk : k = key
    · simp [hk] at hg
    · rwa [update_of_ne hk] at hg
  exact ⟨fun k g hg => h.valid k g (hold k g hg),
    fun k k' g hg hg' => h.inj k k' g (hold k g hg) (hold k' g hg'), h.names, h.sorted⟩

theorem create (h : s.Shape) (group : Str) : Shape { s with
    groups := update s.groups group (some s.heap.length), heap := s.heap ++ [.new] } := by
  have hold : ∀ k g, update s.groups group (some s.heap.length) k = some g →
      k = group ∧ g = s.heap.length ∨ s.groups k = some g ∧ g < s.heap.length := by
    intro k g hg
    by_cases hk : k = group
    · rw [hk, update_self] at hg; exact .inl ⟨hk, (Option.some.inj hg).symm⟩
    · rw [update_of_ne hk] at hg; exact .inr ⟨hg, h.valid k g hg⟩
  refine ⟨fun k g hg => ?_, fun k k' g hg hg' => ?_, fun g grp hg => ?_, h.sorted⟩
  · rw [List.length_append, List.length_singleton]
    rcases hold k g hg with ⟨-, rfl⟩ | ⟨-, hlt⟩ <;> omega
  · rcases hold k g hg with ⟨rfl, rfl⟩ | ⟨hk, hlt⟩ <;> rcases hold k' _ hg' with ⟨rfl, hg₂⟩ | ⟨hk', hlt'⟩
    · rfl
    · exact absurd hlt' (Nat.lt_irrefl _)
    · omega
    · exact h.inj k k' g hk hk'
  · rcases Nat.lt_or_ge g s.heap.length with hlt | hge
    · rw [List.getElem?_append_left hlt] at hg; exact h.names g grp hg
    · rw [List.getElem?_append_right hge, List.getElem?_singleton] at hg
      split_ifs at hg
      cases hg; exact ⟨rfl, .nil⟩

end Shape

variable {s : GroupCtl}

theorem live_congr {s' : GroupCtl} {key : Str}
    (h : (s'.groups key).bind (fun g => s'.heap[g]?) = (s.groups key).bind fun g => s.heap[g]?) :
    s'.live key = s.live key := by
  unfold live; rw [h]

theorem live_eq_none {key : Str} (h : ∀ g grp, s.groups key = some g → s.heap[g]? = some grp → grp.createFuncs = []) :
    s.live key = none := by
  unfold live
  rw [Option.filter_eq_none_iff]
  intro grp hg
  obtain ⟨g, hk, hg⟩ := Option.bind_eq_some_iff.mp hg
  simp [h g grp hk hg]

theorem getOrCreate_spec (h : s.Shape) (group : Str) :
    (s.getOrCreate group).1.Shape ∧ s.Same (s.getOrCreate group).1 ∧
    (s.getOrCreate group).1.groups group = some (s.getOrCreate group).2 ∧
    ∃ grp, (s.getOrCreate group).1.heap[(s.getOrCreate group).2]? = some grp := by
  unfold getOrCreate
  split
  next g hg => exact ⟨h, ⟨rfl, fun _ => rfl⟩, hg, _, List.getElem?_eq_getElem (h.valid group g hg)⟩
  next hnone =>
    refine ⟨h.create group, ⟨rfl, fun key => ?_⟩, update_self .., .new, by simp⟩
    by_cases hk : key = group
    · subst hk
      rw [live_eq_none, live_eq_none]
      · intro g grp hg
        rw [hnone] at hg; cases hg
      · intro g grp hg hgrp
        replace hg : update s.groups key (some s.heap.length) key = some g := hg
        rw [update_self] at hg; cases hg
        simp only [List.getElem?_concat_length, Option.some.injEq] at hgrp
        subst hgrp; rfl
    · apply live_congr
      show (update s.groups group (some s.heap.length) key).bind _ = _
      rw [update_of_ne hk]
      cases hg : s.groups key with
      | none => rfl
      | some g => exact List.getElem?_append_left (h.valid key g hg)

end GroupCtl

section
variable [UnicodeCase]

theorem GroupStep.shape {s t : GroupCtl} {e : GroupEvent} (h : s.Shape) (hst : GroupStep s e t) : t.Shape := by
  cases hst with
  | create => exact h.create _
  | @register g grp pxy domain location routers grp' hg hr =>
    rcases register_result hr with ⟨he, ha, rfl⟩ | ⟨_, rfl, hn, _, _, _, rfl⟩
    · have hnil : grp.pxyNames = [] := by simpa [he] using (h.names g grp hg).1
      exact h.setGroup _ ⟨by simp [hnil], by simp [hnil]⟩ (h.sorted.add ha)
    · exact h.setGroup _ ((h.names g grp hg).add hn) h.sorted
  | refused => exact h
  | @unRegister g grp n hg =>
    have hdrop := (h.names g grp hg).drop n
    unfold GroupCtl.unRegister
    simp only
    split_ifs
    · exact (h.setGroup s.nextRoute hdrop h.sorted.del).dropGroup _
    · exact h.setGroup s.nextRoute hdrop h.sorted.del
    · exact h.setGroup s.nextRoute hdrop h.sorted
  | @createConn g grp hg =>
    have hn : grp.createConn.1.Named := h.names g grp hg
    exact h.setGroup _ hn h.sorted
  | @chooseEndpoint g grp hg =>
    have hn : grp.chooseEndpoint.1.Named := h.names g grp hg
    exact h.setGroup _ hn h.sorted
  | registerRoute ha => exact ⟨h.valid, h.inj, h.names, h.sorted.add ha⟩
  | unRegisterRoute => exact ⟨h.valid, h.inj, h.names, h.sorted.del⟩

theorem GroupCtl.shape_of_reach {s : GroupCtl} (h : Reach GroupCtl.Init GroupStep s) : s.Shape :=
  h.invariant (fun _ h0 => .init h0) fun _ _ _ _ hi hst => hst.shape hi

namespace GroupCtl

variable {s base : GroupCtl} {pxy : HTTPProxy} {domain location : Str}

theorem unRegister_register (h : s.Shape) {g : Nat} {grp grp' : HTTPGroup}
    {routers : Routers (Route GroupFn)} (hk : s.groups pxy.group = some g) (hg : s.heap[g]? = some grp)
    (hr : grp.register s.routers (s.groups pxy.group = some g) g s.nextRoute pxy.name pxy.group pxy.groupKey
      (pxy.routeConfig domain location) = .ok (routers, grp')) (n : Nat) :
    s.Same (unRegister { s with routers := routers, heap := s.heap.set g grp', nextRoute := n } g grp' pxy.name) := by
  rcases register_result hr with ⟨he, ha, rfl⟩ | ⟨hne, rfl, hn, -, -, -, rfl⟩
  · have hnil : ([(pxy.name, (pxy.routeConfig domain location).createConnFn)].filter (·.1 ≠ pxy.name)) = [] := by
      simp
    unfold unRegister HTTPGroup.dropMember
    simp only [hnil, if_true, hk]
    refine ⟨h.sorted.del_add ha, fun key => ?_⟩
    by_cases hkey : key = pxy.group
    · rw [hkey, live_eq_none, live_eq_none]
      · intro g' grp' hg' hgrp'
        rw [hk] at hg'; cases hg'
        rw [hg] at hgrp'; cases hgrp'
        exact he
      · intro g' grp' hg'
        replace hg' : update s.groups pxy.group none pxy.group = some g' := hg'
        rw [update_self] at hg'; cases hg'
    · apply live_congr
      show (update s.groups pxy.group none key).bind _ = _
      rw [update_of_ne hkey]
      cases hg' : s.groups key with
      | none => rfl
      | some g' =>
        have hgg : g ≠ g' := fun hgg => hkey (h.inj key pxy.group g' hg' (hgg ▸ hk))
        simp only [Option.bind_some, List.set_set]; exact List.getElem?_set_ne hgg
  · have hback := (h.names g grp hg).drop_add (f := (pxy.routeConfig domain location).createConnFn) hn
    have hheap : s.heap.set g grp = s.heap := by
      obtain ⟨_, rfl⟩ := List.getElem?_eq_some_iff.mp hg
      exact List.set_getElem_self _
    unfold unRegister
    simp only [hback, hne, if_false, List.set_set, hheap]; exact ⟨rfl, fun _ => rfl⟩

theorem registerMember_error {s' : GroupCtl} {e : GroupError}
    (hr : s.registerMember pxy domain location = (s', .error e)) : s' = (s.getOrCreate pxy.group).1 := by
  unfold registerMember at hr
  simp only at hr
  split at hr
  next => cases hr; rfl
  next =>
    split at hr
    next => cases hr; rfl
    next => cases hr

theorem registerMember_ok {s' : GroupCtl} (h : s.Shape) (hr : s.registerMember pxy domain location = (s', .ok ())) :
    s'.Shape ∧ s.Same (s'.unRegisterMember pxy) ∧
    (∃ g grp, s'.groups pxy.group = some g ∧ s'.heap[g]? = some grp ∧ pxy.name ∈ grp.pxyNames) ∧
    ∀ g grp, s.groups pxy.group = some g → s.heap[g]? = some grp → pxy.name ∉ grp.pxyNames := by
  obtain ⟨hshape, hsame, hk, grp, hg⟩ := getOrCreate_spec h pxy.group
  have hold : ∀ g, s.groups pxy.group = some g → s.getOrCreate pxy.group = (s, g) := by
    intro g hg
    unfold getOrCreate; rw [hg]
  unfold registerMember at hr
  generalize s.getOrCreate pxy.group = x at hshape hsame hk hg hold hr
  obtain ⟨s₁, g⟩ := x
  simp only at hshape hsame hk hg hr
  rw [hg] at hr
  simp only at hr
  split at hr
  next => cases hr
  next routers grp' hreg =>
    cases hr
    have hlt := (List.getElem?_eq_some_iff.mp hg).1
    have hself : (s₁.heap.set g grp')[g]? = some grp' := by simp [hlt]
    have hnot : pxy.name ∉ grp.pxyNames := (hshape.names g grp hg).not_mem (register_ok hreg).1
    refine ⟨GroupStep.shape hshape (.register hg hreg), ?_, ⟨g, grp', hk, hself, ?_⟩, ?_⟩
    · have hun := unRegister_register hshape hk hg hreg (s₁.nextRoute + 1)
      unfold unRegisterMember
      simp only [hk, hself]; exact hsame.trans hun
    · rcases register_result hreg with ⟨-, -, rfl⟩ | ⟨-, -, -, -, -, -, rfl⟩ <;> simp
    · intro g₀ grp₀ hg₀ hgrp₀
      cases hold g₀ hg₀
      rw [hg] at hgrp₀; cases hgrp₀
      exact hnot

def HeldMember (base : GroupCtl) (pxy : HTTPProxy) : List CloseFunc → GroupCtl → Prop
  | [], s => s.Shape ∧ base.Same s
  | [.unRegisterMember], s => s.Shape ∧ base.Same (s.unRegisterMember pxy) ∧
      ∃ g grp, s.groups pxy.group = some g ∧ s.heap[g]? = some grp ∧ pxy.name ∈ grp.pxyNames
  | _, _ => False

theorem registerFor_member (hg : pxy.group ≠ []) {s s' : GroupCtl} {route : Str × Str} {res : Except Str CloseFunc}
    (h : registerFor pxy route s = (s', res)) :
    (∃ e, res = .error e.text ∧ s.registerMember pxy route.1 route.2 = (s', .error e)) ∨
      res = .ok .unRegisterMember ∧ s.registerMember pxy route.1 route.2 = (s', .ok ()) := by
  simp only [registerFor, ne_eq, hg, not_false_eq_true, if_true] at h
  cases hm : s.registerMember pxy route.1 route.2 with
  | mk s₁ r =>
    rw [hm] at h
    cases r with
    | error e => cases h; exact .inl ⟨e, rfl, rfl⟩
    | ok => cases h; exact .inr ⟨rfl, rfl⟩

theorem undoable_member (hg : pxy.group ≠ []) (base : GroupCtl) :
    Undoable (registerFor pxy) (runCloseFunc pxy) (HeldMember base pxy) where
  acquired {held s route s' r} h hr := by
    rcases registerFor_member hg hr with ⟨_, hres, _⟩ | ⟨hres, hm⟩
    · cases hres
    · cases hres
      match held, h with
      | [], ⟨hs, hb⟩ =>
        obtain ⟨hs', hun, hmem, -⟩ := registerMember_ok hs hm
        exact ⟨hs', hb.trans hun, hmem⟩
      | [.unRegisterMember], ⟨hs, _, g, grp, hk, hgrp, hmem⟩ =>
        exact absurd hmem ((registerMember_ok hs hm).2.2.2 g grp hk hgrp)
  refused {held s route s' e} h hr := by
    rcases registerFor_member hg hr with ⟨_, _, hm⟩ | ⟨hres, _⟩
    · rw [registerMember_error hm]
      match held, h with
      | [], ⟨hs, hb⟩ =>
        obtain ⟨hs', hsame, -⟩ := getOrCreate_spec hs pxy.group
        exact ⟨hs', hb.trans hsame⟩
      | [.unRegisterMember], ⟨hs, hun, g, grp, hk, hgrp, hmem⟩ =>
        have hid : (s.getOrCreate pxy.group).1 = s := by unfold getOrCreate; rw [hk]
        rw [hid]; exact ⟨hs, hun, g, grp, hk, hgrp, hmem⟩
    · cases hres
  released {r held s} h := by
    match r, held, h with
    | .unRegisterMember, [], ⟨hs, hun, g, grp, hk, hgrp, _⟩ =>
      refine ⟨?_, hun⟩
      show (s.unRegisterMember pxy).Shape
      unfold unRegisterMember
      rw [hk]
      simp only [hgrp]; exact GroupStep.shape hs (.unRegister pxy.name hgrp)

def HeldRoutes (base : GroupCtl) (pxy : HTTPProxy) (held : List CloseFunc) (s : GroupCtl) : Prop :=
  s.groups = base.groups ∧ s.heap = base.heap ∧ ∃ routes : List (Str × Str),
    held = routes.map (fun r => .unRegisterRoute r.1 r.2) ∧
    base.routers.Holds (routes.map fun r => (r.1, r.2, pxy.routeByHTTPUser)) s.routers

theorem undoable_routes (hg : pxy.group = []) (base : GroupCtl) :
    Undoable (registerFor pxy) (runCloseFunc pxy) (HeldRoutes base pxy) where
  acquired {held s route s' r} h hr := by
    obtain ⟨h1, h2, routes, rfl, hh⟩ := h
    simp only [registerFor, ne_eq, hg, not_true_eq_false, if_false] at hr
    split at hr
    next => cases hr
    next routers ha =>
      cases hr
      refine ⟨h1, h2, routes ++ [route], by simp, ?_⟩
      rw [List.map_append]; exact hh.add ha
  refused {held s route s' e} h hr := by
    simp only [registerFor, ne_eq, hg, not_true_eq_false, if_false] at hr
    split at hr
    next => cases hr; exact h
    next => cases hr
  released {r held s} h := by
    obtain ⟨h1, h2, routes, heq, hh⟩ := h
    cases routes with
    | nil => cases heq
    | cons route routes => cases heq; exact ⟨h1, h2, routes, rfl, hh.del⟩

theorem closed_same (hs : s.Shape) (pxy : HTTPProxy) (routes : List (Str × Str)) :
    s.Same (releaseAll (runCloseFunc pxy) (acquireAll (registerFor pxy) routes [] s).1.2
      (acquireAll (registerFor pxy) routes [] s).1.1) := by
  by_cases hg : pxy.group = []
  · have hstart : HeldRoutes s pxy [] s := ⟨rfl, rfl, [], rfl, hs.sorted, rfl⟩
    obtain ⟨h1, h2, rs, heq, hh⟩ := (undoable_routes hg s).undone routes hstart
    cases rs with
    | nil => exact ⟨hh.back, fun key => live_congr (by rw [h1, h2])⟩
    | cons => cases heq
  · exact ((undoable_member hg s).undone routes ⟨hs, rfl, fun _ => rfl⟩).2

end GroupCtl

end

end Frp
