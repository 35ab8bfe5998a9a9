import Frp.ClientControl
import Frp.Fleet

/-!
# Reloading the client

`UpdateAll` of `client/proxy/proxy_manager.go` and of `client/visitor/visitor_manager.go`. A
configuration is a value, so that `reflect.DeepEqual` is equality.
-/

namespace Frp

open Function

variable {C : Type}

/-! ## Proxies -/

structure ProxyWrapper (C : Type) where
  cfg : C
  id : Nat

structure ClientProxyManager (C : Type) where
  proxies : Str → Option (ProxyWrapper C) := fun _ => none
  next : Nat := 0
  log : List RunEvent := []

namespace ClientProxyManager

def delProxy [DecidableEq C] (proxyCfgsMap : Str → Option C) (pm : ClientProxyManager C) (name : Str) :
    ClientProxyManager C :=
  match pm.proxies name with
  | none => pm
  | some pxy =>
    if proxyCfgsMap name = some pxy.cfg then pm
    else { pm with proxies := update pm.proxies name none, log := .stopped pxy.id :: pm.log }

def addProxy (name : C → Str) (pm : ClientProxyManager C) (cfg : C) : ClientProxyManager C :=
  match pm.proxies (name cfg) with
  | some _ => pm
  | none =>
    { proxies := update pm.proxies (name cfg) (some ⟨cfg, pm.next⟩)
      next := pm.next + 1
      log := .started pm.next :: pm.log }

def updateAll [DecidableEq C] (name : C → Str) (order : List Str) (proxyCfgs : List C) (pm : ClientProxyManager C) :
    ClientProxyManager C :=
  proxyCfgs.foldl (addProxy name) (order.foldl (delProxy (keyBy name proxyCfgs)) pm)

def fleet (pm : ClientProxyManager C) : Fleet Str C :=
  ⟨fun n => (pm.proxies n).map fun pxy => (pxy.cfg, some pxy.id), pm.next, pm.log⟩

def UpdateStep [DecidableEq C] (name : C → Str) (pm : ClientProxyManager C) (e : List Str × List C)
    (pm' : ClientProxyManager C) : Prop :=
  pm.fleet.Keys e.1 ∧ pm' = pm.updateAll name e.1 e.2

def Reachable [DecidableEq C] (name : C → Str) : ClientProxyManager C → Prop := Reach (· = {}) (UpdateStep name)

end ClientProxyManager

/-! ## Visitors -/

structure ClientVisitorManager (C : Type) where
  cfgs : Str → Option C := fun _ => none
  visitors : Str → Option Nat := fun _ => none
  next : Nat := 0
  log : List RunEvent := []

namespace ClientVisitorManager

def delVisitor [DecidableEq C] (cfgsMap : Str → Option C) (vm : ClientVisitorManager C) (name : Str) :
    ClientVisitorManager C :=
  match vm.cfgs name with
  | none => vm
  | some oldCfg =>
    if cfgsMap name = some oldCfg then vm
    else
      { vm with
        cfgs := update vm.cfgs name none
        visitors := update vm.visitors name none
        log := (vm.visitors name).toList.map .stopped ++ vm.log }

def startVisitor (name : C → Str) (runs : Nat → Bool) (vm : ClientVisitorManager C) (cfg : C) :
    ClientVisitorManager C :=
  if runs vm.next then
    { vm with
      visitors := update vm.visitors (name cfg) (some vm.next)
      next := vm.next + 1
      log := .started vm.next :: vm.log }
  else { vm with next := vm.next + 1 }

def addVisitor (name : C → Str) (runs : Nat → Bool) (vm : ClientVisitorManager C) (cfg : C) : ClientVisitorManager C :=
  match vm.cfgs (name cfg) with
  | some _ => vm
  | none => startVisitor name runs { vm with cfgs := update vm.cfgs (name cfg) (some cfg) } cfg

def updateAll [DecidableEq C] (name : C → Str) (runs : Nat → Bool) (order : List Str) (cfgs : List C)
    (vm : ClientVisitorManager C) : ClientVisitorManager C :=
  cfgs.foldl (addVisitor name runs) (order.foldl (delVisitor (keyBy name cfgs)) vm)

def retryVisitor (name : C → Str) (runs : Nat → Bool) (vm : ClientVisitorManager C) (n : Str) :
    ClientVisitorManager C :=
  match vm.cfgs n with
  | none => vm
  | some cfg =>
    match vm.visitors (name cfg) with
    | some _ => vm
    | none => vm.startVisitor name runs cfg

def keepVisitorsRunning (name : C → Str) (runs : Nat → Bool) (order : List Str) (vm : ClientVisitorManager C) :
    ClientVisitorManager C :=
  order.foldl (retryVisitor name runs) vm

def fleet (vm : ClientVisitorManager C) : Fleet Str C :=
  ⟨fun n => (vm.cfgs n).map fun c => (c, vm.visitors n), vm.next, vm.log⟩

def UpdateStep [DecidableEq C] (name : C → Str) (runs : Nat → Bool) (vm : ClientVisitorManager C)
    (e : List Str × Option (List C)) (vm' : ClientVisitorManager C) : Prop :=
  vm.fleet.Keys e.1 ∧
    match e.2 with
    | some cfgs => vm' = vm.updateAll name runs e.1 cfgs
    | none => vm' = vm.keepVisitorsRunning name runs e.1

def Reachable [DecidableEq C] (name : C → Str) (runs : Nat → Bool) : ClientVisitorManager C → Prop :=
  Reach (· = {}) (UpdateStep name runs)

end ClientVisitorManager

open Fleet

/-! ## Both are fleets -/

namespace ClientProxyManager

variable {name : C → Str} {pm : ClientProxyManager C} {n : Str} {c : C} {wanted : Str → Option C} {order : List Str}
  {proxyCfgs : List C}

theorem fleet_delProxy [DecidableEq C] : (pm.delProxy wanted n).fleet = pm.fleet.drop wanted n := by
  unfold delProxy drop
  cases hp : pm.proxies n with
  | none => simp [fleet, hp]
  | some pxy =>
    by_cases hw : wanted n = some pxy.cfg
    · simp [fleet, hp, hw]
    · simp only [fleet, hp, Option.map_some, if_neg hw, Option.toList_some, List.map_cons, List.map_nil,
        List.singleton_append]
      congr 1
      exact eq_update_iff.mpr ⟨by simp, fun m hm => by simp [update_of_ne hm]⟩

theorem fleet_addProxy : (pm.addProxy name c).fleet = pm.fleet.add (fun _ => true) name c := by
  unfold addProxy add
  cases hp : pm.proxies (name c) with
  | some => simp [fleet, hp]
  | none =>
    simp only [fleet, hp, Option.map_none, start, if_true]
    congr 1
    exact eq_update_iff.mpr ⟨by simp, fun m hm => by simp [update_of_ne hm]⟩

theorem fleet_updateAll [DecidableEq C] (order : List Str) (proxyCfgs : List C) :
    (pm.updateAll name order proxyCfgs).fleet = pm.fleet.reload (fun _ => true) name order proxyCfgs := by
  unfold updateAll reload
  rw [← List.foldl_hom fleet fun _ _ => fleet_addProxy.symm, ← List.foldl_hom fleet fun _ _ => fleet_delProxy.symm]
  rfl

theorem Reachable.ok [DecidableEq C] (h : pm.Reachable name) : pm.fleet.Ok name := by
  refine Reach.invariant (I := fun pm => pm.fleet.Ok name) ?_ ?_ h
  · intro pm hpm
    rw [hpm]; exact Fleet.Ok.empty
  · intro pm e pm' _ hok hst
    rw [hst.2, fleet_updateAll]; exact hok.reload

end ClientProxyManager

namespace ClientVisitorManager

variable {name : C → Str} {runs : Nat → Bool} {vm : ClientVisitorManager C} {n : Str} {c : C} {wanted : Str → Option C}
  {order : List Str} {cfgs : List C}

structure Linked (name : C → Str) (vm : ClientVisitorManager C) : Prop where
  named : ∀ n c, vm.cfgs n = some c → name c = n
  configured : ∀ n, vm.cfgs n = none → vm.visitors n = none

theorem fleet_delVisitor [DecidableEq C] : (vm.delVisitor wanted n).fleet = vm.fleet.drop wanted n := by
  unfold delVisitor drop
  cases hc : vm.cfgs n with
  | none => simp [fleet, hc]
  | some oldCfg =>
    by_cases hw : wanted n = some oldCfg
    · simp [fleet, hc, hw]
    · simp only [fleet, hc, Option.map_some, if_neg hw]
      congr 1
      exact eq_update_iff.mpr ⟨by simp, fun m hm => by simp [update_of_ne hm]⟩

theorem Linked.delVisitor [DecidableEq C] (h : vm.Linked name) : (vm.delVisitor wanted n).Linked name := by
  unfold ClientVisitorManager.delVisitor
  split
  · exact h
  · split
    · exact h
    · refine ⟨fun m c hm => ?_, fun m hm => ?_⟩
      · exact h.named m c (of_update (· = some c) hm nofun)
      · by_cases hmn : m = n
        · subst hmn; exact update_self ..
        · have hm : update vm.cfgs n none m = none := hm
          rw [update_of_ne hmn] at hm; exact (update_of_ne hmn _ _).trans (h.configured m hm)

theorem fleet_startVisitor (hc : vm.cfgs (name c) = some c) (hv : vm.visitors (name c) = none) :
    (vm.startVisitor name runs c).fleet = vm.fleet.start runs (name c) c := by
  unfold startVisitor start
  by_cases hr : runs vm.next = true
  · rw [if_pos hr, if_pos (show runs vm.fleet.next = true from hr)]
    unfold fleet
    congr 1
    exact eq_update_iff.mpr ⟨by simp [hc], fun m hm => by simp [update_of_ne hm]⟩
  · rw [if_neg hr, if_neg (show ¬ runs vm.fleet.next = true from hr)]
    unfold fleet
    congr 1
    exact eq_update_iff.mpr ⟨by simp [hc, hv], fun m hm => rfl⟩

theorem Linked.startVisitor (h : vm.Linked name) (hc : vm.cfgs (name c) = some c) :
    (vm.startVisitor name runs c).Linked name := by
  unfold ClientVisitorManager.startVisitor
  split
  · refine ⟨h.named, fun m hm => ?_⟩
    have hmc : m ≠ name c := by
      intro heq
      rw [heq] at hm; exact absurd (hc.symm.trans hm) (by simp)
    exact (update_of_ne hmc _ _).trans (h.configured m hm)
  · exact ⟨h.named, h.configured⟩

theorem Linked.configure (h : vm.Linked name) :
    Linked name { vm with cfgs := update vm.cfgs (name c) (some c) } := by
  refine ⟨fun m d hm => ?_, fun m hm => ?_⟩
  · rcases update_cases (· = some d) hm with ⟨hmc, hd⟩ | ⟨-, hm⟩
    · cases hd; exact hmc.symm
    · exact h.named m d hm
  · exact h.configured m (of_update (· = none) hm nofun)

theorem fleet_configure (hv : vm.visitors (name c) = none) :
    fleet { vm with cfgs := update vm.cfgs (name c) (some c) } =
      { vm.fleet with entries := update vm.fleet.entries (name c) (some (c, none)) } := by
  unfold fleet
  congr 1
  exact eq_update_iff.mpr ⟨by simp [hv], fun m hm => by simp [update_of_ne hm]⟩

variable (runs : Nat → Bool)

theorem addVisitor_linked (h : vm.Linked name) (c : C) :
    (vm.addVisitor name runs c).fleet = vm.fleet.add runs name c ∧ (vm.addVisitor name runs c).Linked name := by
  cases hc : vm.cfgs (name c) with
  | some =>
    have hadd : vm.addVisitor name runs c = vm := by simp [addVisitor, hc]
    rw [hadd]; exact ⟨by simp [fleet, add, hc], h⟩
  | none =>
    have hv := h.configured _ hc
    have hself : update vm.cfgs (name c) (some c) (name c) = some c := update_self ..
    have hadd : vm.addVisitor name runs c =
        startVisitor name runs { vm with cfgs := update vm.cfgs (name c) (some c) } c := by simp [addVisitor, hc]
    have hnone : vm.fleet.entries (name c) = none := by simp [fleet, hc]
    rw [hadd]
    refine ⟨?_, h.configure.startVisitor hself⟩
    rw [fleet_startVisitor (by exact hself) (by exact hv), fleet_configure hv]
    simp [start, add, hnone]

theorem retryVisitor_linked (h : vm.Linked name) (n : Str) :
    (vm.retryVisitor name runs n).fleet = vm.fleet.revive runs n ∧ (vm.retryVisitor name runs n).Linked name := by
  cases hc : vm.cfgs n with
  | none =>
    have hretry : vm.retryVisitor name runs n = vm := by simp [retryVisitor, hc]
    rw [hretry]; exact ⟨by simp [fleet, revive, hc], h⟩
  | some c =>
    obtain rfl := h.named n c hc
    cases hv : vm.visitors (name c) with
    | some =>
      have hretry : vm.retryVisitor name runs (name c) = vm := by simp [retryVisitor, hc, hv]
      rw [hretry]; exact ⟨by simp [fleet, revive, hc, hv], h⟩
    | none =>
      have hretry : vm.retryVisitor name runs (name c) = vm.startVisitor name runs c := by simp [retryVisitor, hc, hv]
      rw [hretry]
      refine ⟨?_, h.startVisitor hc⟩
      rw [fleet_startVisitor hc hv]; simp [fleet, revive, hc, hv]

theorem foldl_addVisitor (cfgs : List C) : ∀ vm : ClientVisitorManager C, vm.Linked name →
    (cfgs.foldl (addVisitor name runs) vm).fleet = cfgs.foldl (add runs name) vm.fleet ∧
      (cfgs.foldl (addVisitor name runs) vm).Linked name := by
  induction cfgs with
  | nil => exact fun vm h => ⟨rfl, h⟩
  | cons c rest ih =>
    intro vm h
    obtain ⟨hf, hl⟩ := addVisitor_linked runs h c
    rw [List.foldl_cons, List.foldl_cons, ← hf]; exact ih _ hl

theorem Linked.updateAll [DecidableEq C] (h : vm.Linked name) (order : List Str) (cfgs : List C) :
    (vm.updateAll name runs order cfgs).fleet = vm.fleet.reload runs name order cfgs ∧
      (vm.updateAll name runs order cfgs).Linked name := by
  have hdel : ∀ l : List Str, (l.foldl (ClientVisitorManager.delVisitor (keyBy name cfgs)) vm).Linked name := by
    intro l
    induction l using List.reverseRecOn with
    | nil => exact h
    | append_singleton l n ih => rw [List.foldl_append]; exact ih.delVisitor
  obtain ⟨hf, hl⟩ := foldl_addVisitor runs cfgs _ (hdel order)
  refine ⟨?_, hl⟩
  unfold ClientVisitorManager.updateAll reload
  rw [hf, ← List.foldl_hom fleet fun _ _ => fleet_delVisitor.symm]; rfl

theorem keepVisitorsRunning_linked (order : List Str) : ∀ vm : ClientVisitorManager C, vm.Linked name →
    (vm.keepVisitorsRunning name runs order).fleet = order.foldl (revive runs) vm.fleet ∧
      (vm.keepVisitorsRunning name runs order).Linked name := by
  induction order with
  | nil => exact fun vm h => ⟨rfl, h⟩
  | cons n rest ih =>
    intro vm h
    obtain ⟨hf, hl⟩ := retryVisitor_linked runs h n
    have hrest := ih _ hl
    rw [hf] at hrest; exact hrest

theorem Reachable.ok [DecidableEq C] (h : vm.Reachable name runs) : vm.fleet.Ok name ∧ vm.Linked name := by
  refine Reach.invariant (I := fun vm => vm.fleet.Ok name ∧ vm.Linked name) ?_ ?_ h
  · intro vm hvm
    rw [hvm]; exact ⟨Fleet.Ok.empty, ⟨fun n c hn => by simp at hn, fun n _ => rfl⟩⟩
  · intro vm e vm' _ hok hst
    obtain ⟨order, cfgs⟩ := e
    cases cfgs with
    | some cfgs =>
      obtain ⟨hf, hl⟩ := hok.2.updateAll runs order cfgs
      rw [show vm' = vm.updateAll name runs order cfgs from hst.2, hf]; exact ⟨hok.1.reload, hl⟩
    | none =>
      obtain ⟨hf, hl⟩ := keepVisitorsRunning_linked runs order vm hok.2
      rw [show vm' = vm.keepVisitorsRunning name runs order from hst.2, hf]
      exact ⟨hok.1.foldl_revive order, hl⟩

end ClientVisitorManager

/-! ## Reloads -/

/-- A reload leaves what is configured, keeps what has not changed and stops the rest once; a second
one does nothing. -/
theorem reload_minimal_and_exact [DecidableEq C] (name : C → Str) (runs : Nat → Bool) (order order' : List Str)
    (cfgs : List C) (hnames : (cfgs.map name).Nodup) :
    (∀ pm : ClientProxyManager C, pm.Reachable name → pm.fleet.Keys order →
      Fleet.Reloaded name cfgs pm.fleet (pm.updateAll name order cfgs).fleet ∧
        ((pm.updateAll name order cfgs).updateAll name order' cfgs).fleet = (pm.updateAll name order cfgs).fleet) ∧
    ∀ vm : ClientVisitorManager C, vm.Reachable name runs → vm.fleet.Keys order →
      Fleet.Reloaded name cfgs vm.fleet (vm.updateAll name runs order cfgs).fleet ∧
        ((vm.updateAll name runs order cfgs).updateAll name runs order' cfgs).fleet =
          (vm.updateAll name runs order cfgs).fleet := by
  refine ⟨fun pm hpm hkeys => ?_, fun vm hvm hkeys => ?_⟩
  · rw [ClientProxyManager.fleet_updateAll order', ClientProxyManager.fleet_updateAll]
    have hr := reloaded (fun _ => true) hpm.ok hkeys hnames
    exact ⟨hr, reload_again hnames hr.managed⟩
  · obtain ⟨hok, hlinked⟩ := hvm.ok
    obtain ⟨hf, hl⟩ := hlinked.updateAll runs order cfgs
    obtain ⟨hf', -⟩ := hl.updateAll runs order' cfgs
    rw [hf', hf]
    have hr := reloaded runs hok hkeys hnames
    exact ⟨hr, reload_again hnames hr.managed⟩

def twoProxies : ClientProxyManager (Str × Nat) :=
  ({} : ClientProxyManager (Str × Nat)).updateAll (·.1) [] [([1], 1), ([2], 1)]

attribute [local simp] ClientProxyManager.fleet

theorem keys_twoProxies : twoProxies.fleet.Keys [[1], [2]] := by
  intro k
  have hproxies : twoProxies.proxies = update (update (fun _ => none) [1] (some ⟨([1], 1), 0⟩)) [2]
      (some ⟨([2], 1), 1⟩) := rfl
  by_cases h2 : k = [2]
  · subst h2; simp [hproxies]
  · by_cases h1 : k = [1]
    · subst h1; simp [hproxies]
    · simp [hproxies, h1, h2]

theorem reload_minimal_and_exact_version :
    Fleet.Reloaded (·.1) [([1], 2), ([2], 1)] twoProxies.fleet
      (twoProxies.updateAll (·.1) [[1], [2]] [([1], 2), ([2], 1)]).fleet :=
  ((reload_minimal_and_exact (·.1) (fun _ => true) [[1], [2]] [] [([1], 2), ([2], 1)] (by decide)).1 twoProxies
    (.next (e := ([], [([1], 1), ([2], 1)])) (.start rfl) ⟨fun k => by simp, rfl⟩)
    keys_twoProxies).1

end Frp
