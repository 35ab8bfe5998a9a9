import Frp.MapSum
import Frp.ProxyNamesSound
import Frp.Register
import Frp.Slots

/-!
# The port quota of a control

`portsUsedNum` counts the proxies in the map of a control and the one that `RegisterProxy`
is working on, from the check of the quota to the insertion or the refund.
-/

namespace Frp

open Function

def QuotaStep (m : Int) (s : ProxyWorld) (c : Nat) (s' : ProxyWorld) : Prop :=
  RegistrationStep m s c s' ∧ ∀ p, s'.pc c = .created p → ∃ conf : ProxyConf, p.usedPortsNum = conf.usedPortsNum

open ControlPc RegistrationStep ProxyWorld

theorem ProxyConf.usedPortsNum_nonneg (conf : ProxyConf) : 0 ≤ conf.usedPortsNum := by
  cases conf <;> simp [usedPortsNum]

def ControlPc.quota : ControlPc → Int
  | counted p | checked p | ran p | refused p | filed p | failed p => p.usedPortsNum
  | _ => 0

attribute [local simp] ControlPc.hand

namespace ProxyWorld

structure Quota (m : Int) (s : ProxyWorld) (c : Nat) : Prop where
  total : (s.pc c).drained = false → MapSum Pxy.usedPortsNum (s.proxies c) (s.portsUsedNum c - (s.pc c).quota)
  bound : s.portsUsedNum c ≤ m
  map : ∀ n p, s.proxies c n = some p → 0 ≤ p.usedPortsNum
  hand : ∀ p ∈ (s.pc c).hand, 0 ≤ p.usedPortsNum

variable {m : Int} {s s' : ProxyWorld} {c : Nat} {p : Pxy}

theorem Inv.free_of_filed (h : s.Inv) (hp : s.pc c = .filed p) : s.proxies c p.name = none := by
  cases hx : s.proxies c p.name with
  | none => rfl
  | some q =>
    obtain ⟨hname, hown, -⟩ := (h.at_ c).key _ q hx
    have hq : s.pxys p.name = some q := (h.filed _ q).mpr ⟨hname, .inl (by rw [hown, hname]; exact hx)⟩
    have hmem : p ∈ (s.pc c).inManager := by rw [hp]; exact List.mem_cons_self
    rw [h.deletes_own hmem] at hq; cases hq
    exact absurd hx ((h.at_ c).hand p (inManager_sub _ p hmem)).2.2

theorem Quota.move (h : s.Quota m c) {p q : ControlPc} (hp : s.pc c = p) (hq : s'.pc c = q)
    (hmap : s'.proxies c = s.proxies c)
    (hd : q.drained = false → p.drained = false) (hn : s'.portsUsedNum c - q.quota = s.portsUsedNum c - p.quota)
    (hb : s'.portsUsedNum c ≤ m) (hh : ∀ x ∈ q.hand, 0 ≤ x.usedPortsNum) : s'.Quota m c := by
  subst hp hq
  refine ⟨fun hdr => ?_, hb, ?_, hh⟩
  · rw [hmap, hn]; exact h.total (hd hdr)
  · rw [hmap]; exact h.map

theorem goto_pc (q : ControlPc) : (s.goto c q).pc c = q := update_self ..

theorem count_portsUsedNum (n : Int) : (s.count c n).portsUsedNum c = s.portsUsedNum c + n := update_self ..

theorem Quota.insert (h : s.Quota m c) (hp : s.pc c = .filed p) (hfree : s.proxies c p.name = none)
    (hpc : s'.pc c = .idle) (hmap : s'.proxies c = update (s.proxies c) p.name (some p))
    (hn : s'.portsUsedNum c = s.portsUsedNum c) : s'.Quota m c := by
  refine ⟨fun _ => ?_, hn ▸ h.bound, fun n q hq => ?_, by simp [hpc]⟩
  · have htotal := h.total (hp ▸ rfl)
    rw [hp] at htotal
    rw [hpc, hmap, hn]
    simpa only [quota, Int.sub_zero, Int.sub_add_cancel] using htotal.insert (v := p) hfree
  · rw [hmap] at hq
    rcases update_cases (· = some q) hq with ⟨-, hq⟩ | ⟨-, hq⟩
    · cases hq; exact h.hand p (by rw [hp]; exact List.mem_cons_self)
    · exact h.map n q hq

theorem Quota.drop (h : s.Quota m c) {name : Str} (hp : s.pc c = .idle) (hx : s.proxies c name = some p)
    (hpc : s'.pc c = .dropped p) (hmap : s'.proxies c = update (s.proxies c) name none)
    (hn : s'.portsUsedNum c = s.portsUsedNum c - p.usedPortsNum) : s'.Quota m c := by
  have hpos := h.map name p hx
  refine ⟨fun _ => ?_, ?_, fun n q hq => ?_, by simpa [hpc] using hpos⟩
  · have htotal := h.total (hp ▸ rfl)
    rw [hp] at htotal
    rw [hpc, hmap, hn]; simpa only [quota, Int.sub_zero] using htotal.remove hx
  · have := h.bound
    omega
  · rw [hmap] at hq; exact h.map n q (of_update (· = some q) hq nofun)

end ProxyWorld

open ProxyWorld in
theorem QuotaStep.quota {m : Int} {s s' : ProxyWorld} {c : Nat} (hm : 0 < m) (hst : QuotaStep m s c s') (hi : s.Inv)
    (h : s.Quota m c) : s'.Quota m c := by
  have hquota : ∀ n : Int, quotaOf m n = n := fun n => if_pos hm
  have hhand : ∀ {p q : ControlPc}, s.pc c = p → (∀ x ∈ q.hand, x ∈ p.hand) → ∀ x ∈ q.hand, 0 ≤ x.usedPortsNum := by
    intro p q hp hsub x hx; exact h.hand x (by rw [hp]; exact hsub x hx)
  obtain ⟨hst, hnew⟩ := hst
  cases hst with
  | start hp => exact h.move hp (goto_pc _) rfl id rfl h.bound (by simp)
  | newProxy name ports hp =>
    refine h.move hp (goto_pc _) rfl (fun _ => rfl) rfl h.bound fun x hx => ?_
    obtain ⟨conf, hconf⟩ := hnew _ (goto_pc _)
    rw [List.mem_singleton.mp hx, hconf]; exact conf.usedPortsNum_nonneg
  | overQuota hp | delete hp | readError hp =>
    exact h.move hp (goto_pc _) rfl (fun _ => rfl) rfl h.bound (by simp)
  | @counted p hp hq =>
    have hnum := count_portsUsedNum (s := s) (c := c) p.usedPortsNum
    rw [hquota]
    refine h.move hp (goto_pc _) rfl (fun _ => rfl) ?_ ?_ (hhand hp fun x hx => hx)
    · simp only [ControlPc.quota, goto, hnum]; omega
    · have := fun hlt => hq ⟨hm, hlt⟩
      simp only [goto, hnum]; omega
  | exist hp | notExist hp | runFailed hp | run hp | addRefused hp | add hp | closeRefused hp | close hp =>
    exact h.move hp (goto_pc _) rfl (fun _ => rfl) rfl h.bound (hhand hp fun x hx => hx)
  | @refund p hp =>
    have hpos : 0 ≤ p.usedPortsNum := h.hand p (by rw [hp]; exact List.mem_cons_self)
    have hnum := count_portsUsedNum (s := s) (c := c) (-p.usedPortsNum)
    rw [hquota]
    refine h.move hp (goto_pc _) rfl (fun _ => rfl) ?_ ?_ (by simp)
    · simp only [ControlPc.quota, goto, hnum]; omega
    · have := h.bound
      simp only [goto, hnum]; omega
  | insert hp => exact h.insert hp (hi.free_of_filed hp) (goto_pc _) (update_self ..) rfl
  | @drop p name hp hx =>
    rw [hquota]; exact h.drop hp hx (goto_pc _) (update_self ..) (count_portsUsedNum _)
  | takeProxies rest hp _ hrest =>
    refine ⟨fun hd => ?_, h.bound, fun n q hq => ?_, fun x hx => ?_⟩
    · simp [goto, ControlPc.drained] at hd
    · simp [goto, setProxies] at hq
    · simp only [goto, update_self, ControlPc.hand] at hx
      obtain ⟨n, hn⟩ := (hrest x).mp hx
      exact h.map n x hn
  | drainClose hp => exact h.move hp (goto_pc _) rfl (by simp [ControlPc.drained]) rfl h.bound (hhand hp fun x hx => hx)
  | drainDelete hp =>
    exact h.move hp (goto_pc _) rfl (by simp [ControlPc.drained]) rfl h.bound
      (hhand hp fun x hx => List.mem_cons_of_mem _ hx)
  | finish hp => exact h.move hp (goto_pc _) rfl (by simp [ControlPc.drained]) rfl h.bound (by simp)

open ProxyWorld in
theorem ProxyWorld.quota_of_reach {m : Int} (hm : 0 < m) {s : ProxyWorld} (h : Reach (· = init) (QuotaStep m) s)
    (c : Nat) : s.Quota m c := by
  have hreg : ∀ {s}, Reach (· = init) (QuotaStep m) s → s.Inv := fun h =>
    inv_of_reach (h.mono fun _ _ _ hst => hst.1)
  induction h generalizing c with
  | start h0 => subst h0; exact ⟨fun _ => .empty, Int.le_of_lt hm, by simp [init], by simp [init]⟩
  | @next s d t hr hst ih =>
    by_cases hcd : c = d
    · subst hcd; exact hst.quota hm (hreg hr) (ih c)
    · obtain ⟨hpc, hpx, hnum⟩ := hst.1.other hcd
      obtain ⟨h1, h2, h3, h4⟩ := ih c
      exact ⟨by rw [hpc, hpx, hnum]; exact h1, by rw [hnum]; exact h2, by rw [hpx]; exact h3, by rw [hpc]; exact h4⟩

/-- Between calls the count of a control is the sum over its proxies; it never exceeds the limit. -/
theorem port_quota {m : Int} (hm : 0 < m) {s : ProxyWorld} (h : Reach (· = ProxyWorld.init) (QuotaStep m) s) (c : Nat) :
    (s.pc c = .idle → MapSum Pxy.usedPortsNum (s.proxies c) (s.portsUsedNum c)) ∧ s.portsUsedNum c ≤ m := by
  have hq := quota_of_reach hm h c
  refine ⟨fun hidle => ?_, hq.bound⟩
  have htotal := hq.total (hidle ▸ rfl)
  rw [hidle] at htotal; simpa only [quota, Int.sub_zero] using htotal

attribute [local simp] ProxyWorld.goto

theorem port_quota_full : ∃ s, (0 : Int) < 1 ∧ Reach (· = ProxyWorld.init) (QuotaStep 1) s ∧ s.pc 0 = .idle ∧
    s.proxies 0 (lit "web") = some ⟨0, 0, lit "web", 1⟩ ∧ s.next = 2 ∧
    MapSum Pxy.usedPortsNum (s.proxies 0) (s.portsUsedNum 0) ∧ s.portsUsedNum 0 = 1 := by
  have hconf : ∀ n : Nat, ∃ conf : ProxyConf, (⟨n, 0, lit "web", 1⟩ : Pxy).usedPortsNum = conf.usedPortsNum := fun _ =>
    ⟨.udp 0, rfl⟩
  have h := (.start rfl : Reach (· = init) (QuotaStep 1) _)
    |>.next ⟨@start _ _ 0 rfl, by simp⟩
    |>.next ⟨@newProxy _ _ 0 (lit "web") 1 rfl, fun p hp => created.inj hp ▸ hconf 0⟩
    |>.next ⟨@counted _ _ 0 _ rfl (by decide), by simp⟩
    |>.next ⟨@notExist _ _ 0 _ rfl rfl, by simp⟩
    |>.next ⟨@run _ _ 0 _ rfl, by simp⟩
    |>.next ⟨@add _ _ 0 _ rfl rfl, by simp⟩
    |>.next ⟨@insert _ _ 0 _ rfl, by simp⟩
    |>.next ⟨@newProxy _ _ 0 (lit "web") 1 rfl, fun p hp => created.inj hp ▸ hconf 1⟩
    |>.next ⟨@overQuota _ _ 0 _ rfl (by decide) (by decide), by simp⟩
  exact ⟨_, by decide, h, rfl, rfl, rfl, (port_quota (by decide) h 0).1 rfl, rfl⟩

end Frp
