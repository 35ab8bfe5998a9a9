import Frp.PortsSound
import Frp.Register

/-!
# Giving a port back

A port that was free and is given back leaves the port manager as it was, up to what is
remembered for the name.
-/

namespace Frp

open Function

namespace PortManager

variable {pm : PortManager}

def SameUse (pm pm' : PortManager) : Prop := pm'.usedPorts = pm.usedPorts ∧ pm'.freePorts = pm.freePorts

inductive Leaks (pm : PortManager) (keeps : Int → Bool) (ans : Answers) (name : Str) (port : Int) : Prop
  | remembered {p} : port = 0 → pm.remembered name = some p → ans.probe 0 p = true →
      (pm.usedPorts p).isSome = true ∨ keeps p = true → Leaks pm keeps ans name port
  | picked {k} : port = 0 → (∀ q, pm.remembered name = some q → ans.probe 0 q = false) →
      pickPort ans.probe 0 ans.order = some k → k = 0 ∨ keeps k = true → Leaks pm keeps ans name port
  | asked : port ≠ 0 → pm.freePorts port = true → ans.probe 0 port = true → keeps port = true →
      Leaks pm keeps ans name port

def UsedFresh (pm : PortManager) : Prop := ∀ p ctx, pm.usedPorts p = some ctx → ctx < pm.next

theorem UsedFresh.take (h : pm.UsedFresh) (name : Str) (port now : Int) : (pm.take name port now).UsedFresh := by
  intro p ctx hu
  replace hu : update pm.usedPorts port (some pm.next) p = some ctx := hu
  show ctx < pm.next + 1
  by_cases hp : p = port
  · rw [hp, update_self] at hu; cases hu
    omega
  · rw [update_of_ne hp] at hu
    have := h p ctx hu
    omega

end PortManager

open PortManager

theorem PortStep.usedFresh {pm pm' : PortManager} {call : PortCall} (h : pm.UsedFresh) (hst : PortStep pm call pm') :
    pm'.UsedFresh := by
  cases hst with
  | @acquire name port now order probe =>
    have htaken := acquire_taken pm name port now order probe
    generalize pm.acquire name port now order probe = r at htaken ⊢
    cases htaken with
    | remembered | picked | asked => exact h.take _ _ _
    | refused => exact h
  | @release port =>
    unfold PortManager.release
    split
    next c hc =>
      intro p ctx hu
      replace hu : update pm.usedPorts port none p = some ctx := hu
      by_cases hp : p = port
      · rw [hp, update_self] at hu; cases hu
      · rw [update_of_ne hp] at hu; exact h p ctx hu
    next => exact h
  | cleanReservedPortsOnce => exact h

theorem PortManager.usedFresh_of_reach {allowPorts : List PortsRange} {pm : PortManager}
    (hr : Reach (· = PortManager.new allowPorts) PortStep pm) : pm.UsedFresh := by
  apply hr.invariant
  · intro pm h0 p ctx hu
    subst h0; cases hu
  · intro pm call pm' _ h hst; exact hst.usedFresh h

namespace PortManager

variable {pm : PortManager} {allowed : Int → Bool}

theorem not_same_take (hf : pm.UsedFresh) (name : Str) (p now : Int) : ¬ pm.SameUse (pm.take name p now) := by
  intro h
  have hp : update pm.usedPorts p (some pm.next) p = pm.usedPorts p := congrFun h.1 p
  rw [update_self] at hp; exact Nat.lt_irrefl _ (hf p pm.next hp.symm)

theorem release_take (pm : PortManager) (name : Str) (p now later : Int) :
    ((pm.take name p now).release p later).usedPorts = update pm.usedPorts p none ∧
    ((pm.take name p now).release p later).freePorts = update pm.freePorts p true := by
  have hu : (pm.take name p now).usedPorts p = some pm.next := update_self ..
  unfold release
  rw [hu]; exact ⟨update_idem .., update_idem ..⟩

theorem same_giveBack_iff (h : pm.Inv allowed) (hf : pm.UsedFresh) {p : Int} (hp : allowed p = true)
    (keeps : Int → Bool) (name : Str) (now later : Int) :
    pm.SameUse ((pm.take name p now).giveBack keeps later p) ↔ ¬ ((pm.usedPorts p).isSome = true ∨ keeps p = true) := by
  unfold giveBack
  by_cases hk : keeps p = true
  · rw [if_pos hk]
    exact ⟨fun hs => absurd hs (not_same_take hf name p now), fun hn => absurd (.inr hk) hn⟩
  · rw [if_neg hk]
    obtain ⟨hused, hfree⟩ := release_take pm name p now later
    unfold SameUse
    rw [hused, hfree, update_eq_self_iff, update_eq_self_iff]
    constructor
    · rintro ⟨hu, -⟩ (hu' | hk')
      · rw [← hu] at hu'; cases hu'
      · exact hk hk'
    · intro hn
      have hu : (pm.usedPorts p).isSome = false := by
        cases hu : (pm.usedPorts p).isSome with
        | false => rfl
        | true => exact absurd (.inl hu) hn
      exact ⟨(Option.not_isSome_iff_eq_none.mp (by rw [hu]; exact Bool.false_ne_true)).symm,
        ((h.free_iff hp).mpr hu).symm⟩

section
variable {keeps : Int → Bool} {ans : Answers} {name : Str} {port : Int}

theorem leaks_remembered {p : Int} (h0 : port = 0) (hrem : pm.remembered name = some p) (hp : ans.probe 0 p = true) :
    pm.Leaks keeps ans name port ↔ (pm.usedPorts p).isSome = true ∨ keeps p = true := by
  refine ⟨fun h => ?_, .remembered h0 hrem hp⟩
  cases h with
  | remembered _ hrem' _ hbad =>
    rw [hrem] at hrem'; cases hrem'
    exact hbad
  | picked _ hno => rw [hno p hrem] at hp; cases hp
  | asked hne => exact absurd h0 hne

theorem leaks_picked {k : Int} (h0 : port = 0) (hno : ∀ q, pm.remembered name = some q → ans.probe 0 q = false)
    (hk : pickPort ans.probe 0 ans.order = some k) : pm.Leaks keeps ans name port ↔ k = 0 ∨ keeps k = true := by
  refine ⟨fun h => ?_, .picked h0 hno hk⟩
  cases h with
  | remembered _ hrem hp => rw [hno _ hrem] at hp; cases hp
  | picked _ _ hk' hbad =>
    rw [hk] at hk'; cases hk'
    exact hbad
  | asked hne => exact absurd h0 hne

theorem leaks_asked (h0 : port ≠ 0) (hf : pm.freePorts port = true) (hp : ans.probe 0 port = true) :
    pm.Leaks keeps ans name port ↔ keeps port = true := by
  refine ⟨fun h => ?_, .asked h0 hf hp⟩
  cases h with
  | remembered h | picked h => exact absurd h h0
  | asked _ _ _ hbad => exact hbad

theorem not_leaks_refused
    (hnone : port = 0 → (∀ q, pm.remembered name = some q → ans.probe 0 q = false) ∧
      pickPort ans.probe 0 ans.order = none)
    (hasked : pm.freePorts port = true → ans.probe 0 port = true → port = 0) : ¬ pm.Leaks keeps ans name port := by
  intro h
  cases h with
  | remembered h0 hrem hp => rw [(hnone h0).1 _ hrem] at hp; cases hp
  | picked h0 _ hk => rw [(hnone h0).2] at hk; cases hk
  | asked h0 hf hp => exact h0 (hasked hf hp)

inductive Undone (pm : PortManager) (keeps : Int → Bool) (ans : Answers) (name : Str) (port : Int) :
    PortManager × Except PortError Int → Prop
  | ok {pm' p} : (pm.SameUse (pm'.giveBack keeps ans.later p) ↔ ¬ pm.Leaks keeps ans name port) →
      Undone pm keeps ans name port (pm', .ok p)
  | error {pm' e} : (pm.SameUse pm' ↔ ¬ pm.Leaks keeps ans name port) → Undone pm keeps ans name port (pm', .error e)

theorem acquire_undone (h : pm.Inv allowed) (hf : pm.UsedFresh) (ho : pm.FreeOrder ans.order) :
    Undone pm keeps ans name port (pm.acquire name port ans.now ans.order ans.probe) := by
  have hunused : ∀ {p}, pm.freePorts p = true → ¬ (pm.usedPorts p).isSome = true := by
    intro p hp hu
    rw [h.disjoint p hp] at hu; cases hu
  have htaken := acquire_taken pm name port ans.now ans.order ans.probe
  generalize pm.acquire name port ans.now ans.order ans.probe = r at htaken ⊢
  cases htaken with
  | remembered h0 hrem hp =>
    apply Undone.ok
    rw [same_giveBack_iff h hf (h.reserved _ _ hrem), leaks_remembered h0 hrem hp]
  | @picked k h0 hno hk =>
    have hfree : pm.freePorts k = true := (ho.mem k).mp (mem_of_pickPort hk)
    by_cases hk0 : k = 0
    · rw [if_pos hk0]
      apply Undone.error
      rw [leaks_picked h0 hno hk]
      exact ⟨fun hs => absurd hs (not_same_take hf name k ans.now), fun hn => absurd (.inl hk0) hn⟩
    · rw [if_neg hk0]
      apply Undone.ok
      rw [same_giveBack_iff h hf ((h.union k).mp (.inl hfree)), leaks_picked h0 hno hk]
      simp only [hunused hfree, hk0, Bool.false_eq_true, false_or]
  | asked h0 hfree hp =>
    apply Undone.ok
    rw [same_giveBack_iff h hf ((h.union port).mp (.inl hfree)), leaks_asked h0 hfree hp]
    simp only [hunused hfree, Bool.false_eq_true, false_or]
  | refused hnone hasked =>
    apply Undone.error
    exact ⟨fun _ => not_leaks_refused hnone hasked, fun _ => ⟨rfl, rfl⟩⟩

theorem bindPort_undone (h : pm.Inv allowed) (hf : pm.UsedFresh) (ho : pm.FreeOrder ans.order)
    {text : PortError → Str} {bindErr : Option Str} {pm' : PortManager} {r : Except Str Int}
    (hb : pm.bindPort keeps text bindErr ans name port = (pm', r)) :
    (∀ e, r = .error e → (pm.SameUse pm' ↔ ¬ pm.Leaks keeps ans name port)) ∧
    ∀ p, r = .ok p → (pm.SameUse (pm'.giveBack keeps ans.later p) ↔ ¬ pm.Leaks keeps ans name port) := by
  have hacq : Undone pm keeps ans name port _ := acquire_undone h hf ho
  unfold bindPort at hb
  generalize pm.acquire name port ans.now ans.order ans.probe = x at hacq hb
  cases hacq with
  | ok hu =>
    cases bindErr with
    | none => cases hb; exact ⟨fun e he => (by cases he), fun p hp => (by cases hp; exact hu)⟩
    | some => cases hb; exact ⟨fun _ _ => hu, fun p hp => (by cases hp)⟩
  | error hu => cases hb; exact ⟨fun _ _ => hu, fun p hp => (by cases hp)⟩

end

end PortManager

end Frp
