import Frp.ProxyPlaces

/-!
# Ownership of proxy names

A name in the proxy manager is of the proxy its control has in its map or is closing, so
`Del` takes away the entry of the proxy that was closed.
-/

namespace Frp

open Function

open ProxyWorld

attribute [local simp] ControlPc.drained ControlPc.live ControlPc.hand

open ControlPc

variable {c : Nat} {m : Int} {s s' : ProxyWorld}

theorem RegistrationStep.inv (h : s.Inv) (hst : RegistrationStep m s c s') : s'.Inv := by
  have hat := h.at_ c
  cases hst with
  | start hp | overQuota hp | refund hp | readError hp | finish hp =>
    exact h.quiet rfl rfl rfl rfl rfl rfl (Nat.le_refl _) (hp ▸ rfl) (hp ▸ rfl)
      (by simp [hp]) (by simp [unrun]) (by simp) (by simp)
  | counted hp | notExist hp =>
    rw [hp] at hat
    exact h.quiet rfl rfl rfl rfl rfl rfl (Nat.le_refl _) (hp ▸ rfl) (hp ▸ rfl)
      (by simp) hat.unrun hat.hand hat.nodup
  | exist hp | runFailed hp | addRefused hp =>
    rw [hp] at hat
    exact h.quiet rfl rfl rfl rfl rfl rfl (Nat.le_refl _) (hp ▸ rfl) (hp ▸ rfl)
      (by simp) (by simp [unrun]) hat.hand hat.nodup
  | newProxy name ports hp =>
    rw [hp] at hat
    have hnew : ∀ p : Pxy, p.id = s.next → s.started p = false := by
      intro p hid
      by_contra hst
      have := h.fresh p (by simpa using hst)
      omega
    refine h.quiet rfl rfl rfl rfl rfl rfl (Nat.le_succ _) (hp ▸ rfl) (hp ▸ rfl)
      (by simp) ?_ ?_ (by simp)
    · intro p hpm
      obtain rfl := List.mem_singleton.mp hpm
      exact hnew _ rfl
    · intro p hpm
      obtain rfl := List.mem_singleton.mp hpm
      refine ⟨rfl, Nat.lt_succ_self _, fun hmap => ?_⟩
      have hst := (hat.key _ _ hmap).2.2
      rw [hnew _ rfl] at hst; cases hst
  | run hp => exact h.run hp
  | add hp hfree => exact h.add hp hfree
  | closeRefused hp | close hp =>
    exact h.callClose (hp ▸ rfl) (hp ▸ rfl) (hp ▸ rfl) rfl
      (by simp [hp]) (by simp)
  | insert hp => exact h.insert hp
  | drop name hp hmap => exact h.drop hp hmap
  | delete hp | drainDelete hp =>
    exact h.delete (hp ▸ rfl) (hp ▸ rfl) rfl (by simp [hp, inManager]) (hp ▸ rfl)
  | takeProxies rest hp hnd hrest => exact h.takeProxies hp hnd hrest
  | @drainClose p rest hp =>
    rw [hp] at hat
    exact h.callClose (hp ▸ rfl) (hp ▸ rfl) (hp ▸ rfl) rfl
      (by simp [hp]) (List.nodup_cons.mp hat.nodup).1

theorem RegistrationStep.other (h : RegistrationStep m s c s') {d : Nat}
    (hd : d ≠ c) : s'.pc d = s.pc d ∧ s'.proxies d = s.proxies d ∧ s'.portsUsedNum d = s.portsUsedNum d := by
  have hu : ∀ {β : Type} (f : Nat → β) (b : β), update f c b d = f d := fun f b => update_of_ne hd b f
  cases h <;> simp only [ProxyWorld.goto, ProxyWorld.count, ProxyWorld.callClose, ProxyWorld.setPxy,
    ProxyWorld.setProxies, hu, and_self]

variable {s : ProxyWorld}

theorem ProxyWorld.inv_of_reach (h : Reach (· = ProxyWorld.init) (RegistrationStep m) s) : s.Inv := by
  apply h.invariant
  · intro s h0
    subst h0; exact Inv.init
  · intro s c s' _ hi hst; exact hst.inv hi

/-! ## Names and owners -/

def ControlPc.closing : ControlPc → List Pxy
  | dropped p | closed p => [p]
  | draining rest => rest
  | drainClosed p rest => p :: rest
  | _ => []

def ProxyWorld.Holds (s : ProxyWorld) (c : Nat) (p : Pxy) : Prop :=
  s.proxies c p.name = some p ∨ p ∈ (s.pc c).closing ∨ s.pc c = .filed p

theorem ControlPc.mem_inManager_iff (q : ControlPc) (p : Pxy) :
    p ∈ q.inManager ↔ p ∈ q.closing ∨ q = .filed p := by
  cases q <;> simp [inManager, closing, eq_comm]

theorem ProxyWorld.Inv.holds_iff (h : s.Inv) {n : Str} {p : Pxy} (hp : s.pxys n = some p) (c : Nat) :
    s.Holds c p ↔ c = p.owner := by
  rw [Holds, ← mem_inManager_iff]
  constructor
  · intro hc
    rcases hc with hmap | hm
    · exact ((h.at_ c).key _ p hmap).2.1.symm
    · exact ((h.at_ c).hand p (inManager_sub _ p hm)).1.symm
  · intro hc
    subst hc; exact ((h.filed n p).mp hp).2

theorem ProxyWorld.Inv.deletes_own (h : s.Inv) {p : Pxy} (hp : p ∈ (s.pc c).inManager) :
    s.pxys p.name = some p := by
  have hown := ((h.at_ c).hand p (inManager_sub _ p hp)).1
  exact (h.filed _ p).mpr ⟨rfl, .inr (by rw [hown]; exact hp)⟩

theorem ProxyWorld.Inv.finished (h : s.Inv) (hc : s.pc c = .finished) :
    (∀ p, s.started p = true → p.owner = c → s.closes p = 1) ∧ ∀ n p, s.pxys n = some p → p.owner ≠ c := by
  have hempty := (h.at_ c).empty (hc ▸ rfl)
  constructor
  · intro p hst hp
    apply h.closed p hst
    rw [hp, hc, LiveAt, hempty]; simp
  · intro n p hn hp
    have hf := ((h.filed n p).mp hn).2
    rw [hp, hc, FiledAt, hempty] at hf; simp [inManager] at hf

/-- A name in the proxy manager is of a proxy that exactly one control holds, `Del` removes the
entry of the closed proxy itself, and a finished worker has closed all of its proxies once. -/
theorem proxy_name_ownership {m : Int} {s : ProxyWorld} (h : Reach (· = ProxyWorld.init) (RegistrationStep m) s) :
    (∀ n p, s.pxys n = some p → p.name = n ∧ ∀ c, s.Holds c p ↔ c = p.owner) ∧
    (∀ c p, s.pc c = .closed p ∨ (∃ rest, s.pc c = .drainClosed p rest) → s.pxys p.name = some p) ∧
    (∀ p, s.registered p = true →
      s.closes p = 0 ∧ LiveAt (s.proxies p.owner) (s.pc p.owner) p ∨
      s.closes p = 1 ∧ ¬ LiveAt (s.proxies p.owner) (s.pc p.owner) p) ∧
    ∀ c, s.pc c = .finished →
      (∀ p, s.registered p = true → p.owner = c → s.closes p = 1) ∧ ∀ n p, s.pxys n = some p → p.owner ≠ c := by
  have hi := ProxyWorld.inv_of_reach h
  refine ⟨?_, ?_, ?_, ?_⟩
  · intro n p hp; exact ⟨((hi.filed n p).mp hp).1, hi.holds_iff hp⟩
  · intro c p hp
    apply hi.deletes_own
    rcases hp with hp | ⟨rest, hp⟩
    · rw [hp]; exact List.mem_cons_self
    · rw [hp]; exact List.mem_cons_self
  · intro p hp
    by_cases hl : LiveAt (s.proxies p.owner) (s.pc p.owner) p
    · exact .inl ⟨hi.live p hl, hl⟩
    · exact .inr ⟨hi.closed p (hi.registered p hp) hl, hl⟩
  · intro c hc
    obtain ⟨hclosed, hgone⟩ := hi.finished hc
    exact ⟨fun p hp => hclosed p (hi.registered p hp), hgone⟩

theorem proxy_name_ownership_second :
    ∃ s, Reach (· = ProxyWorld.init) (RegistrationStep 1) s ∧ s.pc 0 = .finished ∧
      s.pxys (lit "web") = some ⟨2, 1, lit "web", 1⟩ ∧ s.closes ⟨0, 0, lit "web", 1⟩ = 1 ∧
      ∀ c, s.Holds c ⟨2, 1, lit "web", 1⟩ ↔ c = 1 := by
  have h := (.start rfl : Reach (· = ProxyWorld.init) (RegistrationStep 1) _)
    |>.next (.start (c := 0) rfl)
    |>.next (.newProxy (c := 0) (lit "web") 1 rfl)
    |>.next (.counted (c := 0) rfl (by decide))
    |>.next (.notExist (c := 0) rfl rfl)
    |>.next (.run (c := 0) rfl)
    |>.next (.add (c := 0) rfl rfl)
    |>.next (.insert (c := 0) rfl)
    |>.next (.start (c := 1) rfl)
    |>.next (.newProxy (c := 1) (lit "web") 1 rfl)
    |>.next (.counted (c := 1) rfl (by decide))
    |>.next (.exist (c := 1) rfl (by decide))
    |>.next (.refund (c := 1) rfl)
    |>.next (.readError (c := 0) rfl)
    |>.next (.takeProxies (c := 0) [⟨0, 0, lit "web", 1⟩] rfl (by decide) ?_)
  · have h := h.next (.drainClose (c := 0) rfl)
    have h := h
      |>.next (.drainDelete (c := 0) rfl)
      |>.next (.finish (c := 0) rfl)
      |>.next (.newProxy (c := 1) (lit "web") 1 rfl)
      |>.next (.counted (c := 1) rfl (by decide))
      |>.next (.notExist (c := 1) rfl rfl)
      |>.next (.run (c := 1) rfl)
      |>.next (.add (c := 1) rfl rfl)
      |>.next (.insert (c := 1) rfl)
    exact ⟨_, h, rfl, rfl, rfl, ((proxy_name_ownership h).1 (lit "web") _ rfl).2⟩
  · intro p
    constructor
    · intro hp
      obtain rfl := List.mem_singleton.mp hp
      exact ⟨lit "web", rfl⟩
    · intro ⟨n, hn⟩
      change update (fun _ => none) (lit "web") (some ⟨0, 0, lit "web", 1⟩) n = some p at hn
      by_cases hw : n = lit "web"
      · rw [hw, update_self] at hn; cases hn
        exact List.mem_cons_self
      · rw [update_of_ne hw] at hn; cases hn

end Frp
