import Frp.Ports

/-!
# The ports in use

Free and used ports stay apart and are together the allowed ones. A successful `Acquire`
takes a free port, or the port remembered for its name as soon as it is available.
-/

namespace Frp

open Function

theorem mem_of_pickPort {probe : Nat → Int → Bool} {p : Int} :
    ∀ {order : List Int} {count : Nat}, pickPort probe count order = some p → p ∈ order := by
  intro order
  induction order with
  | nil => intro count h; cases h
  | cons k ks ih =>
    intro count h
    unfold pickPort at h
    split_ifs at h
    · cases h; exact List.mem_cons_self
    · exact List.mem_cons_of_mem k (ih h)

namespace PortManager

variable {pm : PortManager} {allowed : Int → Bool}

structure Inv (allowed : Int → Bool) (pm : PortManager) : Prop where
  disjoint : ∀ p, pm.freePorts p = true → pm.usedPorts p = none
  union : ∀ p, pm.freePorts p = true ∨ (pm.usedPorts p).isSome = true ↔ allowed p = true
  reserved : ∀ name p, pm.remembered name = some p → allowed p = true
  fresh : ∀ name ctx, pm.reservedPorts name = some ctx → ctx < pm.next

theorem take_remembered (pm : PortManager) (name other : Str) (port now : Int)
    (h : ∀ ctx, pm.reservedPorts other = some ctx → ctx < pm.next) :
    (pm.take name port now).remembered other = if other = name then some port else pm.remembered other := by
  unfold remembered take markPortAcquiredLocked
  by_cases hn : other = name
  · simp [hn]
  · simp only [update_of_ne hn, if_neg hn]
    cases hr : pm.reservedPorts other with
    | none => rfl
    | some ctx =>
      have hlt := h ctx hr
      simp [update_of_ne (Nat.ne_of_lt hlt)]

theorem Inv.take (h : Inv allowed pm) {name : Str} {port now : Int} (hp : allowed port = true) :
    Inv allowed (pm.take name port now) where
  disjoint p := by
    intro hf
    by_cases hpp : p = port
    · subst hpp; simp [PortManager.take, markPortAcquiredLocked] at hf
    · simp only [PortManager.take, markPortAcquiredLocked, update_of_ne hpp] at hf ⊢
      exact h.disjoint p hf
  union p := by
    by_cases hpp : p = port
    · subst hpp; simp [PortManager.take, markPortAcquiredLocked, hp]
    · simp only [PortManager.take, markPortAcquiredLocked, update_of_ne hpp]; exact h.union p
  reserved other p hr := by
    rw [take_remembered pm name other port now (h.fresh other)] at hr
    split_ifs at hr
    · cases hr; exact hp
    · exact h.reserved other p hr
  fresh other ctx hr := by
    simp only [PortManager.take, markPortAcquiredLocked] at hr ⊢
    by_cases hn : other = name
    · subst hn
      rw [update_self] at hr; cases hr
      omega
    · rw [update_of_ne hn] at hr
      have := h.fresh other ctx hr
      omega

inductive Outcome (pm : PortManager) (name : Str) (port now : Int) (probe : Nat → Int → Bool) :
    PortManager × Except PortError Int → Prop
  | remembered {p} : port = 0 → pm.remembered name = some p → probe 0 p = true →
      Outcome pm name port now probe (pm.take name p now, .ok p)
  | free {p r} : (port = 0 → ∀ q, pm.remembered name = some q → probe 0 q = false) → pm.freePorts p = true →
      r = (if p = 0 then .error .noAvailable else .ok p) →
      Outcome pm name port now probe (pm.take name p now, r)
  | refused {e} : Outcome pm name port now probe (pm, .error e)

inductive Taken (pm : PortManager) (name : Str) (port now : Int) (order : List Int) (probe : Nat → Int → Bool) :
    PortManager × Except PortError Int → Prop
  | remembered {p} : port = 0 → pm.remembered name = some p → probe 0 p = true →
      Taken pm name port now order probe (pm.take name p now, .ok p)
  | picked {k} : port = 0 → (∀ q, pm.remembered name = some q → probe 0 q = false) → pickPort probe 0 order = some k →
      Taken pm name port now order probe (pm.take name k now, if k = 0 then .error .noAvailable else .ok k)
  | asked : port ≠ 0 → pm.freePorts port = true → probe 0 port = true →
      Taken pm name port now order probe (pm.take name port now, .ok port)
  | refused {e} : (port = 0 → (∀ q, pm.remembered name = some q → probe 0 q = false) ∧ pickPort probe 0 order = none) →
      (pm.freePorts port = true → probe 0 port = true → port = 0) →
      Taken pm name port now order probe (pm, .error e)

variable {order : List Int}

theorem acquireRandom_taken {name : Str} {now : Int} {probe : Nat → Int → Bool}
    (hr : ∀ q, pm.remembered name = some q → probe 0 q = false) :
    Taken pm name 0 now order probe (pm.acquireRandom name now order probe) := by
  unfold acquireRandom
  cases hk : pickPort probe 0 order with
  | none => exact .refused (fun _ => ⟨hr, hk⟩) (fun _ _ => rfl)
  | some => exact .picked rfl hr hk

theorem acquire_taken (pm : PortManager) (name : Str) (port now : Int) (order : List Int)
    (probe : Nat → Int → Bool) : Taken pm name port now order probe (pm.acquire name port now order probe) := by
  unfold acquire
  by_cases h0 : port = 0
  · subst h0
    rw [if_pos rfl]
    cases hrem : pm.remembered name with
    | none =>
      apply acquireRandom_taken
      intro q hq
      rw [hrem] at hq; cases hq
    | some p =>
      by_cases hp : probe 0 p = true
      · simp only [hp, if_true]; exact .remembered rfl hrem hp
      · simp only [hp]
        apply acquireRandom_taken
        intro q hq
        rw [hrem] at hq; cases hq
        simpa using hp
  · rw [if_neg h0]
    split_ifs with hfree hp hused
    · exact .asked h0 hfree hp
    · exact .refused (fun h => absurd h h0) (fun _ h => absurd h hp)
    · exact .refused (fun h => absurd h h0) (fun h => absurd h hfree)
    · exact .refused (fun h => absurd h h0) (fun h => absurd h hfree)

theorem acquire_outcome (ho : pm.FreeOrder order) (name : Str) (port now : Int)
    (probe : Nat → Int → Bool) : Outcome pm name port now probe (pm.acquire name port now order probe) := by
  have htaken := acquire_taken pm name port now order probe
  generalize pm.acquire name port now order probe = r at htaken ⊢
  cases htaken with
  | remembered h0 hrem hp => exact .remembered h0 hrem hp
  | picked h0 hr hk => exact .free (fun _ => hr) ((ho.mem _).mp (mem_of_pickPort hk)) rfl
  | asked h0 hf => exact .free (fun h => absurd h h0) hf (by rw [if_neg h0])
  | refused => exact .refused

theorem Inv.new (allowPorts : List PortsRange) : Inv (allowedPort allowPorts) (PortManager.new allowPorts) where
  disjoint _ _ := rfl
  union p := by simp [PortManager.new]
  reserved _ _ h := by cases h
  fresh _ _ h := by cases h

theorem Inv.acquire (h : Inv allowed pm) (ho : pm.FreeOrder order) (name : Str) (port now : Int)
    (probe : Nat → Int → Bool) : Inv allowed (pm.acquire name port now order probe).1 := by
  have hout := acquire_outcome ho name port now probe
  generalize pm.acquire name port now order probe = r at hout ⊢
  cases hout with
  | remembered _ hr => exact h.take (h.reserved _ _ hr)
  | free _ hf => exact h.take ((h.union _).mp (.inl hf))
  | refused => exact h

theorem Inv.release (h : Inv allowed pm) (port now : Int) : Inv allowed (pm.release port now) := by
  unfold PortManager.release
  cases hu : pm.usedPorts port with
  | none => exact h
  | some ctx =>
    refine ⟨?_, ?_, ?_, h.fresh⟩
    · intro p hf
      by_cases hp : p = port
      · subst hp; simp
      · simp only [update_of_ne hp] at hf ⊢; exact h.disjoint p hf
    · intro p
      by_cases hp : p = port
      · subst hp
        have hall := (h.union p).mp (.inr (hu ▸ rfl))
        simp [hall]
      · simp only [update_of_ne hp]; exact h.union p
    · intro name p hr
      apply h.reserved name p
      rw [← hr]
      unfold remembered
      cases hn : pm.reservedPorts name with
      | none => rfl
      | some c =>
        by_cases hc : c = ctx
        · subst hc; simp
        · simp [update_of_ne hc]

theorem Inv.cleanReservedPortsOnce (h : Inv allowed pm) (now : Int) : Inv allowed (pm.cleanReservedPortsOnce now) := by
  have hsub : ∀ name ctx, (pm.cleanReservedPortsOnce now).reservedPorts name = some ctx →
      pm.reservedPorts name = some ctx := by
    intro name ctx hc
    unfold PortManager.cleanReservedPortsOnce at hc
    cases hr : pm.reservedPorts name with
    | none => simp [hr] at hc
    | some =>
      simp only [hr] at hc
      split_ifs at hc
      exact hc
  refine ⟨h.disjoint, h.union, ?_, fun name ctx hc => h.fresh name ctx (hsub name ctx hc)⟩
  intro name p hr
  obtain ⟨ctx, hctx, rfl⟩ := Option.map_eq_some_iff.mp hr
  exact h.reserved name _ (Option.map_eq_some_iff.mpr ⟨ctx, hsub name ctx hctx, rfl⟩)

end PortManager

open PortManager

variable {allowed : Int → Bool}

theorem PortStep.inv {pm pm' : PortManager} {call : PortCall} (h : pm.Inv allowed)
    (hst : PortStep pm call pm') : pm'.Inv allowed := by
  cases hst with
  | acquire ho => exact h.acquire ho _ _ _ _
  | release => exact h.release _ _
  | cleanReservedPortsOnce => exact h.cleanReservedPortsOnce _

variable {pm : PortManager}

theorem PortManager.inv_of_reach {allowPorts : List PortsRange}
    (hr : Reach (· = PortManager.new allowPorts) PortStep pm) : pm.Inv (allowedPort allowPorts) := by
  apply hr.invariant
  · intro pm h0
    subst h0; exact Inv.new allowPorts
  · intro pm call pm' _ h hst; exact hst.inv h

theorem PortManager.Inv.free_iff (h : pm.Inv allowed) {p : Int}
    (hp : allowed p = true) : pm.freePorts p = true ↔ (pm.usedPorts p).isSome = false := by
  constructor
  · intro hf
    rw [h.disjoint p hf]; rfl
  · intro hu
    rcases (h.union p).mpr hp with hf | hu'
    · exact hf
    · rw [hu] at hu'; cases hu'

/-- Free and used ports partition the allowed ones; a port that `Acquire` returns was free, unless
it was the one remembered for the name, available and in use. -/
theorem port_exclusive_iff (allowPorts : List PortsRange) {pm : PortManager}
    (hr : Reach (· = PortManager.new allowPorts) PortStep pm) :
    (∀ p, ¬ (pm.freePorts p = true ∧ (pm.usedPorts p).isSome = true)) ∧
    (∀ p, pm.freePorts p = true ∨ (pm.usedPorts p).isSome = true ↔ allowedPort allowPorts p = true) ∧
    ∀ name port now order probe p, pm.FreeOrder order → (pm.acquire name port now order probe).2 = .ok p →
      (pm.freePorts p = true ↔
        ¬ (port = 0 ∧ ∃ q, pm.remembered name = some q ∧ (pm.usedPorts q).isSome = true ∧ probe 0 q = true)) := by
  have h := PortManager.inv_of_reach hr
  refine ⟨?_, h.union, ?_⟩
  · intro p hp
    rw [h.disjoint p hp.1] at hp; cases hp.2
  · intro name port now order probe p ho hok
    have hout := acquire_outcome ho name port now probe
    generalize pm.acquire name port now order probe = r at hout hok
    cases hout with
    | @remembered q h0 hrem hprobe =>
      cases hok
      rw [h.free_iff (h.reserved name p hrem)]
      constructor
      · intro hu hbad
        obtain ⟨-, q, hq, hused, -⟩ := hbad
        rw [hrem] at hq; cases hq
        rw [hu] at hused; cases hused
      · intro hgood
        by_contra hu
        exact hgood ⟨h0, p, hrem, by rwa [Bool.not_eq_false] at hu, hprobe⟩
    | @free q r hno hf hr =>
      have hqp : q = p := by
        split_ifs at hr
        · rw [hr] at hok; cases hok
        · rw [hr] at hok; exact Except.ok.inj hok
      subst hqp
      refine ⟨fun _ hbad => ?_, fun _ => hf⟩
      obtain ⟨h0, q', hq', -, hprobe⟩ := hbad
      rw [hno h0 q' hq'] at hprobe; cases hprobe
    | refused => cases hok

def onePort : List PortsRange := [⟨0, 0, 6000⟩]

theorem onePort_order (h : Reach (· = PortManager.new onePort) PortStep pm) :
    (pm.freePorts 6000 = true → pm.FreeOrder [6000]) ∧ (pm.freePorts 6000 = false → pm.FreeOrder []) := by
  have hfree : ∀ p, pm.freePorts p = true → p = 6000 := by
    intro p hp
    have hall := ((PortManager.inv_of_reach h).union p).mp (.inl hp)
    simpa [allowedPort, onePort, PortsRange.contains] using hall
  constructor
  · intro h6000
    refine ⟨by simp, fun p => ?_⟩
    rw [List.mem_singleton]; exact ⟨fun hp => hp ▸ h6000, hfree p⟩
  · intro h6000
    refine ⟨by simp, fun p => ?_⟩
    constructor
    · intro hp; cases hp
    · intro hp
      rw [hfree p hp, h6000] at hp; cases hp

theorem port_exclusive_again : ∃ pm, Reach (· = PortManager.new onePort) PortStep pm ∧
    pm.remembered (lit "ssh") = some 6000 ∧ (pm.acquire (lit "ssh") 0 2 [6000] fun _ _ => true).2 = .ok 6000 ∧
    ¬ ((0 : Int) = 0 ∧ ∃ q, pm.remembered (lit "ssh") = some q ∧ (pm.usedPorts q).isSome = true ∧ true = true) := by
  have h : Reach (· = PortManager.new onePort) PortStep _ := .start rfl
  have h := h.next (@PortStep.acquire _ (lit "ssh") 6000 0 [6000] (fun _ _ => true) ((onePort_order h).1 rfl))
  have h := h.next (@PortStep.release _ 6000 1)
  have hfree := (port_exclusive_iff onePort h).2.2 (lit "ssh") 0 2 [6000] (fun _ _ => true) 6000
    ((onePort_order h).1 rfl) rfl
  exact ⟨_, h, rfl, rfl, hfree.mp rfl⟩

theorem remembered_port_taken_twice :
    ∃ pm, Reach (· = PortManager.new onePort) PortStep pm ∧ pm.FreeOrder [] ∧
      (pm.usedPorts 6000).isSome = true ∧ pm.freePorts 6000 = false ∧
      (pm.acquire (lit "ssh") 0 3 [] fun _ _ => true).2 = .ok 6000 := by
  have h : Reach (· = PortManager.new onePort) PortStep _ := .start rfl
  have h := h.next (@PortStep.acquire _ (lit "ssh") 6000 0 [6000] (fun _ _ => true) ((onePort_order h).1 rfl))
  have h := h.next (@PortStep.release _ 6000 1)
  have h := h.next (@PortStep.acquire _ (lit "dns") 6000 2 [6000] (fun _ _ => true) ((onePort_order h).1 rfl))
  exact ⟨_, h, (onePort_order h).2 rfl, rfl, rfl, rfl⟩

end Frp
