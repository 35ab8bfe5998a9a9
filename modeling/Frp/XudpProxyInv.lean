import Frp.Slots
import Frp.XudpProxy

/-!
# The tables of the XUDP proxy

Each number given to a connection is with one call of `InWorkConn`: in `pendingConns` while
the call sets up, then in `activeConns` until `finishActive` takes it out.
-/

namespace Frp

open InWorkPc

/-! ## Places of a call -/

namespace InWorkPc

def preId : InWorkPc → Option Nat
  | classifying id | reading id | preparing id | promoting id _ | dropping id | finishing id => some id
  | _ => none

def actId : InWorkPc → Option Nat
  | setup id _ _ | late id _ _ _ | joining id | finishActive id | stopping id | removing id => some id
  | _ => none

def ownId : InWorkPc → Option Nat
  | done id => some id
  | q => q.preId.or q.actId

def counted : InWorkPc → Bool
  | done _ => true
  | q => q.actId.isSome

variable {q : InWorkPc} {id : Nat}

theorem ownId_of_preId (h : q.preId = some id) : q.ownId = some id := by
  cases q <;> simp_all [preId, ownId]

theorem ownId_of_actId (h : q.actId = some id) : q.ownId = some id := by
  cases q <;> simp_all [preId, actId, ownId]

theorem preId_of_actId (h : q.actId = some id) : q.preId = none := by
  cases q <;> simp_all [preId, actId]

theorem counted_of_preId (h : q.preId = some id) : q.counted = false := by
  cases q <;> simp_all [preId, counted, actId]

end InWorkPc

theorem XudpRole.preId_rejected (id : Nat) (role : XudpRole) : (role.rejected id).preId = some id := by
  cases role <;> rfl

theorem XudpRole.actId_rejected (id : Nat) (role : XudpRole) : (role.rejected id).actId = none := by
  cases role <;> rfl

theorem XudpRole.ownId_rejected (id : Nat) (role : XudpRole) : (role.rejected id).ownId = some id := by
  cases role <;> rfl

theorem XudpRole.counted_rejected (id : Nat) (role : XudpRole) : (role.rejected id).counted = false := by
  cases role <;> rfl

/-! ## The tables -/

structure XudpProxy.Tables (s : XudpProxy) : Prop where
  ids : ∀ i id, (s.pc i).ownId = some id → id ≤ s.nextConnID
  inj : ∀ i j id, (s.pc i).ownId = some id → (s.pc j).ownId = some id → i = j
  pending : ∀ id i, (id, i) ∈ s.pendingConns → (s.pc i).preId = some id
  waiting : s.closed = false → ∀ i id, (s.pc i).preId = some id → (id, i) ∈ s.pendingConns
  active : ∀ id i, (id, i) ∈ s.activeConns ↔ (s.pc i).actId = some id
  counted : ∀ i, i ∈ s.counted ↔ (s.pc i).counted = true
  wg : s.activeWG = s.counted.length
  nodup : s.pendingConns.Nodup ∧ s.activeConns.Nodup ∧ s.counted.Nodup

namespace XudpProxy.Tables

variable {s t : XudpProxy}

theorem init (h : s.Init) : s.Tables := by
  subst h
  refine ⟨?_, ?_, ?_, ?_, ?_, ?_, rfl, List.nodup_nil, List.nodup_nil, List.nodup_nil⟩ <;>
    simp [InWorkPc.ownId, InWorkPc.preId, InWorkPc.actId, InWorkPc.counted]

variable {i : Nat}

theorem keep (h : s.Tables) {q : InWorkPc} (hpc : t.pc = Function.update s.pc i q)
    (htab : t.nextConnID = s.nextConnID ∧ t.pendingConns = s.pendingConns ∧ t.activeConns = s.activeConns ∧
      t.activeWG = s.activeWG ∧ t.counted = s.counted ∧ t.closed = s.closed)
    (hown : q.ownId = (s.pc i).ownId) (hpre : q.preId = (s.pc i).preId) (hact : q.actId = (s.pc i).actId)
    (hcnt : q.counted = (s.pc i).counted) : t.Tables := by
  obtain ⟨h1, h2, h3, h4, h5, h6⟩ := htab
  have hsame : ∀ {β : Type} (f : InWorkPc → β), f q = f (s.pc i) → ∀ j, f (t.pc j) = f (s.pc j) := by
    intro β f hf j
    rw [hpc]; exact update_same f hf j
  have e1 := hsame InWorkPc.ownId hown
  have e2 := hsame InWorkPc.preId hpre
  have e3 := hsame InWorkPc.actId hact
  have e4 := hsame InWorkPc.counted hcnt
  refine ⟨?_, ?_, ?_, ?_, ?_, ?_, ?_, ?_⟩
  · simp only [e1, h1]; exact h.ids
  · simp only [e1]; exact h.inj
  · simp only [e2, h2]; exact h.pending
  · simp only [e2, h2, h6]; exact h.waiting
  · simp only [e3, h3]; exact h.active
  · simp only [e4, h5]; exact h.counted
  · rw [h4, h5]; exact h.wg
  · rw [h2, h3, h5]; exact h.nodup

section
variable {i : Nat} {q : InWorkPc}

theorem pc_self : (s.goto i q).pc i = q := Function.update_self ..

theorem pc_of_ne {j : Nat} (hj : j ≠ i) : (s.goto i q).pc j = s.pc j := Function.update_of_ne hj ..

theorem pc_same {β : Type} (f : InWorkPc → β) (hf : f q = f (s.pc i)) (j : Nat) : f ((s.goto i q).pc j) = f (s.pc j) :=
  update_same f hf j

theorem pc_cases (P : InWorkPc → Prop) {j : Nat} (h : P ((s.goto i q).pc j)) : j = i ∧ P q ∨ j ≠ i ∧ P (s.pc j) :=
  update_cases P h

end

theorem register (h : s.Tables) (hp : s.pc i = .start) :
    ((s.registerPending i).goto i (.classifying (s.nextConnID + 1))).Tables := by
  have hfresh : ∀ j, (s.pc j).ownId ≠ some (s.nextConnID + 1) := fun j hj => by
    have := h.ids j _ hj
    omega
  refine ⟨?_, ?_, ?_, ?_, ?_, ?_, h.wg, ?_, h.nodup.2.1, h.nodup.2.2⟩
  · intro j id hj
    rcases pc_cases (fun p => p.ownId = some id) hj with ⟨-, ⟨⟩⟩ | ⟨-, hj⟩
    · exact Nat.le_refl _
    · exact Nat.le_succ_of_le (h.ids j id hj)
  · intro j k id hj hk
    rcases pc_cases (fun p => p.ownId = some id) hj with ⟨rfl, hq⟩ | ⟨-, hq⟩ <;>
      rcases pc_cases (fun p => p.ownId = some id) hk with ⟨rfl, hr⟩ | ⟨-, hr⟩
    · rfl
    · cases hq; exact absurd hr (hfresh k)
    · cases hr; exact absurd hq (hfresh j)
    · exact h.inj j k id hq hr
  · intro id j hj
    rcases List.mem_append.mp hj with hmem | hmem
    · have hji : j ≠ i := by
        rintro rfl
        have := h.pending id j hmem
        rw [hp] at this; cases this
      rw [pc_of_ne hji]; exact h.pending id j hmem
    · cases List.mem_singleton.mp hmem
      rw [pc_self]; rfl
  · intro hc j id hj
    rcases pc_cases (fun p => p.preId = some id) hj with ⟨rfl, ⟨⟩⟩ | ⟨-, hj⟩
    · exact List.mem_append.mpr (.inr (List.mem_singleton.mpr rfl))
    · exact List.mem_append.mpr (.inl (h.waiting hc j id hj))
  · intro id j
    rw [pc_same InWorkPc.actId]
    · exact h.active id j
    · exact (congrArg InWorkPc.actId hp).symm
  · intro j
    rw [pc_same InWorkPc.counted]
    · exact h.counted j
    · exact (congrArg InWorkPc.counted hp).symm
  · refine List.Nodup.append h.nodup.1 (List.nodup_cons.mpr ⟨nofun, List.nodup_nil⟩) ?_
    intro x hx hx'
    cases List.mem_singleton.mp hx'
    exact hfresh i (InWorkPc.ownId_of_preId (h.pending _ _ hx))

variable {id : Nat}

theorem deletePending (h : s.Tables) {q : InWorkPc} (hp : (s.pc i).preId = some id)
    (hown : q.ownId = none ∨ q.ownId = some id) (hpre : s.closed = false → q.preId = none) (hact : q.actId = none)
    (hcnt : q.counted = false) : ((s.deletePending id i).goto i q).Tables := by
  have hpown := InWorkPc.ownId_of_preId hp
  have hnact : (s.pc i).actId = none := by
    cases ha : (s.pc i).actId with
    | none => rfl
    | some => rw [InWorkPc.preId_of_actId ha] at hp; cases hp
  refine ⟨?_, ?_, ?_, ?_, ?_, ?_, h.wg, h.nodup.1.erase _, h.nodup.2⟩
  · intro j id' hj
    rcases pc_cases (fun p => p.ownId = some id') hj with ⟨rfl, hq⟩ | ⟨-, hq⟩
    · rcases hown with ho | ho <;> rw [ho] at hq <;> cases hq
      exact h.ids j id hpown
    · exact h.ids j id' hq
  · have hback : ∀ j id', (((s.deletePending id i).goto i q).pc j).ownId = some id' → (s.pc j).ownId = some id' := by
      intro j id' hj
      rcases pc_cases (fun p => p.ownId = some id') hj with ⟨rfl, hq⟩ | ⟨-, hq⟩
      · rcases hown with ho | ho <;> rw [ho] at hq <;> cases hq
        exact hpown
      · exact hq
    exact fun j k id' hj hk => h.inj j k id' (hback j id' hj) (hback k id' hk)
  · intro id' j hj
    have hmem := List.mem_of_mem_erase hj
    have hji : j ≠ i := by
      rintro rfl
      have heq := h.pending id' j hmem
      rw [hp] at heq; cases heq
      exact h.nodup.1.not_mem_erase hj
    rw [pc_of_ne hji]; exact h.pending id' j hmem
  · intro hc j id' hj
    rcases pc_cases (fun p => p.preId = some id') hj with ⟨-, hj⟩ | ⟨hji, hj⟩
    · rw [hpre hc] at hj; cases hj
    · refine (List.mem_erase_of_ne ?_).mpr (h.waiting hc j id' hj)
      rintro ⟨⟩
      exact hji rfl
  · intro id' j
    rw [pc_same InWorkPc.actId]
    · exact h.active id' j
    · exact (hact.trans hnact.symm)
  · intro j
    rw [pc_same InWorkPc.counted]
    · exact h.counted j
    · exact (hcnt.trans (InWorkPc.counted_of_preId hp).symm)

theorem promote (h : s.Tables) {role : XudpRole} {todo : List XudpRes}
    (hp : s.pc i = .promoting id role) (hmem : (id, i) ∈ s.pendingConns) :
    ((s.activate id i).goto i (.setup id role todo)).Tables := by
  have hact : ∀ id', (id', i) ∉ s.activeConns := fun id' hm => by
    have := (h.active id' i).mp hm
    rw [hp] at this; cases this
  have hcnt : i ∉ s.counted := fun hm => by
    have := (h.counted i).mp hm
    rw [hp] at this; cases this
  have hown : ∀ j, (((s.activate id i).goto i (.setup id role todo)).pc j).ownId = (s.pc j).ownId :=
    pc_same InWorkPc.ownId (congrArg InWorkPc.ownId hp).symm
  refine ⟨?_, ?_, ?_, ?_, ?_, ?_, ?_, h.nodup.1.erase _, ?_, ?_⟩
  · intro j id' hj; exact h.ids j id' (hown j ▸ hj)
  · intro j k id' hj hk; exact h.inj j k id' (hown j ▸ hj) (hown k ▸ hk)
  · intro id' j hj
    have hold := h.pending id' j (List.mem_of_mem_erase hj)
    have hji : j ≠ i := by
      rintro rfl
      rw [hp] at hold; cases hold
      exact h.nodup.1.not_mem_erase hj
    rw [pc_of_ne hji]; exact hold
  · intro hc j id' hj
    rcases pc_cases (fun p => p.preId = some id') hj with ⟨-, ⟨⟩⟩ | ⟨hji, hq⟩
    refine (List.mem_erase_of_ne ?_).mpr (h.waiting hc j id' hq)
    rintro ⟨⟩
    exact hji rfl
  · intro id' j
    by_cases hj : j = i
    · subst hj
      rw [pc_self]
      simp only [goto, activate, List.mem_append, List.mem_singleton, InWorkPc.actId, hact id', false_or,
        Prod.mk.injEq, and_true, Option.some.injEq]
      exact eq_comm
    · rw [pc_of_ne hj]
      simp only [goto, activate, List.mem_append, List.mem_singleton, Prod.mk.injEq, hj, and_false, or_false]
      exact h.active id' j
  · intro j
    by_cases hj : j = i
    · subst hj
      rw [pc_self]; simp [goto, activate, InWorkPc.counted, InWorkPc.actId]
    · rw [pc_of_ne hj]
      simp only [goto, activate, List.mem_append, List.mem_singleton, hj, or_false]
      exact h.counted j
  · simp only [goto, activate, h.wg, List.length_append, List.length_singleton]; omega
  · refine h.nodup.2.1.append (List.nodup_cons.mpr ⟨nofun, List.nodup_nil⟩) ?_
    intro x hx hx'
    cases List.mem_singleton.mp hx'
    exact hact id hx
  · refine h.nodup.2.2.append (List.nodup_cons.mpr ⟨nofun, List.nodup_nil⟩) ?_
    intro x hx hx'
    cases List.mem_singleton.mp hx'
    exact hcnt hx

theorem deleteActive (h : s.Tables) (hp : s.pc i = .removing id) :
    ((s.deleteActive id i).goto i (.done id)).Tables := by
  have hown : ∀ j, (((s.deleteActive id i).goto i (.done id)).pc j).ownId = (s.pc j).ownId :=
    pc_same InWorkPc.ownId (congrArg InWorkPc.ownId hp).symm
  have hpre : ∀ j, (((s.deleteActive id i).goto i (.done id)).pc j).preId = (s.pc j).preId :=
    pc_same InWorkPc.preId (congrArg InWorkPc.preId hp).symm
  refine ⟨?_, ?_, ?_, ?_, ?_, ?_, h.wg, h.nodup.1, h.nodup.2.1.erase _, h.nodup.2.2⟩
  · simp only [hown]; exact h.ids
  · simp only [hown]; exact h.inj
  · simp only [hpre]; exact h.pending
  · simp only [hpre]; exact h.waiting
  · intro id' j
    by_cases hj : j = i
    · subst hj
      rw [pc_self]
      refine iff_of_false (fun hm => ?_) nofun
      have hold := (h.active id' j).mp (List.mem_of_mem_erase hm)
      rw [hp] at hold; cases hold
      exact h.nodup.2.1.not_mem_erase hm
    · rw [pc_of_ne hj]
      refine Iff.trans ?_ (h.active id' j)
      refine List.mem_erase_of_ne ?_
      rintro ⟨⟩
      exact hj rfl
  · intro j
    rw [pc_same InWorkPc.counted]
    · exact h.counted j
    · exact (congrArg InWorkPc.counted hp).symm

theorem wgDone (h : s.Tables) (hp : s.pc i = .done id) : ((s.wgDone i).goto i .returned).Tables := by
  have hmem : i ∈ s.counted := (h.counted i).mpr (hp ▸ rfl)
  have hback : ∀ {β : Type} (f : InWorkPc → Option β) (j : Nat) (x : β), f .returned = none →
      f (((s.wgDone i).goto i .returned).pc j) = some x → f (s.pc j) = some x := by
    intro β f j x hf hj
    rcases pc_cases (fun p => f p = some x) hj with ⟨-, hq⟩ | ⟨-, hq⟩
    · rw [hf] at hq; cases hq
    · exact hq
  refine ⟨?_, ?_, ?_, ?_, ?_, ?_, ?_, h.nodup.1, h.nodup.2.1, h.nodup.2.2.erase _⟩
  · exact fun j id' hj => h.ids j id' (hback ownId j id' rfl hj)
  · exact fun j k id' hj hk => h.inj j k id' (hback ownId j id' rfl hj) (hback ownId k id' rfl hk)
  · intro id' j hj
    have hold := h.pending id' j hj
    have hji : j ≠ i := by
      rintro rfl
      rw [hp] at hold; cases hold
    rw [pc_of_ne hji]; exact hold
  · exact fun hc j id' hj => h.waiting hc j id' (hback preId j id' rfl hj)
  · intro id' j
    by_cases hj : j = i
    · subst hj
      rw [pc_self]
      refine iff_of_false (fun hm => ?_) nofun
      have hold := (h.active id' j).mp hm
      rw [hp] at hold; cases hold
    · rw [pc_of_ne hj]; exact h.active id' j
  · intro j
    by_cases hj : j = i
    · subst hj
      rw [pc_self]; exact iff_of_false h.nodup.2.2.not_mem_erase nofun
    · rw [pc_of_ne hj]; exact (List.mem_erase_of_ne hj).trans (h.counted j)
  · have hlen := List.length_erase_of_mem hmem
    have hpos := List.length_pos_of_mem hmem
    simp only [goto, XudpProxy.wgDone, h.wg, hlen]; omega

end XudpProxy.Tables

open XudpProxy

theorem XudpStep.tables {s t : XudpProxy} {e : XudpEvent} (hst : XudpStep s e t) (h : s.Tables) : t.Tables := by
  cases hst with
  | register hp => exact h.register hp
  | promoteClosed id role hp _ hc =>
    refine h.deletePending (hp ▸ rfl) (.inr (role.ownId_rejected id)) (fun hf => ?_) (role.actId_rejected id)
      (role.counted_rejected id)
    rw [hc] at hf; cases hf
  | promote id role hp hmem =>
    have hp : (s.activate id _ |>.goto _ (.setup id role role.closers)).Tables := h.promote hp hmem
    exact { hp with }
  | finishPending id hp => exact h.deletePending (hp ▸ rfl) (.inl rfl) (fun _ => rfl) rfl rfl
  | deleteActive id hp => exact h.deleteActive hp
  | wgDone id hp => exact h.wgDone hp
  | promoteMissing id role hp =>
    refine h.keep rfl ⟨rfl, rfl, rfl, rfl, rfl, rfl⟩ ?_ ?_ ?_ ?_ <;> rw [hp]
    · exact role.ownId_rejected id
    · exact role.preId_rejected id
    · exact role.actId_rejected id
    · exact role.counted_rejected id
  | runLate id role r todo hp =>
    cases r <;> exact h.keep rfl ⟨rfl, rfl, rfl, rfl, rfl, rfl⟩ (hp ▸ rfl) (hp ▸ rfl) (hp ▸ rfl) (hp ▸ rfl)
  | call hp | refuse hp | closeRefused hp | classifyFails id hp | relay id hp | p2p id hp | sidFails id hp | sid id hp
  | prepareFails id hp | prepare id hp | dropListenConn id hp | closeConn hp | addCloser id role r todo hp
  | addStopped id role r todo hp | sameSocket id role todo hp | setupFails id role todo hp | spawn id role hp
  | join id hp | stop id hp | stopAgain id hp | stopped id hp =>
    exact h.keep rfl ⟨rfl, rfl, rfl, rfl, rfl, rfl⟩ (hp ▸ rfl) (hp ▸ rfl) (hp ▸ rfl) (hp ▸ rfl)
  | snapshot => exact { h with waiting := nofun }
  | runCloser id r | workerCloser w r | activeCloser i active r => cases r <;> exact { h with }
  | workerStop | workerStopAgain | workerStopped | closeFirst | closeNext | closeReturns | closePending | pendingClosed
  | stopActive | stopActiveAgain | activeStopped | wait | baseClose => exact { h with }

end Frp
