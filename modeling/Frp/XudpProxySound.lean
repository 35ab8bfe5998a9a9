import Frp.Fair
import Frp.XudpProxyCalls

/-!
# Who owns the connections of the XUDP proxy

`Close` returns when no call is left that it has to wait for, and every connection
handed to `InWorkConn` until then is closed, or its own call is about to close it.
-/

namespace Frp

open Function

namespace XudpClosePc

def past : XudpClosePc → Bool
  | idle | start => false
  | _ => true

def waited : XudpClosePc → Bool
  | base | done => true
  | _ => false

def conns : XudpClosePc → List Nat
  | pending l _ => l
  | _ => []

end XudpClosePc

open InWorkPc

namespace XudpProxy

variable {s t : XudpProxy}

structure Moves (s t : XudpProxy) : Prop where
  close : t.close = s.close ∧ t.closed = s.closed ∧ t.closeCalls = s.closeCalls
  before : ∀ i, (s.pc i).before = false → (t.pc i).before = false
  preId : s.closed = true → ∀ i id, (t.pc i).preId = some id → (s.pc i).preId = some id
  conn : ∀ i, s.connClosed i = true → t.connClosed i = true
  counted : s.closed = true → ∀ i ∈ t.counted, i ∈ s.counted

theorem connClosed_closeConn {i j : Nat} (h : s.connClosed j = true) : (s.closeConn i).connClosed j = true := by
  exact update_keeps (· = true) h fun _ => rfl

theorem Moves.trans {u : XudpProxy} (h : Moves s t) (h' : Moves t u) : Moves s u := by
  have hc : s.closed = true → t.closed = true := fun hc => h.close.2.1.trans hc
  refine ⟨⟨h'.close.1.trans h.close.1, h'.close.2.1.trans h.close.2.1, h'.close.2.2.trans h.close.2.2⟩, ?_, ?_, ?_, ?_⟩
  · exact fun i hi => h'.before i (h.before i hi)
  · exact fun hs i id hi => h.preId hs i id (h'.preId (hc hs) i id hi)
  · exact fun i hi => h'.conn i (h.conn i hi)
  · exact fun hs i hi => h.counted hs i (h'.counted (hc hs) i hi)

theorem Moves.closer (s : XudpProxy) (i : Nat) (r : XudpRes) (lc : XudpLifecycle) :
    Moves s ((s.closeRes i r).setLc i lc) := by
  refine ⟨?_, ?_, ?_, fun j hj => ?_, ?_⟩
  · cases r <;> exact ⟨rfl, rfl, rfl⟩
  · cases r <;> exact fun _ h => h
  · cases r <;> exact fun _ _ _ h => h
  · cases r <;> first | exact connClosed_closeConn hj | exact hj
  · cases r <;> exact fun _ _ h => h

theorem Moves.of_pc {i : Nat} {p q : InWorkPc} (hp : s.pc i = p) (hpc : t.pc = update s.pc i q)
    (hclose : t.close = s.close ∧ t.closed = s.closed ∧ t.closeCalls = s.closeCalls)
    (hbefore : p.before = false → q.before = false)
    (hpre : s.closed = true → ∀ id, q.preId = some id → p.preId = some id)
    (hconn : ∀ i, s.connClosed i = true → t.connClosed i = true)
    (hcounted : s.closed = true → ∀ i ∈ t.counted, i ∈ s.counted) : Moves s t := by
  subst hp
  refine ⟨hclose, fun j hj => ?_, fun hc j id hj => ?_, hconn, hcounted⟩
  · rw [hpc]; exact update_keeps (InWorkPc.before · = false) hj hbefore
  · rw [hpc] at hj
    rcases update_cases (InWorkPc.preId · = some id) hj with ⟨rfl, hin⟩ | ⟨-, hin⟩
    · exact hpre hc id hin
    · exact hin

end XudpProxy

open XudpProxy

variable {s t : XudpProxy}

theorem XudpStep.moves_call {i : Nat} (hst : XudpStep s (.call i) t) : Moves s t := by
  cases hst with
  | register hp hc =>
    refine .of_pc hp rfl ⟨rfl, rfl, rfl⟩ nofun (fun hcl => ?_) (fun _ h => h) fun _ _ h => h
    rw [hc] at hcl; cases hcl
  | closeRefused hp | closeConn hp =>
    exact .of_pc hp rfl ⟨rfl, rfl, rfl⟩ (fun _ => rfl) (fun _ _ => nofun) (fun _ h => connClosed_closeConn h)
      fun _ _ h => h
  | promoteMissing id role hp | promoteClosed id role hp =>
    refine .of_pc hp rfl ⟨rfl, rfl, rfl⟩ nofun (fun _ id' h => ?_) (fun _ h => h) fun _ _ h => h
    rw [role.preId_rejected] at h; exact h
  | promote id role hp _ hc =>
    refine .of_pc hp rfl ⟨rfl, rfl, rfl⟩ nofun (fun _ _ => nofun) (fun _ h => h) fun hcl => ?_
    have hcl : s.closed = true := hcl
    rw [hc] at hcl; cases hcl
  | runLate id role r todo hp =>
    have hp' : ((s.closeRes i r).setLc i ((s.lc i).runLate r)).pc i = .late id role r todo := by
      cases r <;> exact hp
    exact (Moves.closer s i r _).trans (.of_pc hp' rfl ⟨rfl, rfl, rfl⟩ (fun h => h) (fun _ _ h => h) (fun _ h => h)
      fun _ _ h => h)
  | runCloser => exact .closer ..
  | finishPending id hp =>
    exact .of_pc hp rfl ⟨rfl, rfl, rfl⟩ (fun h => h) (fun _ _ => nofun) (fun _ h => h) fun _ _ h => h
  | wgDone id hp =>
    exact .of_pc hp rfl ⟨rfl, rfl, rfl⟩ (fun _ => rfl) (fun _ _ => nofun) (fun _ h => h)
      fun _ _ h => List.mem_of_mem_erase h
  | call hp | refuse hp | classifyFails id hp | relay id hp | p2p id hp | sidFails id hp | sid id hp
  | prepareFails id hp
  | prepare id hp | dropListenConn id hp | addCloser id role r todo hp
  | addStopped id role r todo hp | sameSocket id role todo hp | setupFails id role todo hp | spawn id role hp
  | join id hp | stop id hp | stopAgain id hp | stopped id hp | deleteActive id hp =>
    exact .of_pc hp rfl ⟨rfl, rfl, rfl⟩ (fun h => h) (fun _ _ h => h) (fun _ h => h) fun _ _ h => h

theorem XudpStep.moves_worker {i w : Nat} (hst : XudpStep s (.worker i w) t) : Moves s t := by
  cases hst with
  | workerCloser => exact .closer ..
  | workerStop | workerStopAgain | workerStopped =>
    exact ⟨⟨rfl, rfl, rfl⟩, fun _ h => h, fun _ _ _ h => h, fun _ h => h, fun _ _ h => h⟩

/-! ## Close -/

structure XudpProxy.CloseInv (s : XudpProxy) : Prop where
  closed : s.closed = s.close.past
  actives : ∀ i ∈ s.close.actives, (s.pc i).before = false
  conns : s.closed = true → ∀ i id, (s.pc i).preId = some id → s.connClosed i = true ∨ i ∈ s.close.conns
  zero : s.close.waited = true → s.counted = []
  calls : ∀ j, s.closeCalls j = .returned → s.close = .done

namespace XudpProxy.CloseInv

theorem init (h : s.Init) : s.CloseInv := by
  subst h; exact ⟨rfl, nofun, nofun, nofun, nofun⟩

theorem moves (h : s.CloseInv) (hm : Moves s t) : t.CloseInv := by
  obtain ⟨h1, h2, h3⟩ := hm.close
  refine ⟨?_, ?_, ?_, ?_, ?_⟩ <;> simp only [h1, h2, h3]
  · exact h.closed
  · exact fun i hi => hm.before i (h.actives i hi)
  · intro hc i id hi; exact (h.conns hc i id (hm.preId hc i id hi)).imp_left (hm.conn i)
  · intro hw
    have hc : s.closed = true := by
      rw [h.closed]
      cases hcl : s.close <;> rw [hcl] at hw <;> first | rfl | cases hw
    exact List.eq_nil_iff_forall_not_mem.mpr fun i hi => by
      have := hm.counted hc i hi
      rw [h.zero hw] at this; cases this
  · exact h.calls

theorem not_returned (h : s.CloseInv) (hc : s.close ≠ .done) (j : Nat) : s.closeCalls j ≠ .returned :=
  fun hj => hc (h.calls j hj)

theorem calls_waiting (h : s.CloseInv) (hc : s.close ≠ .done) (j : Nat) :
    ∀ k, update s.closeCalls j .waiting k ≠ .returned := by
  intro k; exact update_keeps (· ≠ CloseCallPc.returned) (h.not_returned hc k) fun _ => nofun

end XudpProxy.CloseInv

variable {e : XudpEvent}

theorem XudpStep.closeInv (hst : XudpStep s e t) (htab : s.Tables) (h : s.CloseInv) : t.CloseInv := by
  cases e with
  | call => exact h.moves hst.moves_call
  | worker => exact h.moves hst.moves_worker
  | closeCall j =>
    cases hst with
    | closeFirst _ hc =>
      have hcl := h.closed
      rw [hc] at hcl
      refine ⟨hcl, nofun, fun hf => ?_, nofun, fun k hk => ?_⟩
      · have hf : s.closed = true := hf
        rw [hcl] at hf; cases hf
      · exact absurd hk (h.calls_waiting (by rw [hc]; nofun) j k)
    | closeNext =>
      refine { h with calls := fun k hk => ?_ }
      by_cases hkj : k = j
      · subst hkj
        cases (update_self k CloseCallPc.waiting s.closeCalls).symm.trans hk
      · exact h.calls k ((update_of_ne hkj ..).symm.trans hk)
    | closeReturns _ hc => exact { h with calls := fun _ _ => hc }
  | close =>
    cases hst with
    | snapshot conns active hc hconns hactive =>
      refine ⟨rfl, fun i hi => ?_, fun _ i id hi => .inr ?_, nofun, fun j hj => ?_⟩
      · obtain ⟨⟨id, j⟩, hm, rfl⟩ := List.mem_map.mp (hactive.subset hi)
        have hact := (htab.active id j).mp hm
        cases hp : s.pc j <;> rw [hp] at hact <;> first | (cases hact; done) | rfl
      · have hcl := h.closed
        rw [hc] at hcl
        exact hconns.symm.subset (List.mem_map.mpr ⟨_, htab.waiting hcl i id hi, rfl⟩)
      · exact absurd hj (h.not_returned (by rw [hc]; nofun) j)
    | closePending i conns active hc =>
      have hcl := h.closed
      have hact := h.actives
      have hcs := h.conns
      rw [hc] at hcl hact hcs
      refine ⟨hcl, hact, fun hs j id hj => ?_, nofun, fun j hj => ?_⟩
      · by_cases hji : j = i
        · exact .inl (by rw [hji]; exact update_self ..)
        · refine (hcs hs j id hj).imp connClosed_closeConn fun hm => ?_
          exact (List.mem_cons.mp hm).resolve_left hji
      · exact absurd hj (h.not_returned (by rw [hc]; nofun) j)
    | pendingClosed active hc | stopActiveAgain i active hc =>
      have hcl := h.closed
      have hact := h.actives
      have hcs := h.conns
      rw [hc] at hcl hact hcs
      refine ⟨hcl, fun i hi => hact i ?_, hcs, nofun, fun j hj => ?_⟩
      · first | exact hi | exact List.mem_cons_of_mem _ hi
      · exact absurd hj (h.not_returned (by rw [hc]; nofun) j)
    | stopActive i active hc =>
      have hcl := h.closed
      have hact := h.actives
      have hcs := h.conns
      rw [hc] at hcl hact hcs
      exact ⟨hcl, hact, hcs, nofun, fun j hj => absurd hj (h.not_returned (by rw [hc]; nofun) j)⟩
    | activeCloser => exact h.moves (.closer ..)
    | activeStopped i active hc =>
      have hcl := h.closed
      have hact := h.actives
      have hcs := h.conns
      rw [hc] at hcl hact hcs
      exact ⟨hcl, fun j hj => hact j (List.mem_cons_of_mem _ hj), hcs, nofun,
        fun j hj => absurd hj (h.not_returned (by rw [hc]; nofun) j)⟩
    | wait hc =>
      have hcl := h.closed
      have hcs := h.conns
      rw [hc] at hcl hcs
      refine ⟨hcl, nofun, hcs, fun _ => ?_, fun j hj => absurd hj (h.not_returned (by rw [hc]; nofun) j)⟩
      have hlen : s.counted.length = 0 := by
        have := htab.wg
        omega
      exact List.length_eq_zero_iff.mp hlen
    | baseClose hc =>
      have hcl := h.closed
      have hcs := h.conns
      have hz := h.zero
      rw [hc] at hcl hcs hz; exact ⟨hcl, nofun, hcs, hz, fun j hj => rfl⟩

/-! ## Reachable states -/

structure XudpProxy.Inv (s : XudpProxy) : Prop where
  tables : s.Tables
  calls : s.CallsOk
  close : s.CloseInv

theorem XudpProxy.CallsOk.init (h : s.Init) : s.CallsOk := by
  subst h
  intro i
  exact ⟨.new, List.nodup_nil, nofun, rfl, nofun, iff_of_false nofun nofun, fun w => iff_of_false (by simp) nofun,
    iff_of_false nofun nofun, fun _ => nofun, fun _ => ⟨rfl, rfl⟩, nofun, nofun⟩

theorem XudpStep.inv (hst : XudpStep s e t) (h : s.Inv) : t.Inv :=
  ⟨hst.tables h.tables, hst.callsOk h.calls h.close.actives, hst.closeInv h.tables h.close⟩

theorem XudpProxy.inv_of_reach (h : Reach Init XudpStep s) : s.Inv :=
  h.invariant (fun _ h0 => ⟨.init h0, .init h0, .init h0⟩) fun _ _ _ _ hi hst => hst.inv hi

def InWorkPc.closes : InWorkPc → Bool
  | start | refused | closing => true
  | _ => false

structure XudpProxy.Sound (s : XudpProxy) : Prop where
  pending : ∀ id i j, (id, i) ∈ s.pendingConns → (id, j) ∈ s.pendingConns → i = j
  active : ∀ id i j, (id, i) ∈ s.activeConns → (id, j) ∈ s.activeConns → i = j
  apart : ∀ id i j, (id, i) ∈ s.pendingConns → (id, j) ∉ s.activeConns
  wg : 0 ≤ s.activeWG
  going : ∀ i, (s.lc i).phase = .going → (s.lc i).ran = []
  once : ∀ i, (s.lc i).ran.Nodup
  all : ∀ i, (s.lc i).phase = .stopped → (s.lc i).late = [] → (s.lc i).ran.Perm (s.lc i).registered
  returned : ∀ j, s.closeCalls j = .returned → s.closed = true ∧ s.activeConns = [] ∧
    ∀ i, s.pc i ≠ .idle → s.connClosed i = true ∨ (s.pc i).closes = true

namespace XudpProxy.Inv

theorem conn_of_done (h : s.Inv) (hc : s.close = .done) {i : Nat} (hi : s.pc i ≠ .idle) :
    s.connClosed i = true ∨ (s.pc i).closes = true := by
  have hcl : s.closed = true := by rw [h.close.closed, hc]; rfl
  have hcnt : (s.pc i).counted = false := by
    refine Bool.eq_false_iff.mpr fun hm => ?_
    have hmem := (h.tables.counted i).mpr hm
    rw [h.close.zero (hc ▸ rfl)] at hmem; cases hmem
  cases hpre : (s.pc i).preId with
  | some id =>
    rcases h.close.conns hcl i id hpre with hcc | hm
    · exact .inl hcc
    · rw [hc] at hm; cases hm
  | none =>
    have hcall := h.calls i
    cases hp : s.pc i <;> rw [hp] at hpre hcnt hcall <;> first | (cases hpre; done) | (cases hcnt; done) | skip
    case idle => exact absurd hp hi
    case start | refused | closing => exact .inr rfl
    case returned =>
      refine (hcall.returned rfl).imp_right fun ⟨l, hl, _⟩ => ?_
      have hb := hcall.close.mpr ⟨l, hl⟩
      rw [hc] at hb; cases hb

theorem sound (h : s.Inv) : s.Sound := by
  refine ⟨?_, ?_, ?_, ?_, fun i hg => ((h.calls i).ok.going hg).2, fun i => ?_, fun i => (h.calls i).ok.ran_perm, ?_⟩
  · intro id i j hi hj
    exact h.tables.inj i j id (ownId_of_preId (h.tables.pending id i hi))
      (ownId_of_preId (h.tables.pending id j hj))
  · intro id i j hi hj
    exact h.tables.inj i j id (ownId_of_actId ((h.tables.active id i).mp hi))
      (ownId_of_actId ((h.tables.active id j).mp hj))
  · intro id i j hi hj
    have hpre := h.tables.pending id i hi
    have hact := (h.tables.active id j).mp hj
    have hij := h.tables.inj i j id (ownId_of_preId hpre) (ownId_of_actId hact)
    rw [hij, preId_of_actId hact] at hpre; cases hpre
  · rw [h.tables.wg]; exact Int.natCast_nonneg _
  · exact (h.calls i).ok.ran_nodup ((List.nodup_append.mp (h.calls i).nodup).1)
  · intro j hj
    have hc := h.close.calls j hj
    refine ⟨by rw [h.close.closed, hc]; rfl, ?_, fun i => h.conn_of_done hc⟩
    refine List.eq_nil_iff_forall_not_mem.mpr fun ⟨id, i⟩ hm => ?_
    have hact := (h.tables.active id i).mp hm
    have hmem := (h.tables.counted i).mpr (by cases hp : s.pc i <;> rw [hp] at hact <;> first | rfl | cases hact)
    rw [h.close.zero (hc ▸ rfl)] at hmem; cases hmem

end XudpProxy.Inv

theorem XudpStep.no_promotion (hst : XudpStep s e t) (hc : s.closed = true) :
    t.closed = true ∧ t.activeConns ⊆ s.activeConns := by
  have hsub : s.activeConns ⊆ s.activeConns := fun _ h => h
  cases hst with
  | promote _ _ _ _ hf => rw [hc] at hf; cases hf
  | deleteActive => exact ⟨hc, List.erase_subset⟩
  | runLate _ _ r | runCloser _ r | workerCloser _ r | activeCloser _ _ r => cases r <;> exact ⟨hc, hsub⟩
  | snapshot => exact ⟨rfl, hsub⟩
  | _ => exact ⟨hc, hsub⟩

/-! ## Progress -/

def StopBy.event (i : Nat) : StopBy → XudpEvent
  | main => .call i
  | worker w => .worker i w
  | close => .close

section
variable {s t : XudpProxy} {e : XudpEvent} {i : Nat}

theorem XudpStep.pc_of_ne (hst : XudpStep s e t) (hne : e ≠ .call i) : t.pc i = s.pc i := by
  have hupd : ∀ {j} (q : InWorkPc), e = .call j → update s.pc j q i = s.pc i := fun q he =>
    update_of_ne (fun hij => hne (by rw [he, hij])) ..
  cases hst with
  | runLate _ _ r => cases r <;> exact hupd _ rfl
  | runCloser _ r | workerCloser _ r | activeCloser _ _ r => cases r <;> rfl
  | _ => first | rfl | exact hupd _ rfl

theorem phase_update {f : Nat → XudpLifecycle} {j : Nat} {lc : XudpLifecycle} {ph : StopPhase StopBy XudpRes}
    (hph : (f i).phase = ph) (hj : j = i → lc.phase = ph) : (update f j lc i).phase = ph := by
  by_cases hij : i = j
  · subst hij
    rw [update_self]; exact hj rfl
  · rw [update_of_ne hij]; exact hph

variable {u : StopBy} {l : List XudpRes}

theorem XudpStep.running_other (hst : XudpStep s e t) (h : s.CallsOk)
    (hph : (s.lc i).phase = .running u l) (hne : e ≠ u.event i) : (t.lc i).phase = .running u l := by
  have hgoing : ∀ {j}, (s.lc j).phase = .going → j ≠ i := by
    rintro j hj rfl
    rw [hj] at hph; cases hph
  have hmine : ∀ {j v l'}, (s.lc j).phase = .running v l' → e = v.event j → j ≠ i := by
    rintro j v l' hj he rfl
    rw [hj] at hph; cases hph
    exact hne he
  cases hst with
  | promote id role hp =>
    refine phase_update hph ?_
    rintro rfl
    have hbefore := (h _).before (by rw [hp]; rfl)
    rw [hbefore.1] at hph; cases hph
  | addCloser _ _ _ _ _ hg | stop _ _ hg | workerStop _ _ hg | stopActive _ _ _ hg =>
    exact phase_update hph fun hij => absurd hij (hgoing hg)
  | addStopped => exact phase_update hph fun hij => hij ▸ hph
  | runLate _ _ r => cases r <;> exact phase_update hph fun hij => hij ▸ hph
  | runCloser _ r _ _ hr | workerCloser _ r _ _ hr | activeCloser _ _ r _ _ hr =>
    cases r <;> exact phase_update hph fun hij => absurd hij (hmine hr rfl)
  | stopped _ _ hr | workerStopped _ _ hr | activeStopped _ _ _ hr =>
    exact phase_update hph fun hij => absurd hij (hmine hr rfl)
  | _ => exact hph

variable {r : XudpRes}

theorem XudpStep.running_own (hst : XudpStep s (u.event i) t) (h : s.CallsOk)
    (hph : (s.lc i).phase = .running u (r :: l)) : t.lc i = (s.lc i).run u r l := by
  have hcall := h i
  cases u with
  | main =>
    have hpc := hcall.main.mpr ⟨_, hph⟩
    cases hst <;> simp_all [stops, setLc]
  | worker w =>
    have hw := (hcall.worker w).mpr ⟨_, hph⟩
    cases hst <;> simp_all [setLc]
  | close =>
    have hc := hcall.close.mpr ⟨_, hph⟩
    cases hst <;> simp_all [XudpClosePc.stops, setLc]

theorem XudpProxy.Inv.closer_enabled (h : s.Inv)
    (hph : (s.lc i).phase = .running u (r :: l)) : ∃ t, XudpStep s (u.event i) t := by
  have hcall := h.calls i
  cases u with
  | main =>
    have hpc := hcall.main.mpr ⟨_, hph⟩
    cases hp : s.pc i <;> rw [hp] at hpc <;> first | (cases hpc; done) | exact ⟨_, .runCloser _ r l hp hph⟩
  | worker w => exact ⟨_, .workerCloser w r l ((hcall.worker w).mpr ⟨_, hph⟩) hph⟩
  | close =>
    have hb := hcall.close.mpr ⟨_, hph⟩
    cases hc : s.close <;> rw [hc] at hb <;> cases hb
    exact ⟨_, .activeCloser _ _ r l hc hph⟩

variable {ρ : Run XudpStep} {n : Nat}

theorem XudpProxy.todo_runs (hf : ρ.Fair (· = u.event i))
    (hi : (ρ.state n).Inv) (hr : ∃ l, ((ρ.state n).lc i).phase = .running u l ∧ r ∈ l) :
    ∃ m, n ≤ m ∧ r ∈ ((ρ.state m).lc i).ran := by
  refine hf.reaches (P := fun s => s.Inv ∧ ∃ l, (s.lc i).phase = .running u l ∧ r ∈ l)
    (G := fun s => r ∈ (s.lc i).ran) (fun s => (s.lc i).todo.length) ?_ ?_ n ⟨hi, hr⟩
  · rintro s e t ⟨hi, _ | ⟨x, l⟩, hph, hm⟩ - hst
    · cases hm
    by_cases he : e = u.event i
    · subst he
      have hrun := hst.running_own hi.calls hph
      rcases List.mem_cons.mp hm with rfl | hm
      · exact .inl (by rw [hrun]; exact List.mem_append_right _ (List.mem_singleton.mpr rfl))
      · refine .inr ⟨⟨hst.inv hi, l, by rw [hrun]; rfl, hm⟩, ?_⟩
        simp [hrun, Closers.todo, Closers.run, hph]
    · have hsame := hst.running_other hi.calls hph he
      refine .inr ⟨⟨hst.inv hi, _, hsame, hm⟩, ?_, fun hmine => absurd hmine he⟩
      simp [Closers.todo, hsame, hph]
  · rintro s ⟨hi, _ | ⟨x, l⟩, hph, hm⟩ -
    · cases hm
    obtain ⟨t, hst⟩ := hi.closer_enabled hph
    exact ⟨_, t, rfl, hst⟩

theorem XudpProxy.late_runs (hf : ρ.Fair (· = .call i))
    (hr : ∃ id role todo, (ρ.state n).pc i = .late id role r todo) : ∃ m, n ≤ m ∧ r ∈ ((ρ.state m).lc i).ran := by
  refine hf.reaches (P := fun s => ∃ id role todo, s.pc i = .late id role r todo) (G := fun s => r ∈ (s.lc i).ran)
    (fun _ => 0) ?_ ?_ n hr
  · rintro s e t ⟨id, role, todo, hp⟩ - hst
    by_cases he : e = .call i
    · refine .inl ?_
      cases hst <;> simp_all [setLc, goto, Closers.runLate]
    · exact .inr ⟨⟨id, role, todo, (hst.pc_of_ne he).trans hp⟩, Nat.le_refl _, fun hmine => absurd hmine he⟩
  · rintro s ⟨id, role, todo, hp⟩ -
    exact ⟨_, _, rfl, .runLate id role r todo hp⟩

theorem XudpProxy.closer_runs (h0 : (ρ.state 0).Init) (hcall : ρ.Fair (· = .call i))
    (hworker : ∀ w, ρ.Fair (· = .worker i w)) (hclose : ρ.Fair (· = .close))
    (hph : ((ρ.state n).lc i).phase ≠ .going) (hr : r ∈ ((ρ.state n).lc i).registered) :
    ∃ m, n ≤ m ∧ r ∈ ((ρ.state m).lc i).ran := by
  have hi := inv_of_reach (ρ.reach h0 n)
  rcases (hi.calls i).ok.mem_registered hph hr with hm | hm | hm
  · cases hp : ((ρ.state n).lc i).phase with
    | going => exact absurd hp hph
    | stopped => rw [Closers.todo, hp] at hm; cases hm
    | running u l =>
      rw [Closers.todo, hp] at hm
      have hf : ρ.Fair (· = u.event i) := by
        cases u with
        | main => exact hcall
        | worker w => exact hworker w
        | close => exact hclose
      exact todo_runs hf hi ⟨l, hp, hm⟩
  · rw [(hi.calls i).late] at hm
    refine late_runs hcall ?_
    cases hp : (ρ.state n).pc i <;> rw [hp] at hm <;> simp only [lateCloser, List.mem_singleton] at hm
    case late id role r' todo =>
      subst hm; exact ⟨id, role, todo, rfl⟩
    all_goals cases hm
  · exact ⟨n, Nat.le_refl n, hm⟩

def InWorkPc.closeRank : InWorkPc → Nat
  | start => 2
  | refused | closing => 1
  | _ => 0

theorem XudpProxy.conn_closes (hf : ρ.Fair (· = .call i))
    (hc : (ρ.state n).closed = true) (hp : ((ρ.state n).pc i).closes = true) :
    ∃ m, n ≤ m ∧ (ρ.state m).connClosed i = true := by
  refine hf.reaches (P := fun s => s.closed = true ∧ (s.pc i).closes = true) (G := fun s => s.connClosed i = true)
    (fun s => (s.pc i).closeRank) ?_ ?_ n ⟨hc, hp⟩
  · rintro s e t ⟨hc, hp⟩ - hst
    by_cases he : e = .call i
    · cases hst <;> simp_all [closes, closeRank, goto, closeConn]
    · have hsame := hst.pc_of_ne he
      rw [hsame]
      exact .inr ⟨⟨(hst.no_promotion hc).1, hp⟩, Nat.le_refl _, fun hmine => absurd hmine he⟩
  · rintro s ⟨hc, hp⟩ -
    cases hq : s.pc i <;> rw [hq] at hp <;> first | (cases hp; done) | skip
    case start => exact ⟨_, _, rfl, .refuse hq hc⟩
    case refused => exact ⟨_, _, rfl, .closeRefused hq⟩
    case closing => exact ⟨_, _, rfl, .closeConn hq⟩

end

/-- Nothing is promoted after the close. In a fair run every registered closer of a stopped lifecycle
runs, and every connection is closed once `Close` has returned. -/
theorem xudp_conn_ownership :
    (∀ s, Reach Init XudpStep s → s.Sound ∧
      ∀ e t, XudpStep s e t → s.closed = true → t.closed = true ∧ t.activeConns ⊆ s.activeConns) ∧
    ∀ (ρ : Run XudpStep) (i : Nat), (ρ.state 0).Init → ρ.Fair (· = .call i) → (∀ w, ρ.Fair (· = .worker i w)) →
      ρ.Fair (· = .close) → ∀ n,
      (∀ r ∈ ((ρ.state n).lc i).registered, ((ρ.state n).lc i).phase ≠ .going →
        ∃ m, n ≤ m ∧ r ∈ ((ρ.state m).lc i).ran) ∧
      ∀ j, (ρ.state n).closeCalls j = .returned → (ρ.state n).pc i ≠ .idle →
        ∃ m, n ≤ m ∧ (ρ.state m).connClosed i = true := by
  refine ⟨fun s hs => ⟨(inv_of_reach hs).sound, fun e t hst hc => hst.no_promotion hc⟩, ?_⟩
  intro ρ i h0 hcall hworker hclose n
  refine ⟨fun r hr hph => closer_runs h0 hcall hworker hclose hph hr, fun j hj hi => ?_⟩
  obtain ⟨hc, -, hconn⟩ := (inv_of_reach (ρ.reach h0 n)).sound.returned j hj
  rcases hconn i hi with hcl | hcl
  · exact ⟨n, Nat.le_refl n, hcl⟩
  · exact conn_closes hcall hc hcl

theorem xudp_conn_ownership_relay : ∃ (ρ : Run XudpStep) (n m : Nat), n ≤ m ∧
    ((ρ.state n).lc 0).phase = .running .close [.conn, .workConn] ∧ ((ρ.state n).lc 0).ran = [] ∧
    (∃ k, n ≤ k ∧ .conn ∈ ((ρ.state k).lc 0).ran) ∧ (ρ.state n).activeConns = [(1, 0)] ∧
    (ρ.state m).closeCalls 0 = .returned ∧ (ρ.state m).activeConns = [] ∧
    ∃ k, m ≤ k ∧ (ρ.state k).connClosed 0 = true := by
  obtain ⟨s, t, h, h', hph, hran, hreg, hact, hcl, hpc, hws, hdone⟩ : ∃ s t, Reach Init XudpStep s ∧
      Reach (· = s) XudpStep t ∧ (s.lc 0).phase = .running .close [.conn, .workConn] ∧ (s.lc 0).ran = [] ∧
      (s.lc 0).registered = [.conn, .workConn] ∧ s.activeConns = [(1, 0)] ∧ t.closeCalls 0 = .returned ∧
      t.pc 0 = .returned ∧ t.workers 0 = [.ended, .ended, .ended, .ended] ∧ t.close = .done := by
    have h : Reach Init XudpStep
      ⟨false, 0, [], [], 0, fun _ => .idle, fun _ => {}, fun _ => [], fun _ => false, .idle, fun _ => .idle, []⟩ :=
      .start rfl
    have h := h
      |>.next (.call (i := 0) rfl)
      |>.next (.register (i := 0) rfl rfl)
      |>.next (.relay (i := 0) 1 rfl)
      |>.next (.promote 1 .relay rfl (List.mem_singleton.mpr rfl) rfl)
      |>.next (.addCloser (i := 0) 1 .relay .conn [.workConn] rfl rfl)
      |>.next (.addCloser (i := 0) 1 .relay .workConn [] rfl rfl)
      |>.next (.spawn (i := 0) 1 .relay rfl)
      |>.next (.closeFirst (j := 0) rfl rfl)
      |>.next (.snapshot [] [0] rfl (.refl _) (.refl _))
      |>.next (.pendingClosed [0] rfl)
      |>.next (.stopActive 0 [] rfl rfl)
    have h' := h.here
    have h' := h'
      |>.next (.workerStopAgain (i := 0) 0 rfl nofun)
      |>.next (.activeCloser 0 [] .conn [.workConn] rfl rfl)
      |>.next (.workerStopAgain (i := 0) 1 rfl nofun)
      |>.next (.workerStopAgain (i := 0) 2 rfl nofun)
      |>.next (.activeCloser 0 [] .workConn [] rfl rfl)
      |>.next (.activeStopped 0 [] rfl rfl)
      |>.next (.workerStopAgain (i := 0) 3 rfl nofun)
      |>.next (.join (i := 0) 1 rfl (by decide))
      |>.next (.stopAgain (i := 0) 1 rfl nofun)
      |>.next (.deleteActive (i := 0) 1 rfl)
      |>.next (.wgDone (i := 0) 1 rfl)
      |>.next (.wait rfl rfl)
      |>.next (.baseClose rfl)
      |>.next (.closeReturns (j := 0) rfl rfl)
    exact ⟨_, _, h, h', rfl, rfl, rfl, rfl, rfl, rfl, rfl, rfl⟩
  obtain ⟨ρ, N, M, h0, hNM, hsn, hM⟩ := h.exists_run_through h'
  have htm : ρ.state M = t := hM M (Nat.le_refl M)
  have hcall : ρ.Fair (· = .call 0) := Run.fair_of_rest hM fun e u he hst => by
    cases hst <;> simp_all
  have hworker : ∀ w, ρ.Fair (· = .worker 0 w) := fun w => Run.fair_of_rest hM fun e u he hst => by
    subst he
    have hend : ∀ x, (t.workers 0)[w]? = some x → x = .ended := by
      intro x hx
      have := List.mem_of_getElem? hx
      rw [hws] at this; simpa using this
    cases hst <;> cases hend _ ‹_›
  have hclose : ρ.Fair (· = .close) := Run.fair_of_rest hM fun e u he hst => by
    cases hst <;> simp_all
  obtain ⟨hsafe, hlive⟩ := xudp_conn_ownership
  have hN' := (hlive ρ 0 h0 hcall hworker hclose N).1 .conn
  have hM' := (hlive ρ 0 h0 hcall hworker hclose M).2 0
  have hret := (hsafe _ (ρ.reach h0 M)).1.returned 0
  rw [htm] at hM' hret
  rw [hsn, hreg, hph] at hN'
  refine ⟨ρ, N, M, hNM, hsn ▸ hph, hsn ▸ hran, hN' (by decide) nofun, hsn ▸ hact, htm ▸ hcl, htm ▸ (hret hcl).2.1,
    hM' hcl (by rw [hpc]; nofun)⟩

end Frp
