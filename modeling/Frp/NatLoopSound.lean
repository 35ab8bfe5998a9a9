import Mathlib.Data.List.Nodup
import Frp.Fair
import Frp.NatHoleSound
import Frp.NatLoop
import Frp.Slots

/-!
# Progress of NAT-hole sessions

Until its id was handed over, a session depends on the loop of its proxy: one that has
exited leaves the calls on its channel blocked for ever.
-/

namespace Frp

open Function NatWorld NatLoopStep NatLoopEvent

section
variable [Md5]

/-! ## The controller -/

def NatHole.Paired (s : NatHole) : Prop := ∀ sid, s.sessions sid = none ↔ s.visits sid = none

variable {s t : NatHole} {e : NatEvent}

theorem NatStep.paired (h : NatStep s e t) (hp : s.Paired) : t.Paired := by
  intro sid
  have hboth : ∀ (k : Nat) {x : Option NatSession} {v : Option Visit}, (x = none ↔ v = none) →
      (update s.sessions k x sid = none ↔ update s.visits k v sid = none) := by
    intro k x v hxv
    by_cases hk : sid = k
    · rw [hk, update_self, update_self]; exact hxv
    · rw [update_of_ne hk, update_of_ne hk]; exact hp sid
  cases h with
  | listenClient | repeated | closeClient | preCheck | refused | noSession => exact hp sid
  | admitted | wake | leave => exact hboth _ (by simp)
  | sendSid hv | timeout hv | respond hv =>
    exact (hp sid).trans (iff_of_eq (update_same (· = none) (by simp [hv]) sid)).symm
  | client _ hx => exact (iff_of_eq (update_same (· = none) (by simp [hx]) sid)).trans (hp sid)

variable {sid : Nat}

theorem NatStep.no_session (h : NatStep s e t) (hlt : sid < s.nextSid)
    (hs : s.sessions sid = none) : t.sessions sid = none := by
  cases h with
  | listenClient | repeated | closeClient | preCheck | refused | noSession | sendSid | timeout | respond => exact hs
  | admitted => exact (update_of_ne (Nat.ne_of_lt hlt) ..).trans hs
  | client _ hx | wake _ _ hx => exact update_keeps (· = none) hs fun h => nomatch hx.symm.trans h
  | leave => exact update_keeps (· = none) hs fun _ => rfl

def NatEvent.ofVisit (sid : Nat) : NatEvent → Prop
  | .wake k | .timeout k | .respond k | .leave k => k = sid
  | _ => False

def VisitPc.rank : VisitPc → Nat
  | inserted => 4
  | waiting => 3
  | responding => 2
  | leaving => 1

variable {v : Visit}

theorem NatStep.visit_cases (h : NatStep s e t) (ha : e.alone) (hf : s.Fresh)
    (hv : s.visits sid = some v) : (¬ e.ofVisit sid ∧ t.visits sid = some v) ∨ (e.ofVisit sid ∧ v.pc ≠ .inserted ∧
      (t.visits sid = none ∨ ∃ v', t.visits sid = some v' ∧ v'.pc ≠ .inserted ∧ v'.pc.rank < v.pc.rank)) := by
  have hother : ∀ {k} (o : Option Visit), sid ≠ k → update s.visits k o sid = some v := by
    intro k o hk
    rwa [update_of_ne hk]
  have hset : ∀ {k : Nat} {w w' : Visit}, s.visits k = some w → w.pc ≠ .inserted → w'.pc ≠ .inserted →
      w'.pc.rank < w.pc.rank →
      (¬ k = sid ∧ update s.visits k (some w') sid = some v) ∨
      (k = sid ∧ v.pc ≠ .inserted ∧ (update s.visits k (some w') sid = none ∨
        ∃ v', update s.visits k (some w') sid = some v' ∧ v'.pc ≠ .inserted ∧ v'.pc.rank < v.pc.rank)) := by
    intro k w w' hw hpc hpc' hlt
    by_cases hk : k = sid
    · subst hk
      rw [hv] at hw; cases hw
      exact .inr ⟨rfl, hpc, .inr ⟨w', update_self .., hpc', hlt⟩⟩
    · exact .inl ⟨hk, hother _ (Ne.symm hk)⟩
  cases h with
  | listenClient | repeated | closeClient | sendSid => exact ha.elim
  | preCheck | refused | client | noSession => exact .inl ⟨fun h => h, hv⟩
  | admitted =>
    refine .inl ⟨fun h => h, hother _ ?_⟩
    rintro rfl
    rw [(hf _ (Nat.le_refl _)).visit] at hv; cases hv
  | wake hw hpc | timeout hw hpc
  | respond hw hpc => exact hset hw (by simp [hpc]) (by simp) (by simp [hpc, VisitPc.rank])
  | @leave k w hw hpc =>
    by_cases hk : k = sid
    · subst hk
      rw [hv] at hw; cases hw
      exact .inr ⟨rfl, by simp [hpc], .inl (update_self ..)⟩
    · exact .inl ⟨hk, hother _ (Ne.symm hk)⟩

/-! ## The controller with its proxies -/

variable {s t : NatWorld} {e : NatLoopEvent}

theorem NatLoopStep.nat_cases (h : NatLoopStep s e t) : t.nat = s.nat ∨ ∃ d, NatStep s.nat d t.nat := by
  cases h with
  | nat _ hst | listenClient _ _ _ _ hst | receive _ _ _ _ hst | closeClient _ _ hst => exact .inr ⟨_, hst⟩
  | repeated | block | noWorkConn | workConn | written | exit | closeLoop => exact .inl rfl

structure NatWorld.Inv (s : NatWorld) : Prop where
  fresh : s.nat.Fresh
  paired : s.nat.Paired
  senders : ∀ ch, ∀ sid ∈ s.senders ch, ∃ v, s.nat.visits sid = some v ∧ v.pc = .inserted ∧ v.cfg.sidCh = ch
  nodup : ∀ ch, (s.senders ch).Nodup

theorem NatLoopStep.inserted_cases (h : NatLoopStep s e t) (hi : s.Inv) (hv : s.nat.visits sid = some v)
    (hpc : v.pc = .inserted) :
    (t.nat.visits sid = some v ∧ (sid ∈ s.senders v.cfg.sidCh → sid ∈ t.senders v.cfg.sidCh)) ∨
    ∃ rest, e = .loop v.cfg.sidCh ∧ s.loops v.cfg.sidCh = .selecting ∧ s.senders v.cfg.sidCh = sid :: rest ∧
      t.senders v.cfg.sidCh = rest ∧ ∃ v', t.nat.visits sid = some v' ∧ v'.pc = .waiting := by
  cases h with
  | nat ha hst =>
    rcases hst.visit_cases ha hi.fresh hv with ⟨-, h⟩ | ⟨-, hne, -⟩
    · exact .inl ⟨h, id⟩
    · exact absurd hpc hne
  | listenClient _ _ _ hnone hst =>
    cases hst with
    | listenClient => exact .inl ⟨hv, id⟩
    | repeated hsome => exact absurd hnone hsome
  | repeated | noWorkConn | workConn | written | exit | closeLoop => exact .inl ⟨hv, id⟩
  | block => exact .inl ⟨hv, fun hm => update_keeps (sid ∈ ·) hm (List.mem_append_left _)⟩
  | closeClient _ _ hst => cases hst; exact .inl ⟨hv, id⟩
  | @receive ch nat' k rest hsel hsend hst =>
    cases hst with
    | sendSid =>
      by_cases hk : sid = k
      · subst hk
        obtain ⟨w', hw', -, hch⟩ := hi.senders ch sid (by rw [hsend]; exact List.mem_cons_self)
        rw [hv] at hw'; cases hw'
        subst hch; exact .inr ⟨rest, rfl, hsel, hsend, update_self .., _, update_self .., rfl⟩
      · refine .inl ⟨(update_of_ne hk ..).trans hv, fun hm => update_keeps (sid ∈ ·) hm fun hm => ?_⟩
        rw [hsend] at hm; exact List.mem_of_ne_of_mem hk hm

theorem NatLoopStep.inv (h : NatLoopStep s e t) (hi : s.Inv) (hfresh : t.nat.Fresh) : t.Inv := by
  have hpaired : t.nat.Paired := by
    rcases h.nat_cases with heq | ⟨d, hst⟩
    · rw [heq]; exact hi.paired
    · exact hst.paired hi.paired
  -- a call that is still in a queue of senders has not been received
  have hkeep : (∀ ch, ∀ sid ∈ t.senders ch, sid ∈ s.senders ch) → (∀ ch, (t.senders ch).Nodup) → t.Inv := by
    intro hsub hnd
    refine ⟨hfresh, hpaired, fun ch sid hm => ?_, hnd⟩
    obtain ⟨v, hv, hpc, rfl⟩ := hi.senders ch sid (hsub ch sid hm)
    rcases h.inserted_cases hi hv hpc with ⟨hv', -⟩ | ⟨rest, -, -, hs, ht, -⟩
    · exact ⟨v, hv', hpc, rfl⟩
    · have hnd' := hi.nodup v.cfg.sidCh
      rw [hs] at hnd'
      rw [ht] at hm; exact absurd hm (List.nodup_cons.mp hnd').1
  cases h with
  | nat | listenClient | repeated | noWorkConn | workConn | written | exit | closeClient | closeLoop =>
    exact hkeep (fun _ _ hm => hm) hi.nodup
  | @receive ch _ k rest hsel hsend =>
    have hnd := hi.nodup ch
    rw [hsend] at hnd
    refine hkeep (fun c sid hm => ?_) fun c => update_keeps List.Nodup (hi.nodup c) fun _ => (List.nodup_cons.mp hnd).2
    rcases update_cases (sid ∈ ·) hm with ⟨rfl, hin⟩ | ⟨-, hin⟩
    · rw [hsend]; exact List.mem_cons_of_mem _ hin
    · exact hin
  | @block k v hv hpc hnew =>
    refine ⟨hfresh, hpaired, fun c sid hm => ?_, fun c => update_keeps List.Nodup (hi.nodup c) fun hnd => ?_⟩
    · rcases update_cases (sid ∈ ·) hm with ⟨rfl, hin⟩ | ⟨-, hin⟩
      · rcases List.mem_append.mp hin with hin | hin
        · exact hi.senders _ sid hin
        · exact ⟨v, List.mem_singleton.mp hin ▸ hv, hpc, rfl⟩
      · exact hi.senders c sid hin
    · rw [← List.concat_eq_append]; exact hnd.concat hnew

theorem NatWorld.nat_reach (h : Reach NatWorld.Init NatLoopStep s) : Reach NatHole.Init NatStep s.nat :=
  h.simulate nat (fun _ h0 => h0.1) fun _ _ _ _ hst => hst.nat_cases

theorem NatWorld.inv_of_reach (h : Reach NatWorld.Init NatLoopStep s) : s.Inv := by
  refine h.invariant (fun s h0 => ?_) fun s e t hr hi hst =>
    hst.inv hi (NatHole.fresh_of_reach (nat_reach (hr.next hst)))
  have hnat := h0.1
  refine ⟨NatHole.fresh_of_reach (.start hnat), fun sid => ?_, fun ch sid hm => ?_, fun ch => ?_⟩
  · rw [hnat]; exact iff_of_true rfl rfl
  · rw [h0.2.2.1 ch] at hm; cases hm
  · rw [h0.2.2.1 ch]; exact List.nodup_nil

/-! ## Stuck calls -/

namespace NatWorld

def Stuck (s : NatWorld) (sid : Nat) : Prop :=
  ∃ v, s.nat.visits sid = some v ∧ v.pc = .inserted ∧ sid ∈ s.senders v.cfg.sidCh ∧ s.loops v.cfg.sidCh = .exited

def Removed (s : NatWorld) (sid : Nat) : Prop := s.nat.sessions sid = none ∧ sid < s.nat.nextSid

end NatWorld

def NatLoopEvent.ofCall (sid : Nat) : NatLoopEvent → Prop
  | .nat e => e.ofVisit sid
  | .block k => k = sid
  | _ => False

def NatWorld.Helps (s : NatWorld) (sid : Nat) (e : NatLoopEvent) : Prop :=
  e.ofCall sid ∨ ∃ v, s.nat.visits sid = some v ∧ v.pc = .inserted ∧ sid ∈ s.senders v.cfg.sidCh ∧
    e = .loop v.cfg.sidCh

variable {ch : Nat}

namespace NatLoopStep

variable (h : NatLoopStep s e t)
include h

theorem exited (hx : s.loops ch = .exited) : e ≠ .loop ch ∧ t.loops ch = .exited := by
  have hother : ∀ {k : Nat} {p q : SidLoop}, s.loops k = p → p ≠ .exited →
      loop k ≠ .loop ch ∧ update s.loops k q ch = .exited := by
    intro k p q hk hp
    have hne : ch ≠ k := by rintro rfl; exact hp (hk.symm.trans hx)
    exact ⟨by simpa using Ne.symm hne, by rwa [update_of_ne hne]⟩
  cases h with
  | nat | listenClient | repeated | block | closeClient | closeLoop => exact ⟨by simp, hx⟩
  | receive _ _ hk | noWorkConn hk | workConn hk | written hk | exit hk => exact hother hk (by simp)

theorem stuck (hi : s.Inv) (hs : s.Stuck sid) : t.Stuck sid := by
  obtain ⟨v, hv, hpc, hm, hx⟩ := hs
  obtain ⟨hne, hx'⟩ := h.exited hx
  rcases h.inserted_cases hi hv hpc with ⟨hv', hm'⟩ | ⟨rest, hloop, -⟩
  · exact ⟨v, hv', hpc, hm' hm, hx'⟩
  · exact absurd hloop hne

theorem removed (hs : s.Removed sid) : t.Removed sid := by
  rcases h.nat_cases with heq | ⟨d, hst⟩
  · unfold NatWorld.Removed
    rw [heq]; exact hs
  · exact ⟨hst.no_session hs.2 hs.1, Nat.lt_of_lt_of_le hs.2 hst.nextSid_le⟩

theorem call_inserted (hi : s.Inv) (he : e.ofCall sid) (hv : s.nat.visits sid = some v) (hpc : v.pc = .inserted) :
    sid ∉ s.senders v.cfg.sidCh ∧ sid ∈ t.senders v.cfg.sidCh := by
  cases h with
  | nat ha hst =>
    rcases hst.visit_cases ha hi.fresh hv with ⟨hno, -⟩ | ⟨-, hne, -⟩
    · exact absurd he hno
    · exact absurd hpc hne
  | block hw _ hnew =>
    replace he : _ = sid := he
    subst he
    rw [hv] at hw; cases hw
    refine ⟨hnew, ?_⟩
    simp only [update_self]; exact List.mem_append_right _ (List.mem_singleton_self _)
  | listenClient | repeated | receive | noWorkConn | workConn | written | exit | closeClient | closeLoop =>
    exact he.elim

end NatLoopStep

theorem NatWorld.Inv.helps_iff (hi : s.Inv) (hv : s.nat.visits sid = some v) :
    (∃ e t, s.Helps sid e ∧ NatLoopStep s e t) ↔ ¬ s.Stuck sid := by
  constructor
  · rintro ⟨e, t, hh, hst⟩ ⟨w, hw, hpc, hm, hx⟩
    rcases hh with hcall | ⟨w', hw', -, -, rfl⟩
    · exact (hst.call_inserted hi hcall hw hpc).1 hm
    · rw [hw] at hw'; cases hw'
      exact (hst.exited hx).1 rfl
  · intro hns
    have own : ∀ (e : NatEvent) {nat'}, e.ofVisit sid → e.alone → NatStep s.nat e nat' →
        ∃ e t, s.Helps sid e ∧ NatLoopStep s e t :=
      fun e _ ho ha hst => ⟨.nat e, _, .inl ho, .nat ha hst⟩
    cases hpc : v.pc with
    | inserted =>
      by_cases hm : sid ∈ s.senders v.cfg.sidCh
      · have loop : ∀ {t}, NatLoopStep s (.loop v.cfg.sidCh) t → ∃ e t, s.Helps sid e ∧ NatLoopStep s e t :=
          fun hst => ⟨_, _, .inr ⟨v, hv, hpc, hm, rfl⟩, hst⟩
        cases hl : s.loops v.cfg.sidCh with
        | selecting =>
          cases hq : s.senders v.cfg.sidCh with
          | nil => rw [hq] at hm; cases hm
          | cons k rest =>
            obtain ⟨w, hw, hwpc, -⟩ := hi.senders _ k (by rw [hq]; exact List.mem_cons_self)
            exact loop (.receive k rest hl hq (.sendSid hw hwpc))
        | opening => exact loop (.noWorkConn hl)
        | writing => exact loop (.written hl)
        | exited => exact absurd ⟨v, hv, hpc, hm, hl⟩ hns
      · exact ⟨.block sid, _, .inl rfl, .block hv hpc hm⟩
    | waiting => exact own (.timeout sid) rfl trivial (.timeout hv hpc)
    | responding => exact own (.respond sid) rfl trivial (.respond hv hpc)
    | leaving => exact own (.leave sid) rfl trivial (.leave hv hpc)

/-! ## Fair runs -/

def SidLoop.rank : SidLoop → Nat
  | selecting | exited => 0
  | writing _ => 1
  | opening _ => 2

theorem NatLoopStep.loop_cases (h : NatLoopStep s (.loop ch) t) :
    (∃ k rest, s.loops ch = .selecting ∧ s.senders ch = k :: rest ∧ t.senders ch = rest ∧ t.loops ch = .opening k) ∨
    t.senders ch = s.senders ch ∧ (t.loops ch = .exited ∨ (t.loops ch).rank < (s.loops ch).rank) := by
  cases h with
  | receive k rest hl hs => exact .inl ⟨k, rest, hl, hs, update_self .., update_self ..⟩
  | noWorkConn hl | workConn hl | written hl =>
    refine .inr ⟨rfl, .inr ?_⟩
    simp [hl, SidLoop.rank]
  | exit => exact .inr ⟨rfl, .inl (update_self ..)⟩

theorem NatLoopStep.other_loop (h : NatLoopStep s e t) (hne : e ≠ .loop ch) :
    t.loops ch = s.loops ch ∧ ∃ l, t.senders ch = s.senders ch ++ l := by
  have hother : ∀ {k : Nat} {α : Type} {f : Nat → α} {a : α}, loop k ≠ .loop ch →
      update f k a ch = f ch := by
    intro k α f a hk
    rw [update_of_ne]
    rintro rfl; exact hk rfl
  cases h with
  | nat | listenClient | repeated | closeClient | closeLoop => exact ⟨rfl, [], by simp⟩
  | @block k v =>
    refine ⟨rfl, ?_⟩
    show ∃ l, update s.senders v.cfg.sidCh _ ch = _
    by_cases hc : ch = v.cfg.sidCh
    · subst hc; exact ⟨[k], update_self ..⟩
    · exact ⟨[], by rw [update_of_ne hc, List.append_nil]⟩
  | receive => exact ⟨hother hne, [], (hother hne).trans (List.append_nil _).symm⟩
  | noWorkConn | workConn | written | exit => exact ⟨hother hne, [], (List.append_nil _).symm⟩

theorem NatLoopStep.later_cases (h : NatLoopStep s e t) (hi : s.Inv) (hv : s.nat.visits sid = some v)
    (hpc : v.pc ≠ .inserted) :
    (¬ e.ofCall sid ∧ t.nat.visits sid = some v) ∨
    (e.ofCall sid ∧ (t.nat.visits sid = none ∨
      ∃ v', t.nat.visits sid = some v' ∧ v'.pc ≠ .inserted ∧ v'.pc.rank < v.pc.rank)) := by
  cases h with
  | nat ha hst =>
    rcases hst.visit_cases ha hi.fresh hv with h | ⟨he, -, h⟩
    · exact .inl h
    · exact .inr ⟨he, h⟩
  | listenClient _ _ _ hnone hst =>
    cases hst with
    | listenClient => exact .inl ⟨id, hv⟩
    | repeated hsome => exact absurd hnone hsome
  | repeated | noWorkConn | workConn | written | exit | closeLoop => exact .inl ⟨id, hv⟩
  | block hw hwpc =>
    refine .inl ⟨fun he => hpc ?_, hv⟩
    replace he : _ = sid := he
    subst he
    rw [hv] at hw; cases hw
    exact hwpc
  | closeClient _ _ hst => cases hst; exact .inl ⟨id, hv⟩
  | @receive _ _ k _ _ _ hst =>
    cases hst with
    | sendSid hw hwpc =>
      refine .inl ⟨id, ?_⟩
      show update s.nat.visits k _ sid = some v
      rw [update_of_ne]
      · exact hv
      · rintro rfl
        rw [hv] at hw; cases hw
        exact hpc hwpc

theorem NatLoopStep.nextSid_le (h : NatLoopStep s e t) : s.nat.nextSid ≤ t.nat.nextSid := by
  rcases h.nat_cases with heq | ⟨d, hst⟩
  · exact Nat.le_of_eq (by rw [heq])
  · exact hst.nextSid_le

section
variable {ρ : Run NatLoopStep} {n : Nat} {v : Visit}

variable (hr : Reach NatWorld.Init NatLoopStep (ρ.state n)) (hv : (ρ.state n).nat.visits sid = some v)
include hr hv

theorem NatWorld.comes_to_send (hf : ρ.Fair (ofCall sid)) (hpc : v.pc = .inserted) :
    ∃ m, n ≤ m ∧ (ρ.state m).nat.visits sid = some v ∧ sid ∈ (ρ.state m).senders v.cfg.sidCh := by
  refine hf.reaches (P := fun s => Reach NatWorld.Init NatLoopStep s ∧ s.nat.visits sid = some v)
    (G := fun s => s.nat.visits sid = some v ∧ sid ∈ s.senders v.cfg.sidCh) (fun _ => 0) ?_ ?_ n ⟨hr, hv⟩
  · rintro s e t ⟨hr, hv⟩ hno hst
    have hi := inv_of_reach hr
    have hnm : sid ∉ s.senders v.cfg.sidCh := fun hm => hno ⟨hv, hm⟩
    rcases hst.inserted_cases hi hv hpc with ⟨hv', -⟩ | ⟨rest, -, -, hs, -⟩
    · by_cases he : e.ofCall sid
      · exact .inl ⟨hv', (hst.call_inserted hi he hv hpc).2⟩
      · exact .inr ⟨⟨hr.next hst, hv'⟩, Nat.le_refl _, fun h => absurd h he⟩
    · rw [hs] at hnm; exact absurd List.mem_cons_self hnm
  · rintro s ⟨-, hv⟩ hno
    exact ⟨.block sid, _, rfl, .block hv hpc fun hm => hno ⟨hv, hm⟩⟩

theorem NatWorld.is_received (hf : ρ.Fair (· = .loop v.cfg.sidCh))
    (hpc : v.pc = .inserted) (hm : sid ∈ (ρ.state n).senders v.cfg.sidCh) :
    ∃ m, n ≤ m ∧ ((ρ.state m).Stuck sid ∨ Reach NatWorld.Init NatLoopStep (ρ.state m) ∧
      ∃ v', (ρ.state m).nat.visits sid = some v' ∧ v'.pc ≠ .inserted) := by
  refine hf.reaches
    (P := fun s => Reach NatWorld.Init NatLoopStep s ∧ s.nat.visits sid = some v ∧ sid ∈ s.senders v.cfg.sidCh)
    (G := fun s => s.Stuck sid ∨ Reach NatWorld.Init NatLoopStep s ∧
      ∃ v', s.nat.visits sid = some v' ∧ v'.pc ≠ .inserted)
    (fun s => 3 * (s.senders v.cfg.sidCh).idxOf sid + (s.loops v.cfg.sidCh).rank) ?_ ?_ n ⟨hr, hv, hm⟩
  · rintro s e t ⟨hr, hv, hm⟩ - hst
    have hi := inv_of_reach hr
    rcases hst.inserted_cases hi hv hpc with ⟨hv', hm'⟩ | ⟨-, -, -, -, -, v', hv', hw⟩
    · by_cases he : e = .loop v.cfg.sidCh
      · subst he
        rcases hst.loop_cases with ⟨k, rest, hl, hs, ht, hl'⟩ | ⟨hs, hx | hlt⟩
        · have hk : sid ≠ k := by
            rintro rfl
            have hnd := hi.nodup v.cfg.sidCh
            rw [hs] at hnd; exact (List.nodup_cons.mp hnd).1 (ht ▸ hm' hm)
          have hrank : 3 * (t.senders v.cfg.sidCh).idxOf sid + (t.loops v.cfg.sidCh).rank <
              3 * (s.senders v.cfg.sidCh).idxOf sid + (s.loops v.cfg.sidCh).rank := by
            rw [ht, hl', hs, hl, List.idxOf_cons_ne rest (Ne.symm hk)]
            simp only [SidLoop.rank]; omega
          exact .inr ⟨⟨hr.next hst, hv', hm' hm⟩, Nat.le_of_lt hrank, fun _ => hrank⟩
        · exact .inl (.inl ⟨v, hv', hpc, hm' hm, hx⟩)
        · refine .inr ⟨⟨hr.next hst, hv', hm' hm⟩, ?_, fun _ => ?_⟩ <;> rw [hs] <;> omega
      · obtain ⟨hl, l, hs⟩ := hst.other_loop he
        refine .inr ⟨⟨hr.next hst, hv', hm' hm⟩, Nat.le_of_eq ?_, fun h => absurd h he⟩
        rw [hl, hs, List.idxOf_append_of_mem hm]
    · exact .inl (.inr ⟨hr.next hst, v', hv', by simp [hw]⟩)
  · rintro s ⟨hr, hv, hm⟩ hno
    obtain ⟨e, t, hh, hst⟩ := ((inv_of_reach hr).helps_iff hv).mpr fun h => hno (.inl h)
    rcases hh with hcall | ⟨w, hw, -, -, rfl⟩
    · exact absurd hm (hst.call_inserted (inv_of_reach hr) hcall hv hpc).1
    · rw [hv] at hw; cases hw
      exact ⟨_, t, rfl, hst⟩

theorem NatWorld.is_removed (hf : ρ.Fair (ofCall sid))
    (hpc : v.pc ≠ .inserted) : ∃ m, n ≤ m ∧ (ρ.state m).nat.visits sid = none := by
  refine hf.reaches
    (P := fun s => Reach NatWorld.Init NatLoopStep s ∧ ∃ v, s.nat.visits sid = some v ∧ v.pc ≠ .inserted)
    (G := fun s => s.nat.visits sid = none) (fun s => ((s.nat.visits sid).map (·.pc.rank)).getD 0) ?_ ?_ n
    ⟨hr, v, hv, hpc⟩
  · rintro s e t ⟨hr, v, hv, hpc⟩ - hst
    rcases hst.later_cases (inv_of_reach hr) hv hpc with ⟨hno, hv'⟩ | ⟨-, hv' | ⟨v', hv', hpc', hlt⟩⟩
    · refine .inr ⟨⟨hr.next hst, v, hv', hpc⟩, Nat.le_of_eq ?_, fun he => absurd he hno⟩
      rw [hv, hv']
    · exact .inl hv'
    · rw [hv, hv']; exact .inr ⟨⟨hr.next hst, v', rfl, hpc'⟩, Nat.le_of_lt hlt, fun _ => hlt⟩
  · rintro s ⟨-, v, hv, hpc⟩ -
    cases hpc' : v.pc with
    | inserted => exact absurd hpc' hpc
    | waiting => exact ⟨.nat (.timeout sid), _, rfl, .nat trivial (.timeout hv hpc')⟩
    | responding => exact ⟨.nat (.respond sid), _, rfl, .nat trivial (.respond hv hpc')⟩
    | leaving => exact ⟨.nat (.leave sid), _, rfl, .nat trivial (.leave hv hpc')⟩

end

/-- In a run that is fair to the call and to the loop of its proxy, the session of the call is
removed if and only if the call does not get stuck. -/
theorem nat_sessions_progress_iff :
    (∀ s, Reach NatWorld.Init NatLoopStep s → ∀ sid, s.nat.visits sid ≠ none →
      ((∃ e t, s.Helps sid e ∧ NatLoopStep s e t) ↔ ¬ s.Stuck sid)) ∧
    ∀ (ρ : Run NatLoopStep), (ρ.state 0).Init → ∀ n sid v, (ρ.state n).nat.visits sid = some v →
      ρ.Fair (NatLoopEvent.ofCall sid) → ρ.Fair (· = .loop v.cfg.sidCh) →
      ((∃ m, n ≤ m ∧ (ρ.state m).nat.sessions sid = none) ↔ ∀ m, n ≤ m → ¬ (ρ.state m).Stuck sid) := by
  refine ⟨fun s hr sid hv => ?_, fun ρ h0 n sid v hv hcall hloop => ?_⟩
  · obtain ⟨v, hv⟩ := Option.ne_none_iff_exists'.mp hv
    exact (inv_of_reach hr).helps_iff hv
  have hr := ρ.reach h0
  have hlt : sid < (ρ.state n).nat.nextSid := by
    by_contra hge
    rw [((inv_of_reach (hr n)).fresh sid (by omega)).visit] at hv; cases hv
  constructor
  · rintro ⟨k, hk, hnone⟩ m hm hstuck
    have hlt' : sid < (ρ.state k).nat.nextSid :=
      ρ.always (fun s e t h hst => Nat.lt_of_lt_of_le h hst.nextSid_le) hlt k hk
    rcases Nat.le_total m k with hmk | hkm
    · -- still stuck when the session is gone
      obtain ⟨-, w, hw, -⟩ := ρ.always
        (P := fun s => Reach NatWorld.Init NatLoopStep s ∧ s.Stuck sid)
        (fun _ _ _ h hst => ⟨h.1.next hst, hst.stuck (inv_of_reach h.1) h.2⟩) ⟨hr m, hstuck⟩ k hmk
      rw [((inv_of_reach (hr k)).paired sid).mp hnone] at hw; cases hw
    · have hgone := (ρ.always (fun _ _ _ h hst => hst.removed h)
        (show (ρ.state k).Removed sid from ⟨hnone, hlt'⟩) m hkm).1
      obtain ⟨w, hw, -⟩ := hstuck
      rw [((inv_of_reach (hr m)).paired sid).mp hgone] at hw; cases hw
  · intro hno
    suffices h : ∃ m, n ≤ m ∧ (ρ.state m).nat.visits sid = none by
      obtain ⟨m, hm, hnone⟩ := h
      exact ⟨m, hm, ((inv_of_reach (hr m)).paired sid).mpr hnone⟩
    by_cases hpc : v.pc = .inserted
    · obtain ⟨m, hm, hv', hmem⟩ := comes_to_send (hr n) hv hcall hpc
      obtain ⟨k, hk, hstuck | ⟨hrk, v', hvk, hpck⟩⟩ := is_received (hr m) hv' hloop hpc hmem
      · exact absurd hstuck (hno k (Nat.le_trans hm hk))
      · obtain ⟨j, hj, hnone⟩ := is_removed hrk hvk hcall hpck
        exact ⟨j, by omega, hnone⟩
    · exact is_removed (hr n) hv hcall hpc

end

/-! ### A proxy that is closed between the two -/

section
variable [Md5] {s t : NatWorld} {e : NatLoopEvent}

theorem NatLoopStep.call_of_visit {sid : Nat} (h : NatLoopStep s e t) (he : e.ofCall sid) :
    s.nat.visits sid ≠ none := by
  have hsome : ∀ {k : Nat} {v : Visit}, s.nat.visits k = some v → k = sid → s.nat.visits sid ≠ none := by
    rintro k v hv rfl hnone
    rw [hv] at hnone; cases hnone
  cases h with
  | nat ha hst =>
    cases hst with
    | wake hv | timeout hv | respond hv | leave hv => exact hsome hv he
    | listenClient | repeated | closeClient | preCheck | refused | admitted | sendSid | client | noSession =>
      exact he.elim
  | block hv => exact hsome hv he
  | listenClient | repeated | receive | noWorkConn | workConn | written | exit | closeClient | closeLoop =>
    exact he.elim

theorem NatLoopStep.loop_of_work {ch : Nat} (h : NatLoopStep s (.loop ch) t) (hs : s.senders ch = [])
    (hc : s.closeCh ch = false) : s.loops ch ≠ .selecting := by
  intro hl
  cases h with
  | receive k rest _ hsend => rw [hs] at hsend; cases hsend
  | noWorkConn hl' | workConn hl' | written hl' => rw [hl] at hl'; cases hl'
  | exit _ hc' => rw [hc] at hc'; cases hc'

end

section
attribute [local instance] Md5.plain

def dnsVisited : NatWorld :=
  ⟨dnsListening.insertSession signedVisit 0 (lit "alice") onlyAlice, update (fun _ => []) 0 (lit "dns"),
    fun _ => .selecting, fun _ => [], fun _ => false, fun _ => false⟩

theorem dnsVisited_reach : Reach NatWorld.Init NatLoopStep dnsVisited := by
  have h : Reach NatWorld.Init NatLoopStep ⟨⟨fun _ => none, fun _ => none, fun _ => none, 0, 0, [], []⟩, fun _ => [],
      fun _ => .selecting, fun _ => [], fun _ => false, fun _ => false⟩ :=
    .start ⟨rfl, fun _ => rfl, fun _ => rfl, fun _ => rfl, fun _ => rfl⟩
  have h := h.next (.listenClient (lit "dns") (lit "key") [lit "alice"] rfl (.listenClient _ _ rfl))
  exact h.next (.nat (e := .visitor signedVisit 0 (lit "alice")) trivial
    (.admitted 0 (lit "alice") rfl (admitVisitor_eq_ok.mpr ⟨rfl, rfl⟩)))

theorem nat_sessions_progress_timeout : ∃ (ρ : Run NatLoopStep) (n : Nat), (ρ.state 0).Init ∧
    (ρ.state n).nat.sessions 0 ≠ none ∧ ρ.Fair (NatLoopEvent.ofCall 0) ∧ ρ.Fair (· = .loop 0) ∧
    ∀ m, n ≤ m → ¬ (ρ.state m).Stuck 0 := by
  obtain ⟨ρ₀, n, h0, hn⟩ := dnsVisited_reach.exists_run
  have h := (.start (hn n (Nat.le_refl n)).symm : Reach (· = ρ₀.state n) NatLoopStep dnsVisited)
    |>.next (@block _ _ 0 _ rfl rfl List.not_mem_nil)
    |>.next (@receive _ _ 0 _ 0 [] rfl rfl (.sendSid rfl rfl))
    |>.next (@noWorkConn _ _ 0 0 rfl)
    |>.next (@nat _ _ (.timeout 0) _ trivial (.timeout rfl rfl))
    |>.next (@nat _ _ (.leave 0) _ trivial (.leave rfl rfl))
  obtain ⟨ρ, M, hnM, hold, hM⟩ := ρ₀.extend n h
  have hin : ρ.state n = dnsVisited := (hold n (Nat.le_refl n)).trans (hn n (Nat.le_refl n))
  have hcall : ρ.Fair (ofCall 0) := Run.fair_of_rest hM fun e t he hst => hst.call_of_visit he rfl
  have hloop : ρ.Fair (· = .loop 0) := by
    refine Run.fair_of_rest hM ?_
    rintro e t rfl hst; exact hst.loop_of_work rfl rfl rfl
  refine ⟨ρ, n, by rw [hold 0 (Nat.zero_le n)]; exact h0, by rw [hin]; exact Option.some_ne_none _, hcall, hloop, ?_⟩
  have hprog := nat_sessions_progress_iff.2 ρ (by rw [hold 0 (Nat.zero_le n)]; exact h0) n 0 _ (by rw [hin]; rfl)
    hcall hloop
  exact hprog.mp ⟨M, hnM, by rw [hM M (Nat.le_refl M)]; rfl⟩

theorem closed_proxy_strands_session : ∃ (ρ : Run NatLoopStep) (n : Nat), (ρ.state 0).Init ∧
    ρ.Fair (NatLoopEvent.ofCall 0) ∧ ρ.Fair (· = .loop 0) ∧ ∀ m, n ≤ m → (ρ.state m).nat.sessions 0 ≠ none := by
  have h := dnsVisited_reach
    |>.next (@closeClient _ _ 0 _ Nat.zero_lt_one rfl (.closeClient _ _))
    |>.next (@closeLoop _ _ 0 rfl rfl)
    |>.next (@exit _ _ 0 rfl rfl)
    |>.next (@block _ _ 0 _ rfl rfl List.not_mem_nil)
  have hi := inv_of_reach h
  obtain ⟨ρ, N, h0, hN⟩ := h.exists_run
  refine ⟨ρ, N, h0, Run.fair_of_rest hN fun e t he hst => ?_, Run.fair_of_rest hN ?_, fun m hm => ?_⟩
  · exact (hst.call_inserted hi he rfl rfl).1 List.mem_cons_self
  · rintro e t rfl hst; exact (hst.exited rfl).1 rfl
  · rw [hN m hm]; exact Option.some_ne_none _

end

end Frp
