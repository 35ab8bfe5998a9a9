import Frp.ListenGroupRun
import Frp.Mutex
import Frp.Slots

/-!
# The life of a group object

A group object gets its real listener and its first member under one hold of its lock, and
is cleaned up under another when the last one leaves. It is in the registry from the first
to the last.
-/

namespace Frp

open ListenPc

/-! ## Places of a call -/

namespace ListenPc

def gate : ListenPc → Option Nat
  | entered g | first g | acquired g _ | opened g _ | joining g | leaving g _ | last g _ | shut g _ | half g _
  | cleaned g _ => some g
  | _ => none

def stage : ListenPc → Option (Nat × GroupStage)
  | first g => some (g, .fresh)
  | acquired g r => some (g, .acquired r)
  | opened g r => some (g, .opened r)
  | joining g | leaving g _ => some (g, .active)
  | last g _ => some (g, .emptied)
  | shut g _ => some (g, .shut)
  | half g _ => some (g, .half)
  | cleaned g _ => some (g, .cleaned)
  | _ => none

def member : ListenPc → Option (Nat × Nat)
  | listening g ch | closing g ch | leaving g ch => some (g, ch)
  | _ => none

def starting : ListenPc → Option Nat
  | first g | acquired g _ | opened g _ => some g
  | _ => none

variable {p : ListenPc} {g : Nat}

theorem gate_of_stage {st : GroupStage} (h : p.stage = some (g, st)) : p.gate = some g := by
  cases p <;> simp_all [stage, gate]

theorem stage_of_starting (h : p.starting = some g) : ∃ st, p.stage = some (g, st) := by
  cases p <;> simp_all [stage, starting]

theorem member_of_gate {g' ch : Nat} (h : p.gate = some g) (hm : p.member = some (g', ch)) : g' = g := by
  cases p <;> simp_all [member, gate]

end ListenPc

def GroupStage.transient : GroupStage → Bool
  | fresh | active | dead => false
  | _ => true

/-! ## Objects -/

section
variable {k : GroupKind}

def GroupObj.GoodAt (o : GroupObj k) : GroupStage → Prop
  | .fresh => o.lns = [] ∧ o.acquires = o.releases ∧ o.opens = 0 ∧ o.closes = 0
  | .acquired r => o.lns = [] ∧ o.acquires = o.releases ++ [r] ∧ o.opens = 0 ∧ o.closes = 0
  | .opened r => o.lns = [] ∧ o.acquires = o.releases ++ [r] ∧ o.opens = 1 ∧ o.closes = 0
  | .active => o.lns ≠ [] ∧ o.group = o.name ∧ o.acquires = o.releases ++ [o.real] ∧ o.opens = 1 ∧ o.closes = 0
  | .emptied | .shut =>
    o.lns = [] ∧ o.group = o.name ∧ o.acquires = o.releases ++ [o.real] ∧ o.opens = 1 ∧ o.closes = 0
  | .half => o.lns = [] ∧ o.group = o.name ∧ o.opens = 1 ∧
    if k = .tcp then o.acquires = o.releases ++ [o.real] ∧ o.closes = 1 else o.acquires = o.releases ∧ o.closes = 0
  | .cleaned | .dead => o.lns = [] ∧ o.group = o.name ∧ o.acquires = o.releases ∧ o.opens = 1 ∧ o.closes = 1

def GroupObj.Good (o : GroupObj k) : Prop := o.GoodAt o.stage

theorem GroupObj.Good.active {o : GroupObj k} (h : o.Good) (hne : o.lns ≠ []) : o.stage = .active := by
  unfold GroupObj.Good at h
  cases hst : o.stage <;> rw [hst] at h <;> first | rfl | exact absurd h.1 hne

structure ListenCall.Fits (c : ListenCall k) (o : GroupObj k) : Prop where
  group : o.group = c.group
  groupKey : o.groupKey = c.groupKey
  params : ∃ p, o.params = some p ∧ k.mismatch p c.params = none

theorem GroupObj.refuse_eq_none {o : GroupObj k} {c : ListenCall k} (h : o.refuse c = none) : c.Fits o := by
  unfold GroupObj.refuse at h
  by_cases hg : o.group = c.group
  · rw [if_neg (not_not.mpr hg)] at h
    cases hp : o.params with
    | none => simp [hp] at h
    | some p =>
      simp only [hp, Option.or_eq_none_iff] at h
      refine ⟨hg, ?_, p, hp, h.1⟩
      by_contra hne
      rw [if_pos hne] at h; cases h.2
  · rw [if_pos hg] at h; cases h

theorem GroupKind.mismatch_self : ∀ (k : GroupKind) (p : k.Params), k.mismatch p p = none
  | .tcp, p => by simp [mismatch, TCPGroupParams.mismatch]
  | .https, p => by simp [mismatch, httpsMismatch]
  | .tcpmux, p => by simp [mismatch, tcpMuxMismatch]

/-! ## The invariant -/

variable {calls : Nat → ListenCall k} {s : ListenWorld k}

structure ListenWorld.Inv (calls : Nat → ListenCall k) (s : ListenWorld k) : Prop where
  locks : Held ListenPc.gate s.pc s.mu
  staged : ∀ i g st, (s.pc i).stage = some (g, st) → ∃ o, s.objs[g]? = some o ∧ o.stage = st
  busy : ∀ (g : Nat) (o : GroupObj k), s.objs[g]? = some o → o.stage.transient = true →
    ∃ i, (s.pc i).stage = some (g, o.stage)
  good : ∀ (g : Nat) (o : GroupObj k), s.objs[g]? = some o → o.Good
  nodup : ∀ (g : Nat) (o : GroupObj k), s.objs[g]? = some o → o.lns.Nodup
  registered : ∀ key g, s.groups key = some g → ∃ o, s.objs[g]? = some o ∧ o.name = key ∧ o.stage ≠ .dead
  current : ∀ (g : Nat) (o : GroupObj k), s.objs[g]? = some o → o.stage ≠ .dead → s.groups o.name = some g
  member : ∀ i g ch, (s.pc i).member = some (g, ch) →
    ∃ o, s.objs[g]? = some o ∧ i ∈ o.lns ∧ o.ch = ch ∧ (calls i).Fits o
  caller : ∀ (g : Nat) (o : GroupObj k) (i : Nat), s.objs[g]? = some o → i ∈ o.lns →
    ∃ ch, (s.pc i).member = some (g, ch)
  named : ∀ i g, (s.pc i).starting = some g → ∃ o, s.objs[g]? = some o ∧ o.name = (calls i).group

namespace ListenWorld.Inv

theorem init (h : s.Init) : s.Inv calls := by
  subst h
  refine ⟨fun t g h => by simp [ListenPc.gate] at h, ?_, ?_, ?_, ?_, ?_, ?_, ?_, ?_, ?_⟩ <;> intros <;>
    simp_all [ListenPc.stage, ListenPc.member, ListenPc.starting]

/-! ## Moves of one call -/

variable {t : ListenWorld k} {i g : Nat} {q : ListenPc} {o o' : GroupObj k}

section
variable (hi : s.Inv calls)
    (hobjs : ∀ g' x, t.objs[g']? = some x ↔ g' = g ∧ x = o' ∨ g' ≠ g ∧ s.objs[g']? = some x)
    (ho : s.objs[g]? = some o) (hname : o'.name = o.name)
    (hreg : t.groups = s.groups ∧ o.stage ≠ .dead ∧ o'.stage ≠ .dead ∨
      t.groups = Function.update s.groups o.name none ∧ o.stage ≠ .dead ∧ o'.stage = .dead)
include hi hobjs ho hname hreg

-- The group of the move stays registered as long as it lives; the others keep their keys either way.
theorem update_registered {key : Str} {g' : Nat} (h : t.groups key = some g') :
    ∃ x, t.objs[g']? = some x ∧ x.name = key ∧ x.stage ≠ .dead := by
  have hs : s.groups key = some g' ∧ (g' = g → o'.stage ≠ .dead) := by
    rcases hreg with ⟨hgr, -, hd⟩ | ⟨hgr, -, -⟩
    · exact ⟨hgr ▸ h, fun _ => hd⟩
    · rw [hgr] at h
      rcases update_cases (· = some g') h with ⟨-, h⟩ | ⟨hk, h⟩
      · cases h
      · refine ⟨h, fun he => ?_⟩
        obtain ⟨x, hx, hn, -⟩ := hi.registered key g' h
        rw [he, ho] at hx; cases hx
        exact absurd hn.symm hk
  obtain ⟨x, hx, hn, hd⟩ := hi.registered key g' hs.1
  by_cases hg : g' = g
  · subst hg
    rw [ho] at hx; cases hx
    exact ⟨o', (hobjs g' o').mpr (.inl ⟨rfl, rfl⟩), hname.trans hn, hs.2 rfl⟩
  · exact ⟨x, (hobjs g' x).mpr (.inr ⟨hg, hx⟩), hn, hd⟩

theorem update_current {g' : Nat} {x : GroupObj k} (hx : t.objs[g']? = some x) (hd : x.stage ≠ .dead) :
    t.groups x.name = some g' := by
  rcases (hobjs g' x).mp hx with ⟨rfl, rfl⟩ | ⟨hne, hx⟩
  · rcases hreg with ⟨hgr, hod, -⟩ | ⟨-, -, hdead⟩
    · rw [hgr, hname]; exact hi.current g' o ho hod
    · exact absurd hdead hd
  · have hcur := hi.current g' x hx hd
    rcases hreg with ⟨hgr, -, -⟩ | ⟨hgr, hod, -⟩
    · rw [hgr]; exact hcur
    · have hnx : x.name ≠ o.name := fun he =>
        hne (Option.some.inj ((he ▸ hcur).symm.trans (hi.current g o ho hod)))
      rw [hgr, Function.update_of_ne hnx]; exact hcur

theorem update (hpc : t.pc = Function.update s.pc i q) (hmu : MuMove gate i (s.pc i) q s.mu t.mu)
    (hgate : (s.pc i).gate = some g)
    (hstage : ∀ g' st, q.stage = some (g', st) → g' = g ∧ st = o'.stage)
    (hbusy : o'.stage.transient = true → q.stage = some (g, o'.stage))
    (hgood : o'.Good) (hnodup : o'.lns.Nodup)
    (hlns : ∀ j, j ≠ i → (j ∈ o'.lns ↔ j ∈ o.lns))
    (hfits : ∀ j ∈ o.lns, j ≠ i → o'.ch = o.ch ∧ ((calls j).Fits o → (calls j).Fits o'))
    (hmem : ∀ g' ch, q.member = some (g', ch) → g' = g ∧ i ∈ o'.lns ∧ o'.ch = ch ∧ (calls i).Fits o')
    (hself : i ∈ o'.lns → ∃ ch, q.member = some (g, ch))
    (hstart : ∀ g', q.starting = some g' → g' = g ∧ o.name = (calls i).group) : t.Inv calls := by
  have hself' : t.pc i = q := by rw [hpc, Function.update_self]
  have hrest : ∀ j, j ≠ i → t.pc j = s.pc j := fun j hj => by rw [hpc, Function.update_of_ne hj]
  -- no other call is inside the group
  have halone : ∀ j st, j ≠ i → (s.pc j).stage ≠ some (g, st) := fun j st hj h =>
    hj (hi.locks.exclusive (gate_of_stage h) hgate)
  have hnew : t.objs[g]? = some o' := (hobjs g o').mpr (.inl ⟨rfl, rfl⟩)
  have hold : ∀ g' x, g' ≠ g → s.objs[g']? = some x → t.objs[g']? = some x := fun g' x hne h =>
    (hobjs g' x).mpr (.inr ⟨hne, h⟩)
  refine ⟨?_, ?_, ?_, ?_, ?_, ?_, ?_, ?_, ?_, ?_⟩
  · rw [hpc]; exact hi.locks.move hmu
  · intro j g' st h
    by_cases hj : j = i
    · subst hj
      rw [hself'] at h
      obtain ⟨rfl, rfl⟩ := hstage g' st h
      exact ⟨o', hnew, rfl⟩
    · rw [hrest j hj] at h
      obtain ⟨x, hx, hst⟩ := hi.staged j g' st h
      exact ⟨x, hold g' x (fun he => halone j st hj (he ▸ h)) hx, hst⟩
  · intro g' x hx htr
    rcases (hobjs g' x).mp hx with ⟨rfl, rfl⟩ | ⟨hne, hx⟩
    · exact ⟨i, by rw [hself']; exact hbusy htr⟩
    · obtain ⟨j, hj⟩ := hi.busy g' x hx htr
      have hji : j ≠ i := by
        rintro rfl; exact hne (Option.some.inj ((gate_of_stage hj).symm.trans hgate))
      exact ⟨j, by rw [hrest j hji]; exact hj⟩
  · intro g' x hx
    rcases (hobjs g' x).mp hx with ⟨rfl, rfl⟩ | ⟨-, hx⟩
    · exact hgood
    · exact hi.good g' x hx
  · intro g' x hx
    rcases (hobjs g' x).mp hx with ⟨rfl, rfl⟩ | ⟨-, hx⟩
    · exact hnodup
    · exact hi.nodup g' x hx
  · intro key g' h; exact update_registered hi hobjs ho hname hreg h
  · intro g' x hx hd; exact update_current hi hobjs ho hname hreg hx hd
  · intro j g' ch h
    by_cases hj : j = i
    · subst hj
      rw [hself'] at h
      obtain ⟨rfl, hm⟩ := hmem g' ch h
      exact ⟨o', hnew, hm⟩
    · rw [hrest j hj] at h
      obtain ⟨x, hx, hmx, hch, hf⟩ := hi.member j g' ch h
      by_cases hg : g' = g
      · subst hg
        rw [ho] at hx; cases hx
        obtain ⟨hch', hf'⟩ := hfits j hmx hj
        exact ⟨o', hnew, (hlns j hj).mpr hmx, hch'.trans hch, hf' hf⟩
      · exact ⟨x, hold g' x hg hx, hmx, hch, hf⟩
  · intro g' x j hx hmx
    rcases (hobjs g' x).mp hx with ⟨rfl, rfl⟩ | ⟨hne, hx⟩
    · by_cases hj : j = i
      · subst hj
        rw [hself']; exact hself hmx
      · rw [hrest j hj]; exact hi.caller g' o j ho ((hlns j hj).mp hmx)
    · obtain ⟨ch, hc⟩ := hi.caller g' x j hx hmx
      have hji : j ≠ i := by rintro rfl; exact hne (member_of_gate hgate hc)
      exact ⟨ch, by rw [hrest j hji]; exact hc⟩
  · intro j g' h
    by_cases hj : j = i
    · subst hj
      rw [hself'] at h
      obtain ⟨rfl, hn⟩ := hstart g' h
      exact ⟨o', hnew, hname.trans hn⟩
    · rw [hrest j hj] at h
      obtain ⟨st, hst⟩ := stage_of_starting h
      obtain ⟨x, hx, hn⟩ := hi.named j g' h
      exact ⟨x, hold g' x (fun he => halone j st hj (he ▸ hst)) hx, hn⟩

end

variable (hi : s.Inv calls)
include hi

theorem calm (hpc : t.pc = Function.update s.pc i q) (hmu : MuMove ListenPc.gate i (s.pc i) q s.mu t.mu)
    (hobjs : t.objs = s.objs) (hgroups : t.groups = s.groups)
    (hp : ∀ g st, (s.pc i).stage = some (g, st) → st.transient = false)
    (hstage : ∀ g st, q.stage = some (g, st) → ∃ o, s.objs[g]? = some o ∧ o.stage = st)
    (hmem : q.member = (s.pc i).member)
    (hstart : ∀ g, q.starting = some g → ∃ o, s.objs[g]? = some o ∧ o.name = (calls i).group) : t.Inv calls := by
  cases t
  subst hpc hobjs hgroups
  have hmember := update_same ListenPc.member hmem
  refine ⟨hi.locks.move hmu, fun j g st h => ?_, fun g o ho htr => ?_, hi.good, hi.nodup, hi.registered, hi.current,
    fun j g ch h => hi.member j g ch ((hmember j).symm.trans h), fun g o j ho hm => ?_, fun j g h => ?_⟩
  · rcases update_cases (ListenPc.stage · = some (g, st)) h with ⟨-, h⟩ | ⟨-, h⟩
    · exact hstage g st h
    · exact hi.staged j g st h
  · obtain ⟨j, hj⟩ := hi.busy g o ho htr
    have hji : j ≠ i := by
      rintro rfl
      rw [hp g o.stage hj] at htr; cases htr
    exact ⟨j, (congrArg ListenPc.stage (Function.update_of_ne hji ..)).trans hj⟩
  · obtain ⟨ch, hc⟩ := hi.caller g o j ho hm
    exact ⟨ch, (hmember j).trans hc⟩
  · rcases update_cases (ListenPc.starting · = some g) h with ⟨hji, hq⟩ | ⟨-, h⟩
    · rw [hji]; exact hstart g hq
    · exact hi.named j g h

theorem addObj {key : Str} (hnone : s.groups key = none) : (s.addObj key).Inv calls := by
  have hold : ∀ (g : Nat) (o : GroupObj k), s.objs[g]? = some o → (s.addObj key).objs[g]? = some o := fun g o h =>
    getElem?_append_singleton_iff.mpr (.inl ⟨(List.getElem?_eq_some_iff.mp h).1, h⟩)
  have hcases : ∀ (g : Nat) (o : GroupObj k), (s.addObj key).objs[g]? = some o →
      s.objs[g]? = some o ∨ g = s.objs.length ∧ o = .new key := by
    intro g o h
    rcases getElem?_append_singleton_iff.mp h with ⟨-, h⟩ | h
    · exact .inl h
    · exact .inr h
  refine ⟨hi.locks, ?_, ?_, ?_, ?_, ?_, ?_, ?_, ?_, ?_⟩
  · intro j g st h
    obtain ⟨o, ho, hst⟩ := hi.staged j g st h
    exact ⟨o, hold g o ho, hst⟩
  · intro g o ho htr
    rcases hcases g o ho with ho | ⟨-, rfl⟩
    · exact hi.busy g o ho htr
    · cases htr
  · intro g o ho
    rcases hcases g o ho with ho | ⟨-, rfl⟩
    · exact hi.good g o ho
    · exact ⟨rfl, rfl, rfl, rfl⟩
  · intro g o ho
    rcases hcases g o ho with ho | ⟨-, rfl⟩
    · exact hi.nodup g o ho
    · exact List.nodup_nil
  · intro key' g h
    simp only [ListenWorld.addObj] at h
    by_cases hk : key' = key
    · subst hk
      rw [Function.update_self] at h; cases h
      exact ⟨.new key', getElem?_append_singleton_iff.mpr (.inr ⟨rfl, rfl⟩), rfl, nofun⟩
    · rw [Function.update_of_ne hk] at h
      obtain ⟨o, ho, hn⟩ := hi.registered key' g h
      exact ⟨o, hold g o ho, hn⟩
  · intro g o ho hd
    simp only [ListenWorld.addObj]
    rcases hcases g o ho with ho | ⟨rfl, rfl⟩
    · have hcur := hi.current g o ho hd
      have hne : o.name ≠ key := fun he => by rw [he, hnone] at hcur; cases hcur
      rw [Function.update_of_ne hne]; exact hcur
    · exact Function.update_self ..
  · intro j g ch h
    obtain ⟨o, ho, hm⟩ := hi.member j g ch h
    exact ⟨o, hold g o ho, hm⟩
  · intro g o j ho hm
    rcases hcases g o ho with ho | ⟨-, rfl⟩
    · exact hi.caller g o j ho hm
    · cases hm
  · intro j g h
    obtain ⟨o, ho, hn⟩ := hi.named j g h
    exact ⟨o, hold g o ho, hn⟩

variable {a : GroupStage}

theorem advance (hp : (s.pc i).stage = some (g, a)) (ho : s.objs[g]? = some o)
    (hpc : t.pc = Function.update s.pc i q) (hmu : MuMove gate i (s.pc i) q s.mu t.mu)
    (hobjs : t.objs = s.objs.set g o') (hname : o'.name = o.name) (hlns : o.lns = []) (hlns' : o'.lns = [])
    (hreg : t.groups = s.groups ∧ o.stage ≠ .dead ∧ o'.stage ≠ .dead ∨
      t.groups = Function.update s.groups o.name none ∧ o.stage ≠ .dead ∧ o'.stage = .dead)
    (hstage : ∀ g' st, q.stage = some (g', st) → g' = g ∧ st = o'.stage)
    (hbusy : o'.stage.transient = true → q.stage = some (g, o'.stage)) (hgood : o'.Good) (hmem : q.member = none)
    (hstart : ∀ g', q.starting = some g' → (s.pc i).starting = some g') : t.Inv calls := by
  have hgate := gate_of_stage hp
  refine update hi (fun g' x => hobjs ▸ getElem?_set_iff ho) ho hname hreg hpc hmu hgate hstage hbusy hgood
    (hlns' ▸ List.nodup_nil) (fun j _ => by rw [hlns, hlns']) (fun j hj => by rw [hlns] at hj; cases hj)
    (fun g' ch h => by rw [hmem] at h; cases h) (fun h => by rw [hlns'] at h; cases h) ?_
  intro g' h
  obtain ⟨st', hst⟩ := stage_of_starting (hstart g' h)
  rw [hp] at hst; cases hst
  obtain ⟨x, hx, hn⟩ := hi.named i g (hstart g h)
  rw [ho] at hx; cases hx
  exact ⟨rfl, hn⟩

/-! ## What a call knows of its group -/

theorem known (hp : (s.pc i).stage = some (g, a)) (ho : s.objs[g]? = some o) : o.stage = a ∧ o.GoodAt a := by
  obtain ⟨x, hx, hst⟩ := hi.staged i g a hp
  rw [ho] at hx; cases hx
  exact ⟨hst, hst ▸ hi.good g o ho⟩

theorem proceed (hp : (s.pc i).stage = some (g, a)) (ho : s.objs[g]? = some o) (hq : q.stage = some (g, o'.stage))
    (ht : t.pc = Function.update s.pc i q ∧ t.mu = s.mu ∧ t.objs = s.objs.set g o' ∧ t.groups = s.groups)
    (hname : o'.name = o.name) (hlns : o'.lns = o.lns) (hlive : a ≠ .dead ∧ o'.stage ≠ .dead) (hmem : q.member = none)
    (hstart : ∀ g', q.starting = some g' → (s.pc i).starting = some g') (hgood : o.GoodAt a → o.lns = [] ∧ o'.Good) :
    t.Inv calls := by
  obtain ⟨hpc, hmu, hobjs, hgroups⟩ := ht
  obtain ⟨rfl, hg⟩ := hi.known hp ho
  obtain ⟨hnil, hgood⟩ := hgood hg
  refine hi.advance hp ho hpc ?_ hobjs hname hnil (hlns.trans hnil) (.inl ⟨hgroups, hlive⟩) ?_
    (fun _ => hq) hgood hmem hstart
  · rw [hmu]; exact .keep (.inr ((gate_of_stage hq).trans (gate_of_stage hp).symm))
  · intro g' st hst
    rw [hq] at hst; cases hst
    exact ⟨rfl, rfl⟩

theorem fresh_of_entered (hp : s.pc i = .entered g)
    (hcur : s.groups (calls i).group = some g) (ho : s.objs[g]? = some o) (hlns : o.lns = []) :
    o.stage = .fresh ∧ o.name = (calls i).group := by
  obtain ⟨x, hx, hname, hdead⟩ := hi.registered _ g hcur
  rw [ho] at hx; cases hx
  refine ⟨?_, hname⟩
  have hquiet : o.stage.transient = false := by
    by_contra htr
    obtain ⟨j, hj⟩ := hi.busy g o ho (by simpa using htr)
    have hji : j = i := hi.locks.exclusive (gate_of_stage hj) (hp ▸ rfl)
    rw [hji, hp] at hj; cases hj
  have hactive : o.stage ≠ .active := by
    intro hst
    have hg := hi.good g o ho
    rw [GroupObj.Good, hst] at hg; exact hg.1 hlns
  cases hst : o.stage <;> simp_all [GroupStage.transient]

theorem outside {p : ListenPc} (hp : s.pc i = p)
    (hpc : t.pc = Function.update s.pc i q) (hmu : MuMove gate i p q s.mu t.mu) (hobjs : t.objs = s.objs)
    (hgroups : t.groups = s.groups) (hout : ∀ g st, p.stage = some (g, st) → st.transient = false)
    (hstage : q.stage = none) (hmem : q.member = p.member) (hstart : q.starting = none) : t.Inv calls := by
  subst hp
  refine hi.calm hpc hmu hobjs hgroups hout (fun g st h => ?_) hmem fun g h => ?_
  · cases hstage.symm.trans h
  · cases hstart.symm.trans h

end ListenWorld.Inv

/-! ## Steps and runs -/

theorem ListenStep.inv {t : ListenWorld k} {e : ListenEvent} (hst : ListenStep calls s e t) (hi : s.Inv calls) :
    t.Inv calls := by
  cases hst with
  | get _ hp | unknownMultiplexer _ hp | close _ _ hp =>
    exact hi.outside hp rfl (.keep (.inl rfl)) rfl rfl nofun rfl rfl rfl
  | @create i hp hnone =>
    refine (hi.addObj hnone).calm rfl (.keep (.inl rfl)) rfl rfl ?_ nofun ?_ nofun <;>
      simp only [ListenWorld.addObj, hp]
    · nofun
    · rfl
  | enter _ hp _ hfree => exact hi.outside hp rfl (.acquire rfl hfree) rfl rfl nofun rfl rfl rfl
  | stale _ hp => exact hi.outside hp rfl (.release rfl rfl) rfl rfl nofun rfl rfl rfl
  | @first i g o hp hcur ho hlns =>
    obtain ⟨hfresh, hname⟩ := hi.fresh_of_entered hp hcur ho hlns
    refine hi.calm rfl (.keep (.inr (hp ▸ rfl))) rfl rfl ?_ ?_ ?_ ?_
    · rw [hp]
      nofun
    · rintro _ _ ⟨⟩
      exact ⟨o, ho, hfresh⟩
    · rw [hp]; rfl
    · rintro _ ⟨⟩
      exact ⟨o, ho, hname⟩
  | @join i g o hp _ ho hne =>
    refine hi.calm rfl (.keep (.inr (hp ▸ rfl))) rfl rfl ?_ ?_ ?_ nofun
    · rw [hp]
      nofun
    · rintro _ _ ⟨⟩
      exact ⟨o, ho, (hi.good g o ho).active hne⟩
    · rw [hp]; rfl
  | acquireFails _ _ hp | muxerListenFails _ _ hp | refused _ _ _ hp =>
    refine hi.outside hp rfl (.release rfl rfl) rfl rfl (fun _ _ h => ?_) rfl rfl rfl
    cases h; rfl
  | @enterClose i g ch hp hfree =>
    refine hi.calm rfl (.acquire rfl hfree) rfl rfl ?_ ?_ ?_ nofun
    · rw [hp]
      nofun
    · rintro _ _ ⟨⟩
      obtain ⟨o, ho, hm, -, -⟩ := hi.member i g ch (hp ▸ rfl)
      exact ⟨o, ho, (hi.good g o ho).active (List.ne_nil_of_mem hm)⟩
    · rw [hp]; rfl
  | @acquire i g o r hp _ ho =>
    refine hi.proceed (a := .fresh) (hp ▸ rfl) ho rfl ⟨rfl, rfl, rfl, rfl⟩ rfl rfl ⟨nofun, nofun⟩ rfl
      (hp ▸ fun _ h => h) fun hg => ⟨hg.1, ?_⟩
    exact ⟨hg.1, congrArg (· ++ [r]) hg.2.1, hg.2.2⟩
  | @netListenFails i g o r err hp ho =>
    obtain ⟨hs, hg⟩ := hi.known (i := i) (a := .acquired r) (hp ▸ rfl) ho
    exact hi.advance (a := .acquired r) (hp ▸ rfl) ho rfl (.release (hp ▸ rfl) rfl) rfl rfl hg.1 hg.1
      (.inl ⟨rfl, hs ▸ nofun, nofun⟩) nofun nofun hg rfl nofun
  | @netListen i g o r hp ho =>
    refine hi.proceed (a := .acquired r) (hp ▸ rfl) ho rfl ⟨rfl, rfl, rfl, rfl⟩ rfl rfl ⟨nofun, nofun⟩ rfl
      (hp ▸ fun _ h => h) fun hg => ⟨hg.1, ?_⟩
    exact ⟨hg.1, hg.2.1, congrArg (· + 1) hg.2.2.1, hg.2.2.2⟩
  | @muxerListen i g o r hp _ ho =>
    refine hi.proceed (a := .fresh) (hp ▸ rfl) ho rfl ⟨rfl, rfl, rfl, rfl⟩ rfl rfl ⟨nofun, nofun⟩ rfl
      (hp ▸ fun _ h => h) fun hg => ⟨hg.1, ?_⟩
    exact ⟨hg.1, congrArg (· ++ [r]) hg.2.1, congrArg (· + 1) hg.2.2.1, hg.2.2.2⟩
  | @init i g o r hp ho =>
    obtain ⟨hs, hg⟩ := hi.known (i := i) (a := .opened r) (hp ▸ rfl) ho
    obtain ⟨x, hx, hname⟩ := hi.named i g (hp ▸ rfl)
    rw [ho] at hx; cases hx
    refine ListenWorld.Inv.update hi (fun g' x => getElem?_set_iff ho) ho rfl (.inl ⟨rfl, hs ▸ nofun, nofun⟩) rfl
      (.release (hp ▸ rfl) rfl) (hp ▸ rfl) nofun nofun ?_ ?_ ?_ ?_ ?_ ?_ nofun
    · refine ⟨?_, hname.symm, hg.2.1, hg.2.2⟩
      simp
    · simp [hg.1]
    · intro j hj; simp [hj]
    · intro j hj
      rw [hg.1] at hj; cases hj
    · rintro _ _ ⟨⟩
      exact ⟨rfl, by simp, rfl, rfl, rfl, _, rfl, k.mismatch_self _⟩
    · exact fun _ => ⟨_, rfl⟩
  | @joined i g o hp ho hok =>
    obtain ⟨hs, hg⟩ := hi.known (i := i) (a := .active) (hp ▸ rfl) ho
    have hnew : i ∉ o.lns := by
      intro hm
      obtain ⟨ch, hc⟩ := hi.caller g o i ho hm
      rw [hp] at hc; cases hc
    have hfits := GroupObj.refuse_eq_none hok
    have hnd : (o.lns ++ [i]).Nodup := List.concat_eq_append ▸ (hi.nodup g o ho).concat hnew
    refine ListenWorld.Inv.update hi (fun g' x => getElem?_set_iff ho) ho rfl (.inl ⟨rfl, hs ▸ nofun, ?_⟩) rfl
      (.release (hp ▸ rfl) rfl) (hp ▸ rfl) nofun ?_ ?_ hnd ?_ ?_ ?_ ?_ nofun
    · simp [hs]
    · simp [hs, GroupStage.transient]
    · rw [GroupObj.Good, hs]; exact ⟨by simp, hg.2⟩
    · intro j hj; simp [hj]
    · exact fun j _ _ => ⟨rfl, fun h => ⟨h.group, h.groupKey, h.params⟩⟩
    · rintro _ _ ⟨⟩
      exact ⟨rfl, by simp, rfl, hfits.group, hfits.groupKey, hfits.params⟩
    · exact fun _ => ⟨_, rfl⟩
  | @leave i g ch o hp ho hne =>
    obtain ⟨hs, hg⟩ := hi.known (i := i) (a := .active) (hp ▸ rfl) ho
    have hnd := hi.nodup g o ho
    refine ListenWorld.Inv.update hi (fun g' x => getElem?_set_iff ho) ho rfl (.inl ⟨rfl, hs ▸ nofun, ?_⟩) rfl
      (.release (hp ▸ rfl) rfl) (hp ▸ rfl) nofun ?_ ?_ (hnd.erase i) ?_ ?_ nofun ?_ nofun
    · simp [hs]
    · simp [hs, GroupStage.transient]
    · rw [GroupObj.Good, hs]; exact ⟨hne, hg.2⟩
    · exact fun j hj => List.mem_erase_of_ne hj
    · exact fun j _ _ => ⟨rfl, fun h => ⟨h.group, h.groupKey, h.params⟩⟩
    · exact fun hm => absurd hm hnd.not_mem_erase
  | @leaveLast i g ch o hp ho hnil =>
    obtain ⟨hs, hg⟩ := hi.known (i := i) (a := .active) (hp ▸ rfl) ho
    refine ListenWorld.Inv.update hi (fun g' x => getElem?_set_iff ho) ho rfl (.inl ⟨rfl, hs ▸ nofun, nofun⟩) rfl
      (.keep (.inr (hp ▸ rfl))) (hp ▸ rfl) ?_ (fun _ => rfl) ⟨hnil, hg.2⟩
        ((hi.nodup g o ho).erase i) ?_ ?_ nofun ?_ nofun
    · rintro _ _ ⟨⟩
      exact ⟨rfl, rfl⟩
    · exact fun j hj => List.mem_erase_of_ne hj
    · exact fun j _ _ => ⟨rfl, fun h => ⟨h.group, h.groupKey, h.params⟩⟩
    · exact fun hm => absurd hm (hi.nodup g o ho).not_mem_erase
  | @closeAccept i g ch o c hp ho =>
    exact hi.proceed (a := .emptied) (hp ▸ rfl) ho rfl ⟨rfl, rfl, rfl, rfl⟩ rfl rfl ⟨nofun, nofun⟩ rfl nofun
      fun hg => ⟨hg.1, hg⟩
  | @closeReal i g ch o c hp hk ho =>
    refine hi.proceed (a := .shut) (hp ▸ rfl) ho rfl ⟨rfl, rfl, rfl, rfl⟩ rfl rfl ⟨nofun, nofun⟩ rfl nofun
      fun hg => ⟨hg.1, ?_⟩
    simp only [GroupObj.Good, GroupObj.GoodAt, if_pos hk]
    exact ⟨hg.1, hg.2.1, hg.2.2.2.1, hg.2.2.1, congrArg (· + 1) hg.2.2.2.2⟩
  | @release i g ch o hp hk ho =>
    refine hi.proceed (a := .half) (hp ▸ rfl) ho rfl ⟨rfl, rfl, rfl, rfl⟩ rfl rfl ⟨nofun, nofun⟩ rfl nofun
      fun hg => ⟨hg.1, ?_⟩
    simp only [GroupObj.GoodAt, if_pos hk] at hg
    exact ⟨hg.1, hg.2.1, hg.2.2.2.1, hg.2.2.1, hg.2.2.2.2⟩
  | @del i g ch o hp hk ho =>
    refine hi.proceed (a := .shut) (hp ▸ rfl) ho rfl ⟨rfl, rfl, rfl, rfl⟩ rfl rfl ⟨nofun, nofun⟩ rfl nofun
      fun hg => ⟨hg.1, ?_⟩
    simp only [GroupObj.Good, GroupObj.GoodAt, if_neg hk]
    exact ⟨hg.1, hg.2.1, hg.2.2.2.1, hg.2.2.1, hg.2.2.2.2⟩
  | @closeMuxer i g ch o c hp hk ho =>
    refine hi.proceed (a := .half) (hp ▸ rfl) ho rfl ⟨rfl, rfl, rfl, rfl⟩ rfl rfl ⟨nofun, nofun⟩ rfl nofun
      fun hg => ⟨hg.1, ?_⟩
    simp only [GroupObj.GoodAt, if_neg hk] at hg
    exact ⟨hg.1, hg.2.1, hg.2.2.2.1, hg.2.2.1, congrArg (· + 1) hg.2.2.2.2⟩
  | @removeIf i g ch o hp ho =>
    obtain ⟨hs, hg⟩ := hi.known (i := i) (a := .cleaned) (hp ▸ rfl) ho
    have hcur : s.groups o.group = some g := hg.2.1 ▸ hi.current g o ho (hs ▸ nofun)
    have hrm : s.removeIf o.group g = { s with groups := Function.update s.groups o.name none } := by
      rw [ListenWorld.removeIf, if_pos hcur, hg.2.1]
    rw [hrm]
    exact hi.advance (a := .cleaned) (hp ▸ rfl) ho rfl (.release (hp ▸ rfl) rfl) rfl rfl hg.1 hg.1
      (.inr ⟨rfl, hs ▸ nofun, rfl⟩) nofun nofun hg rfl nofun
  | accept | acceptFails | deliver | panics => exact ⟨hi.1, hi.2, hi.3, hi.4, hi.5, hi.6, hi.7, hi.8, hi.9, hi.10⟩

theorem ListenWorld.inv_of_reach (h : Reach ListenWorld.Init (ListenStep calls) s) : s.Inv calls :=
  h.invariant (fun _ h => .init h) fun _ _ _ _ hi hst => hst.inv hi

end

end Frp
