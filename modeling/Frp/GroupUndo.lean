import Frp.ListenGroup
import Frp.Rollback

/-!
# Leaving a group

What a proxy that joins a group of listeners and leaves it again does to the group: nothing,
if others were there before it; if it was the first, the real listener is closed with it and
the group is gone.
-/

namespace Frp

open VhostTable VhostMux

/-! ## Groups of listeners -/

namespace GroupRegistry

variable {P L S : Type} {r base : GroupRegistry P L} {group : Str}

theorem live_put_self (r : GroupRegistry P L) (key : Str) (g : Option (BaseGroup P L)) (n : Nat) (hn hg) :
    (r.put key g n hn hg).live key = g.bind BaseGroup.cycle := by
  show (Function.update r.groups key g key).bind BaseGroup.cycle = _
  rw [Function.update_self]

theorem live_put_ne (r : GroupRegistry P L) {key k : Str} (g : Option (BaseGroup P L)) (n : Nat) (hn hg)
    (hk : k ≠ key) : (r.put key g n hn hg).live k = r.live k := by
  show (Function.update r.groups key g k).bind BaseGroup.cycle = _
  rw [Function.update_of_ne hk]; rfl

theorem live_getOrCreate (r : GroupRegistry P L) (key k : Str) : (r.getOrCreate key).live k = r.live k := by
  unfold getOrCreate
  split
  next => rfl
  next hnone =>
    by_cases hk : k = key
    · rw [hk, live_put_self]
      unfold live
      rw [hnone]; rfl
    · rw [live_put_ne _ _ _ _ _ hk]

variable {openReal : S → S × Except Str L} {mismatch : P → P → Option Str}

theorem listen_of_none {groupKey : Str} {params : P}
    {s : S} (h : r.live group = none) : r.listen openReal mismatch group groupKey params s = match openReal s with
      | (s, .error e) => ((s, r.getOrCreate group), .error e)
      | (s, .ok l) => ((s, r.start group groupKey params l), .ok (r.next, l)) := by
  unfold listen
  split
  next => rfl
  next c hc => rw [h] at hc; cases hc

variable {c : ListenCycle P L}

theorem listen_of_some {groupKey : Str} {params : P}
    {s : S} (h : r.live group = some c) : r.listen openReal mismatch group groupKey params s =
      match c.refuse mismatch group groupKey params with
      | some e => ((s, r), .error e)
      | none => ((s, r.join group c h), .ok (r.next, c.realLn)) := by
  unfold listen
  split
  next hc => rw [h] at hc; cases hc
  next c' hc =>
    have : c' = c := Option.some.inj (hc.symm.trans h)
    subst this; rfl

theorem closeListener_last {ln : Nat} (closeReal : L → S → S) (s : S)
    (h : r.live group = some c) (he : c.lns.erase ln = []) :
    ∃ r', r.closeListener closeReal group ln s = (closeReal c.realLn s, r') ∧ r'.live group = none ∧
      ∀ key, key ≠ group → r'.live key = r.live key := by
  unfold closeListener
  split
  next hc => rw [h] at hc; cases hc
  next c' hc =>
    cases h.symm.trans hc
    rw [dif_pos he]; exact ⟨_, rfl, live_put_self .., fun key hk => live_put_ne _ _ _ _ _ hk⟩

theorem closeListener_more {ln : Nat} (closeReal : L → S → S) (s : S)
    (h : r.live group = some c) (he : c.lns.erase ln ≠ []) : ∃ r', r.closeListener closeReal group ln s = (s, r') ∧
      r'.live group = some { c with lns := c.lns.erase ln, nonempty := he } ∧
      ∀ key, key ≠ group → r'.live key = r.live key := by
  unfold closeListener
  split
  next hc => rw [h] at hc; cases hc
  next c' hc =>
    cases h.symm.trans hc
    rw [dif_neg he]; exact ⟨_, rfl, live_put_self .., fun key hk => live_put_ne _ _ _ _ _ hk⟩

/-- The listeners `held`, and no others, have come to the group since `base`. -/
inductive Held (Undone : S → Prop) (closeReal : L → S → S) (base : GroupRegistry P L) (group : Str) :
    List Nat → S × GroupRegistry P L → Prop
  | idle {x} : (∀ key, key ≠ group → x.2.live key = base.live key) → base.live group = none →
      x.2.live group = none → Undone x.1 → Held Undone closeReal base group [] x
  | opened (c : ListenCycle P L) {x ln lns} :
      (∀ key, key ≠ group → x.2.live key = base.live key) → base.live group = none →
      x.2.live group = some c → c.lns = ln :: lns → Undone (closeReal c.realLn x.1) →
      Held Undone closeReal base group (ln :: lns) x
  | joined (c₀ c : ListenCycle P L) {x held} :
      (∀ key, key ≠ group → x.2.live key = base.live key) → base.live group = some c₀ →
      x.2.live group = some c → c.group = c₀.group ∧ c.groupKey = c₀.groupKey ∧ c.params = c₀.params ∧
        c.realLn = c₀.realLn → c.lns = c₀.lns ++ held → (∀ ln ∈ held, ln ∉ c₀.lns) → Undone x.1 →
      Held Undone closeReal base group held x

namespace Held

variable {Undone : S → Prop} {closeReal : L → S → S} {held : List Nat}

theorem refl (r : GroupRegistry P L) (group : Str) {s : S} (hs : Undone s) :
    Held Undone closeReal r group [] (s, r) := by
  cases hl : r.live group with
  | none => exact .idle (fun _ _ => rfl) hl hl hs
  | some c => exact .joined c c (fun _ _ => rfl) hl hl ⟨rfl, rfl, rfl, rfl⟩ (by simp) (by simp) hs

theorem done {x : S × GroupRegistry P L} (h : Held Undone closeReal base group [] x) :
    (∀ key, x.2.live key = base.live key) ∧ Undone x.1 := by
  cases h with
  | idle hoth hb hl hu =>
    refine ⟨fun key => ?_, hu⟩
    by_cases hk : key = group
    · rw [hk, hl, hb]
    · exact hoth key hk
  | joined c₀ c hoth hb hl hset hlns _ hu =>
    refine ⟨fun key => ?_, hu⟩
    by_cases hk : key = group
    · rw [hk, hl, hb]
      congr 1
      exact ListenCycle.ext hset.1 hset.2.1 hset.2.2.1 hset.2.2.2 (by simpa using hlns)
    · exact hoth key hk

theorem released {ln : Nat} {s : S} (h : Held Undone closeReal base group (ln :: held) (s, r)) :
    Held Undone closeReal base group held (r.closeListener closeReal group ln s) := by
  cases h with
  | opened c hoth hb hl hlns hu =>
    have herase : c.lns.erase ln = held := by rw [hlns, List.erase_cons_head]
    cases held with
    | nil =>
      obtain ⟨r', heq, hself, hne⟩ := closeListener_last closeReal s hl herase
      rw [heq]; exact .idle (fun key hk => (hne key hk).trans (hoth key hk)) hb hself hu
    | cons =>
      have hmore : c.lns.erase ln ≠ [] := by simp [herase]
      obtain ⟨r', heq, hself, hne⟩ := closeListener_more closeReal s hl hmore
      rw [heq]; exact .opened _ (fun key hk => (hne key hk).trans (hoth key hk)) hb hself herase hu
  | joined c₀ c hoth hb hl hset hlns hnew hu =>
    have hnot : ln ∉ c₀.lns := hnew ln List.mem_cons_self
    have herase : c.lns.erase ln = c₀.lns ++ held := by
      rw [hlns, List.erase_append_right _ hnot, List.erase_cons_head]
    have hmore : c.lns.erase ln ≠ [] := by simp [herase, c₀.nonempty]
    obtain ⟨r', heq, hself, hne⟩ := closeListener_more closeReal s hl hmore
    rw [heq]
    exact .joined c₀ _ (fun key hk => (hne key hk).trans (hoth key hk)) hb hself hset herase
      (fun l hm => hnew l (List.mem_cons_of_mem _ hm)) hu

theorem start {s : S} {groupKey : Str} {params : P} {l : L} (hoth : ∀ key, key ≠ group → r.live key = base.live key)
    (hb : base.live group = none) (hu : Undone (closeReal l s)) :
    Held Undone closeReal base group [r.next] (s, r.start group groupKey params l) := by
  refine .opened ⟨group, groupKey, params, l, [r.next], List.cons_ne_nil _ _⟩ (fun key hk => ?_) hb ?_ rfl hu
  · unfold GroupRegistry.start
    rw [live_put_ne _ _ _ _ _ hk]; exact hoth key hk
  · unfold GroupRegistry.start
    rw [live_put_self]; rfl

variable {openReal : S → S × Except Str L} {mismatch : P → P → Option Str} {groupKey : Str} {params : P} {s s' : S}
  {r' : GroupRegistry P L}

variable (h : Held Undone closeReal base group held (s, r))
include h

theorem join {c : ListenCycle P L}
    (hc : r.live group = some c) : Held Undone closeReal base group (held ++ [r.next]) (s, r.join group c hc) := by
  have hoth : ∀ key, key ≠ group → (r.join group c hc).live key = r.live key := by
    intro key hk; exact live_put_ne _ _ _ _ _ hk
  have hself : (r.join group c hc).live group =
      some { c with lns := c.lns ++ [r.next], nonempty := by simp } := by
    unfold GroupRegistry.join
    rw [live_put_self]; rfl
  cases h with
  | idle _ _ hl =>
    replace hl : r.live group = none := hl
    rw [hl] at hc; cases hc
  | opened c' ho hb hl hlns hu =>
    cases hc.symm.trans hl
    exact .opened _ (fun key hk => (hoth key hk).trans (ho key hk)) hb hself (by simp [hlns]) hu
  | joined c₀ c' ho hb hl hset hlns hnew hu =>
    cases hc.symm.trans hl
    refine .joined c₀ _ (fun key hk => (hoth key hk).trans (ho key hk)) hb hself hset (by simp [hlns]) ?_ hu
    intro ln hm hold
    rcases List.mem_append.mp hm with hm | hm
    · exact hnew ln hm hold
    · have hlt := r.fresh group c hc ln (by rw [hlns]; exact List.mem_append_left _ hold)
      rw [List.mem_singleton.mp hm] at hlt; exact Nat.lt_irrefl _ hlt

theorem listen_ok (hopen : ∀ {s s' l}, Undone s → openReal s = (s', .ok l) → Undone (closeReal l s')) {ln : Nat} {l : L}
    (hl : r.listen openReal mismatch group groupKey params s = ((s', r'), .ok (ln, l))) :
    Held Undone closeReal base group (held ++ [ln]) (s', r') := by
  cases hlive : r.live group with
  | none =>
    rw [listen_of_none hlive] at hl
    split at hl
    next => cases hl
    next s₁ l₁ ho =>
      cases hl
      cases h with
      | idle hoth hb _ hu => exact start hoth hb (hopen hu ho)
      | opened _ _ _ hc | joined _ _ _ _ hc => cases hlive.symm.trans hc
  | some =>
    rw [listen_of_some hlive] at hl
    split at hl
    next => cases hl
    next => cases hl; exact h.join hlive

theorem listen_error (hfail : ∀ {s s' e}, Undone s → openReal s = (s', .error e) → Undone s') {e : Str}
    (hl : r.listen openReal mismatch group groupKey params s = ((s', r'), .error e)) :
    Held Undone closeReal base group held (s', r') := by
  cases hlive : r.live group with
  | none =>
    rw [listen_of_none hlive] at hl
    split at hl
    next s₁ e₁ ho =>
      cases hl
      cases h with
      | idle hoth hb hn hu =>
        exact .idle (fun key hk => (live_getOrCreate ..).trans (hoth key hk)) hb
          ((live_getOrCreate ..).trans hn) (hfail hu ho)
      | opened _ _ _ hc | joined _ _ _ _ hc => cases hlive.symm.trans hc
    next => cases hl
  | some =>
    rw [listen_of_some hlive] at hl
    split at hl
    next => cases hl; exact h
    next => cases hl

end Held

end GroupRegistry

/-! ## Listeners of a muxer -/

section
variable [UnicodeCase]

variable {m m' : VhostTable}

theorem VhostTable.listen_ok {p : VhostParams} {l : VhostListener} (h : m.listen p = (m', .ok l)) :
    m.registryRouter.add l.name l.location l.routeByHTTPUser l = some m'.registryRouter := by
  unfold listen Muxer.listen at h
  simp only at h
  split at h
  next => cases h
  next tbl ha => cases h; exact ha

theorem VhostTable.listen_error {p : VhostParams} {e : Str} (h : m.listen p = (m', .error e)) : m' = m := by
  unfold listen at h
  simp only at h
  split at h
  next => cases h; rfl
  next => cases h

namespace VhostMux

structure Same (v v' : VhostMux) : Prop where
  routes : v'.table.registryRouter = v.table.registryRouter
  groups : ∀ key, v'.groups.live key = v.groups.live key

def routeKey (l : VhostListener) : Str × Str × Str := (l.name, l.location, l.routeByHTTPUser)

def HeldPlain (base : VhostMux) (held : List VhostLn) (v : VhostMux) : Prop :=
  v.groups = base.groups ∧ ∃ ls : List VhostListener, held = ls.map .plain ∧
    base.table.registryRouter.Holds (ls.map routeKey) v.table.registryRouter

theorem undoable_plain (mismatch : VhostParams → VhostParams → Option Str) (groupKey : Str) (base : VhostMux) :
    Undoable (listen mismatch [] groupKey) close (HeldPlain base) where
  acquired {held v p v' r} h hl := by
    obtain ⟨hg, ls, rfl, hr⟩ := h
    simp only [listen, ne_eq, not_true_eq_false, if_false] at hl
    cases ht : v.table.listen p with
    | mk table res =>
      rw [ht] at hl
      cases res with
      | error => cases hl
      | ok l =>
        cases hl
        refine ⟨hg, ls ++ [l], by simp, ?_⟩
        rw [List.map_append]; exact hr.add (listen_ok ht)
  refused {held v p v' e} h hl := by
    simp only [listen, ne_eq, not_true_eq_false, if_false] at hl
    cases ht : v.table.listen p with
    | mk table res =>
      rw [ht] at hl
      cases res with
      | error =>
        cases hl
        rw [listen_error ht]; exact h
      | ok => cases hl
  released {r held v} h := by
    obtain ⟨hg, ls, heq, hr⟩ := h
    cases ls with
    | nil => cases heq
    | cons l ls => cases heq; exact ⟨hg, ls, rfl, hr.del⟩

def HeldMember (base : VhostMux) (group : Str) (held : List VhostLn) (v : VhostMux) : Prop :=
  ∃ lns : List Nat, held = lns.map (.member group) ∧
    GroupRegistry.Held (fun m => m.registryRouter = base.table.registryRouter) VhostTable.close base.groups group lns
      (v.table, v.groups)

theorem listen_member {mismatch : VhostParams → VhostParams → Option Str} {group groupKey : Str}
    (hg : group ≠ []) {p : VhostParams} {v v' : VhostMux} {res : Except Str VhostLn}
    (h : v.listen mismatch group groupKey p = (v', res)) :
    (∃ e, res = .error e ∧
      v.groups.listen (VhostTable.listen p) mismatch group groupKey p v.table = ((v'.table, v'.groups), .error e)) ∨
      ∃ x, res = .ok (.member group x.1) ∧
        v.groups.listen (VhostTable.listen p) mismatch group groupKey p v.table = ((v'.table, v'.groups), .ok x) := by
  simp only [listen, ne_eq, hg, not_false_eq_true, if_true] at h
  cases ht : v.groups.listen (VhostTable.listen p) mismatch group groupKey p v.table with
  | mk x r =>
    rw [ht] at h
    cases r with
    | error e => cases h; exact .inl ⟨e, rfl, rfl⟩
    | ok y => cases h; exact .inr ⟨y, rfl, rfl⟩

theorem undoable_member (mismatch : VhostParams → VhostParams → Option Str) {group : Str} (hg : group ≠ [])
    (groupKey : Str) {base : VhostMux} (hs : base.table.registryRouter.Sorted) :
    Undoable (listen mismatch group groupKey) close (HeldMember base group) where
  acquired {held v p v' r} h hl := by
    obtain ⟨lns, rfl, hh⟩ := h
    rcases listen_member hg hl with ⟨_, hr, _⟩ | ⟨x, hr, ht⟩
    · cases hr
    · cases hr
      refine ⟨lns ++ [x.1], by simp, hh.listen_ok ?_ ht⟩
      intro m m' l hm hopen
      have hadd := VhostTable.listen_ok hopen
      rw [hm] at hadd; exact hs.del_add hadd
  refused {held v p v' e} h hl := by
    obtain ⟨lns, rfl, hh⟩ := h
    rcases listen_member hg hl with ⟨_, _, ht⟩ | ⟨_, hr, _⟩
    · refine ⟨lns, rfl, hh.listen_error ?_ ht⟩
      intro m m' e hm hopen
      rw [VhostTable.listen_error hopen]; exact hm
    · cases hr
  released {r held v} h := by
    obtain ⟨lns, heq, hh⟩ := h
    cases lns with
    | nil => cases heq
    | cons ln lns => cases heq; exact ⟨lns, rfl, hh.released⟩

theorem closed_same (mismatch : VhostParams → VhostParams → Option Str) (group groupKey : Str) (ps : List VhostParams)
    {v : VhostMux} (hs : v.table.registryRouter.Sorted) :
    v.Same (releaseAll close (acquireAll (listen mismatch group groupKey) ps [] v).1.2
      (acquireAll (listen mismatch group groupKey) ps [] v).1.1) := by
  by_cases hg : group = []
  · subst hg
    have hstart : HeldPlain v [] v := ⟨rfl, [], rfl, hs, rfl⟩
    obtain ⟨hgr, ls, heq, hr⟩ := (undoable_plain mismatch groupKey v).undone ps hstart
    cases ls with
    | nil => exact ⟨hr.back, fun key => by rw [hgr]⟩
    | cons => cases heq
  · have hstart : HeldMember v group [] v := ⟨[], rfl, .refl _ _ rfl⟩
    obtain ⟨lns, heq, hh⟩ := (undoable_member mismatch hg groupKey hs).undone ps hstart
    cases lns with
    | nil => exact ⟨hh.done.2, hh.done.1⟩
    | cons => cases heq

end VhostMux

end

end Frp
