import Mathlib.Algebra.Ring.Nat
import Frp.Metrics
import Frp.ProxyNamesSound
import Frp.Slots

/-!
# What the metrics count, and what is cleared

The gauge of an entry counts the connections opened and closed since the entry was made, so
it misses those that were open by then.
-/

namespace Frp

open Function Int32 ProxyWorld ControlPc

namespace ServerMetrics

variable {m : ServerMetrics} {now d : Nat} {name n : Str}

theorem set_at (st : Option ProxyStatistics) : (m.set name st).proxyStatistics name = st := update_self ..

theorem set_other (st : Option ProxyStatistics) (h : n ≠ name) :
    (m.set name st).proxyStatistics n = m.proxyStatistics n := update_of_ne h ..

theorem modify_eq (f : ProxyStatistics → ProxyStatistics) :
    (m.modify name f).proxyStatistics n =
      if n = name then (m.proxyStatistics name).map f else m.proxyStatistics n := by
  by_cases h : n = name
  · rw [if_pos h, h]; exact set_at _
  · rw [if_neg h]; exact set_other _ h

theorem newProxy_eq (proxyType user clientID : Str) :
    (m.newProxy now name proxyType user clientID).proxyStatistics n =
      if n = name then some { m.entry name proxyType with user, clientID, lastStartTime := now }
      else m.proxyStatistics n := by
  by_cases h : n = name
  · rw [if_pos h, h]; exact set_at _
  · rw [if_neg h]; exact set_other _ h

theorem clear_eq_some {st : ProxyStatistics} (h : (m.clearUselessInfo now d).proxyStatistics name = some st) :
    m.proxyStatistics name = some st := (Option.filter_eq_some_iff.mp h).1

end ServerMetrics

/-! ## The gauge -/

namespace GaugeWorld

open ServerMetrics

variable {s : GaugeWorld}

def Inv (s : GaugeWorld) : Prop :=
  ∀ name st, s.metrics.proxyStatistics name = some st →
    st.curConns = Int32.ofInt ((s.opened name : Int) - s.before name)

theorem ofInt_add_one (a b : Nat) : ofInt (((a + 1 : Nat) : Int) - b) = ofInt ((a : Int) - b) + 1 := by
  rw [show ((a + 1 : Nat) : Int) - b = (a - b) + 1 by omega, ofInt_add ((a : Int) - b)]; rfl

theorem ofInt_sub_one {a : Nat} (b : Nat) (h : 0 < a) :
    ofInt (((a - 1 : Nat) : Int) - b) = ofInt ((a : Int) - b) - 1 := by
  rw [show ((a - 1 : Nat) : Int) - b = (a - b) - 1 by omega, ofInt_sub ((a : Int) - b)]; rfl

theorem inv_modify {t : GaugeWorld} {f : ProxyStatistics → ProxyStatistics} {name : Str} (h : s.Inv)
    (hm : ∀ n, t.metrics.proxyStatistics n =
      if n = name then (s.metrics.proxyStatistics name).map f else s.metrics.proxyStatistics n)
    (hb : t.before = s.before) (ho : ∀ n, n ≠ name → t.opened n = s.opened n)
    (hf : ∀ st, s.metrics.proxyStatistics name = some st →
      st.curConns = ofInt ((s.opened name : Int) - s.before name) →
      (f st).curConns = ofInt ((t.opened name : Int) - s.before name)) : t.Inv := by
  intro n st hst
  rw [hm] at hst
  rw [hb]
  split at hst
  next hn =>
    subst hn
    obtain ⟨st', hst', rfl⟩ := Option.map_eq_some_iff.mp hst
    exact hf st' hst' (h _ st' hst')
  next hn => rw [ho n hn]; exact h n st hst

theorem Inv.call (h : s.Inv) {now : Nat} {c : MetricsCall} (ha : s.Allows c) : (s.call now c).Inv := by
  cases c with
  | newProxy name proxyType user clientID =>
    intro n st hst
    rw [show (s.call now (.newProxy name proxyType user clientID)).metrics =
      s.metrics.newProxy now name proxyType user clientID from rfl, newProxy_eq] at hst
    simp only [GaugeWorld.call, conns, makes]
    split at hst
    next hn =>
      subst hn
      cases hst
      simp only [entry, true_and]
      cases hold : s.metrics.proxyStatistics n with
      | none => simp
      | some old =>
        by_cases ht : old.proxyType = proxyType
        · simpa [ht] using h n old hold
        · simp [ht]
    next hn =>
      simp only [Ne.symm hn, false_and, decide_false, Bool.false_eq_true, if_false]
      exact h n st hst
  | closeProxy => exact inv_modify h (fun _ => modify_eq _) rfl (fun _ _ => rfl) fun _ _ hc => hc
  | openConnection =>
    refine inv_modify h (fun _ => modify_eq _) rfl (fun n hn => update_of_ne hn ..) fun st _ hc => ?_
    simp only [GaugeWorld.call, conns, update_self, hc, ofInt_add_one]
  | closeConnection name =>
    refine inv_modify h (fun _ => modify_eq _) rfl (fun n hn => update_of_ne hn ..) fun st _ hc => ?_
    simp only [GaugeWorld.call, conns, update_self, hc, ofInt_sub_one _ (show 0 < s.opened name from ha)]
  | clearUselessInfo | pruneOfflineProxies => exact fun n st hst => h n st (clear_eq_some hst)

theorem inv_of_reach (h : Reach Init CallStep s) : s.Inv := by
  refine h.invariant ?_ ?_
  · intro s h0 n st hst
    rw [h0.1] at hst; cases hst
  · intro s e t _ hi hst
    rw [hst.2]; exact hi.call hst.1

/-- The gauge of an entry is the number of open connections of its name exactly if none of them was
open when the entry was made and fewer than 2³¹ are open. -/
theorem gauge_iff (h : Reach Init CallStep s) {name : Str} {st : ProxyStatistics}
    (hst : s.metrics.proxyStatistics name = some st) :
    st.curConns.toInt = s.opened name ↔ 2 ^ 32 ∣ s.before name ∧ s.opened name < 2 ^ 31 := by
  rw [inv_of_reach h name st hst, toInt_ofInt, Int.bmod_eq_iff (by decide)]
  rw [show size = 2 ^ 32 from rfl]; omega

theorem gauge_below_zero : ∃ (s : GaugeWorld) (st : ProxyStatistics), Reach Init CallStep s ∧
    s.metrics.proxyStatistics (lit "web") = some st ∧ s.opened (lit "web") = 0 ∧ st.curConns.toInt = -1 := by
  have h := (.start ⟨rfl, rfl⟩ : Reach Init CallStep ⟨{}, fun _ => 0, fun _ => 0⟩)
    |>.next (e := (1, MetricsCall.newProxy (lit "web") (lit "tcp") [] [])) ⟨trivial, rfl⟩
    |>.next (e := (2, MetricsCall.openConnection (lit "web"))) ⟨trivial, rfl⟩
    |>.next (e := (3, MetricsCall.closeProxy (lit "web") (lit "tcp"))) ⟨trivial, rfl⟩
    |>.next (e := (4, MetricsCall.newProxy (lit "web") (lit "http") [] [])) ⟨trivial, rfl⟩
    |>.next (e := (5, MetricsCall.closeConnection (lit "web"))) ⟨Nat.one_pos, rfl⟩
  exact ⟨_, _, h, rfl, rfl, rfl⟩

theorem gauge_restarted : ∃ (s : GaugeWorld) (st : ProxyStatistics), Reach Init CallStep s ∧
    s.metrics.proxyStatistics (lit "web") = some st ∧ s.opened (lit "web") = 1 ∧
    st.curConns.toInt = s.opened (lit "web") := by
  have h := (.start ⟨rfl, rfl⟩ : Reach Init CallStep ⟨{}, fun _ => 0, fun _ => 0⟩)
    |>.next (e := (1, MetricsCall.newProxy (lit "web") (lit "tcp") [] [])) ⟨trivial, rfl⟩
    |>.next (e := (2, MetricsCall.openConnection (lit "web"))) ⟨trivial, rfl⟩
    |>.next (e := (3, MetricsCall.closeProxy (lit "web") (lit "tcp"))) ⟨trivial, rfl⟩
    |>.next (e := (4, MetricsCall.newProxy (lit "web") (lit "tcp") [] [])) ⟨trivial, rfl⟩
  exact ⟨_, _, h, rfl, rfl, (gauge_iff h rfl).mpr ⟨Nat.dvd_zero _, by decide⟩⟩

end GaugeWorld

/-! ## Steps of the controls -/

def ControlPc.entering : ControlPc → List Pxy
  | created p | counted p | checked p | ran p | refused p | filed p | failed p => [p]
  | _ => []

theorem ControlPc.entering_sub (q : ControlPc) : ∀ p ∈ q.entering, p ∈ q.hand := by
  cases q <;> simp [entering, hand]

section
variable {m : Int} {w w' : ProxyWorld} {c : Nat}

namespace RegistrationStep

variable (h : RegistrationStep m w c w')
include h

theorem next_le : w.next ≤ w'.next := by
  cases h with
  | newProxy => exact Nat.le_succ _
  | _ => exact Nat.le_refl _

variable {p : Pxy}

theorem added {n : Str} (hp : w'.pxys n = some p) : w.pxys n = some p ∨ w.pc c = .ran p := by
  cases h with
  | add hr =>
    rcases update_cases (· = some p) hp with ⟨-, he⟩ | ⟨-, hp⟩
    · cases he; exact .inr hr
    · exact .inl hp
  | delete | drainDelete => exact .inl (of_update (· = some p) hp nofun)
  | _ => exact .inl hp

theorem kept (hi : w.Inv) {n : Str} (hc : p.owner ≠ c) (hp : w.pxys n = some p) : w'.pxys n = some p := by
  obtain ⟨hname, hf⟩ := (hi.filed n p).mp hp
  obtain ⟨hpc, hpx, -⟩ := h.other hc
  exact ((h.inv hi).filed n p).mpr ⟨hname, by rw [hpc, hpx]; exact hf⟩

theorem of_filed (hf : w.pc c = .filed p) : w'.pxys = w.pxys ∧ w'.pc c = .idle := by
  cases h <;> simp_all [goto, setProxies]

theorem entering (hp : p ∈ (w'.pc c).entering) : p.id = w.next ∨ p ∈ (w.pc c).entering := by
  cases h with
  | newProxy =>
    simp only [goto, update_self, entering, List.mem_singleton] at hp; exact .inl (by rw [hp])
  | counted hq | exist hq | notExist hq | runFailed hq | run hq | addRefused hq | add hq | closeRefused hq =>
    simp only [goto, update_self, entering] at hp
    rw [hq]; exact .inr hp
  | _ => simp only [goto, update_self, entering, List.not_mem_nil] at hp

end RegistrationStep

end

/-! ## What is cleared -/

namespace StatsWorld

open ServerMetrics

def Entered (s : StatsWorld) (p : Pxy) : Prop := p.id < s.world.next ∧ ∀ c, p ∉ (s.world.pc c).entering

structure Times (st : ProxyStatistics) (lateClose : Option Nat) (τ : Nat) : Prop where
  start : st.lastStartTime = τ
  late : ∀ x, lateClose = some x → st.lastCloseTime = x
  early : lateClose = none → st.lastCloseTime ≤ st.lastStartTime

structure Inv (s : StatsWorld) : Prop where
  world : s.world.Inv
  past : ∀ n st, s.metrics.proxyStatistics n = some st → st.lastCloseTime ≤ s.now
  lateClose : ∀ n x, s.lateClose n = some x → 0 < x
  now : 0 < s.now
  due : ∀ c p, s.due c = some (.newProxy p) → p.owner = c ∧ s.world.pxys p.name = some p ∧ s.Entered p
  recorded : ∀ p τ, s.recorded p = some τ → s.Entered p
  times : ∀ n p τ st, s.world.pxys n = some p → s.recorded p = some τ → s.metrics.proxyStatistics n = some st →
    Times st (s.lateClose n) τ

theorem Inv.init {s : StatsWorld} (h : s.Init) : s.Inv := by
  obtain ⟨h1, h2, h3, h4, h5, h6⟩ := h
  refine ⟨by rw [h1]; exact .init, ?_, ?_, h3, ?_, ?_, ?_⟩
  · intro n st hst
    rw [h2] at hst; cases hst
  · intro n x hx
    rw [h6] at hx; cases hx
  · intro c p hp
    rw [h4] at hp; cases hp
  · intro p τ hp
    rw [h5] at hp; cases hp
  · intro n p τ st hp
    rw [h1] at hp; cases hp

section
variable {m : Int} {s : StatsWorld} {w : ProxyWorld} {c : Nat} {due : Nat → Option ProxyMetric} {p : Pxy}

theorem Entered.control (h : s.Entered p)
    (hst : RegistrationStep m s.world c w) : Entered { s with world := w, due := due } p := by
  refine ⟨Nat.lt_of_lt_of_le h.1 hst.next_le, fun d hd => ?_⟩
  by_cases hdc : d = c
  · subst hdc
    rcases hst.entering hd with hnew | hold
    · exact absurd hnew (Nat.ne_of_lt h.1)
    · exact h.2 d hold
  · have hd : p ∈ (w.pc d).entering := hd
    rw [(hst.other hdc).1] at hd; exact h.2 d hd

theorem Inv.reports (h : s.Inv) (hst : RegistrationStep m s.world c w) (hf : s.world.pc c = .filed p) :
    p.owner = c ∧ w.pxys p.name = some p ∧ Entered { s with world := w, due := due } p := by
  obtain ⟨hpx, hpc⟩ := hst.of_filed hf
  have hhand := (h.world.at_ c).hand p (by rw [hf]; exact List.mem_cons_self)
  refine ⟨hhand.1, ?_, Nat.lt_of_lt_of_le hhand.2.1 hst.next_le, fun d hd => ?_⟩
  · rw [hpx]; exact h.world.deletes_own (by rw [hf]; exact List.mem_cons_self)
  · have hd : p ∈ (w.pc d).entering := hd
    by_cases hdc : d = c
    · rw [hdc, hpc] at hd; cases hd
    · have hown := (((hst.inv h.world).at_ d).hand p (entering_sub _ p hd)).1
      exact hdc (hown.symm.trans hhand.1)

theorem metric_eq_newProxy {q : ControlPc} (h : q.metric = some (.newProxy p)) : q = .filed p := by
  cases q <;> simp_all [metric]

theorem Inv.control (h : s.Inv) (hst : RegistrationStep m s.world c w) :
    Inv { s with world := w, due := update s.due c (s.world.pc c).metric } := by
  refine ⟨hst.inv h.world, h.past, h.lateClose, h.now, ?_, ?_, ?_⟩
  · intro d p hd
    rcases update_cases (· = some (ProxyMetric.newProxy p)) hd with ⟨rfl, hm⟩ | ⟨hdc, hd⟩
    · exact h.reports hst (metric_eq_newProxy hm)
    · obtain ⟨hown, hpx, hent⟩ := h.due d p hd
      exact ⟨hown, hst.kept h.world (by rw [hown]; exact hdc) hpx, hent.control hst⟩
  · intro p τ hp; exact (h.recorded p τ hp).control hst
  · intro n p τ st hp hr hs
    rcases hst.added hp with hp | hran
    · exact h.times n p τ st hp hr hs
    · exact absurd (by rw [hran]; exact List.mem_cons_self) ((h.recorded p τ hr).2 c)

theorem entry_lastCloseTime_le (h : s.Inv) (name proxyType : Str) :
    (s.metrics.entry name proxyType).lastCloseTime ≤ s.now := by
  unfold entry
  split
  next st hst =>
    split
    · exact Nat.zero_le _
    · exact h.past name st hst
  next => exact Nat.zero_le _

theorem Inv.newProxy (h : s.Inv) {q : Pxy} (hq : s.due c = some (.newProxy q)) (proxyType user clientID : Str) :
    Inv { s with
      metrics := s.metrics.newProxy s.now q.name proxyType user clientID
      due := update s.due c none
      recorded := update s.recorded q (some s.now)
      lateClose := update s.lateClose q.name none } := by
  obtain ⟨-, hqx, hqe⟩ := h.due c q hq
  refine ⟨h.world, fun n st hst => ?_, fun n x hx => ?_, h.now, fun d p hd => ?_, fun p τ hp => ?_, ?_⟩
  · simp only [newProxy_eq] at hst
    split at hst
    next => cases hst; exact entry_lastCloseTime_le h q.name proxyType
    next => exact h.past n st hst
  · exact h.lateClose n x (of_update (· = some x) hx nofun)
  · exact h.due d p (of_update (· = some (ProxyMetric.newProxy p)) hd nofun)
  · rcases update_cases (· = some τ) hp with ⟨rfl, -⟩ | ⟨-, hp⟩
    · exact hqe
    · exact h.recorded p τ hp
  · intro n p τ st hp hr hst
    simp only [newProxy_eq] at hst
    have hp : s.world.pxys n = some p := hp
    split at hst
    next hn =>
      -- the name is registered by the proxy that is reported
      subst hn
      rw [hqx] at hp; cases hp
      cases hst
      have hr : update s.recorded q (some s.now) q = some τ := hr
      rw [update_self] at hr; cases hr
      show Times _ (update s.lateClose q.name none q.name) _
      rw [update_self]; exact ⟨rfl, by simp, fun _ => entry_lastCloseTime_le h q.name proxyType⟩
    next hn =>
      have hpq : p ≠ q := by
        intro hpq; exact hn (by rw [← hpq]; exact ((h.world.filed n p).mp hp).1.symm)
      show Times _ (update s.lateClose q.name none n) _
      rw [update_of_ne hn]; exact h.times n p τ st hp ((update_of_ne hpq ..).symm.trans hr) hst

theorem Inv.closeProxy (h : s.Inv) (q : Pxy) (proxyType : Str) :
    Inv { s with
      metrics := s.metrics.closeProxy s.now q.name proxyType
      due := update s.due c none
      lateClose := update s.lateClose q.name (some s.now) } := by
  have hat : ∀ n, (s.metrics.closeProxy s.now q.name proxyType).proxyStatistics n =
      if n = q.name then (s.metrics.proxyStatistics q.name).map fun st => { st with lastCloseTime := s.now }
      else s.metrics.proxyStatistics n := fun n => modify_eq _
  refine ⟨h.world, fun n st hst => ?_, fun n x hx => ?_, h.now, fun d p hd => ?_, h.recorded,
    fun n p τ st hp hr hst => ?_⟩
  · simp only [hat] at hst
    split at hst
    next =>
      obtain ⟨st', -, rfl⟩ := Option.map_eq_some_iff.mp hst
      exact Nat.le_refl _
    next => exact h.past n st hst
  · rcases update_cases (· = some x) hx with ⟨-, hx⟩ | ⟨-, hx⟩
    · cases hx; exact h.now
    · exact h.lateClose n x hx
  · exact h.due d p (of_update (· = some (ProxyMetric.newProxy p)) hd nofun)
  · simp only [hat] at hst
    split at hst
    next hn =>
      subst hn
      obtain ⟨st', hst', rfl⟩ := Option.map_eq_some_iff.mp hst
      show Times _ (update s.lateClose q.name (some s.now) q.name) _
      rw [update_self]
      exact ⟨(h.times _ p τ st' hp hr hst').start, fun x hx => Option.some.inj hx, by simp⟩
    next hn =>
      show Times _ (update s.lateClose q.name (some s.now) n) _
      rw [update_of_ne hn]; exact h.times n p τ st hp hr hst

end

theorem inv_of_reach {m : Int} {proxyType user clientID : Pxy → Str} {s : StatsWorld}
    (h : Reach Init (StatsStep m proxyType user clientID) s) : s.Inv := by
  refine h.invariant (fun _ h0 => .init h0) ?_
  intro s e t _ hi hst
  cases hst with
  | control c _ hst => exact hi.control hst
  | newProxy c p hp => exact hi.newProxy hp _ _ _
  | closeProxy c p => exact hi.closeProxy p _
  | clear =>
    exact { hi with
      past := fun n st hst => hi.past n st (clear_eq_some hst)
      times := fun n p τ st hp hr hst => hi.times n p τ st hp hr (clear_eq_some hst) }
  | tick n hn =>
    exact { hi with past := fun n st hst => Nat.le_trans (hi.past n st hst) hn, now := Nat.lt_of_lt_of_le hi.now hn }

/-- The statistics of a proxy reported started at `τ` are cleared exactly if the close of another
proxy of the name has been reported since, later than `τ` and long enough ago. -/
theorem live_stats_cleared_iff {m : Int} {proxyType user clientID : Pxy → Str} {s : StatsWorld}
    (h : Reach Init (StatsStep m proxyType user clientID) s) (d : Nat) {n : Str} {p : Pxy} {τ : Nat}
    {st : ProxyStatistics}
    (hp : s.world.pxys n = some p) (hr : s.recorded p = some τ) (hst : s.metrics.proxyStatistics n = some st) :
    (s.metrics.clearUselessInfo s.now d).proxyStatistics n = none ↔
      ∃ x, s.lateClose n = some x ∧ τ < x ∧ x + d < s.now := by
  have hi := inv_of_reach h
  obtain ⟨h1, h2, h3⟩ := hi.times n p τ st hp hr hst
  have hclear : (s.metrics.clearUselessInfo s.now d).proxyStatistics n = none ↔
      st.lastCloseTime ≠ 0 ∧ st.lastStartTime < st.lastCloseTime ∧ st.lastCloseTime + d < s.now := by
    simp [clearUselessInfo, hst, shouldClearProxyStats]
  rw [hclear]
  cases hx : s.lateClose n with
  | none =>
    have := h3 hx
    simp only [reduceCtorEq, false_and, exists_false, iff_false]; omega
  | some x =>
    have hpos := hi.lateClose n x hx
    simp only [Option.some.injEq, exists_eq_left', h2 x hx, h1]; omega

theorem stats_of_second : ∃ (s : StatsWorld) (st : ProxyStatistics),
    Reach Init (StatsStep 0 (fun _ => lit "tcp") (fun _ => []) fun _ => []) s ∧
      s.world.pxys (lit "web") = some ⟨1, 1, lit "web", 1⟩ ∧ s.recorded ⟨1, 1, lit "web", 1⟩ = some 2 ∧
      s.due 0 = some (.closeProxy ⟨0, 0, lit "web", 1⟩) ∧ s.metrics.proxyStatistics (lit "web") = some st ∧
      st.lastStartTime = 2 ∧ s.lateClose (lit "web") = none ∧ s.now = 2 := by
  have h : Reach Init (StatsStep 0 (fun _ => lit "tcp") (fun _ => []) fun _ => [])
      ⟨.init, {}, 1, fun _ => none, fun _ => none, fun _ => none⟩ := .start ⟨rfl, rfl, Nat.one_pos, rfl, rfl, rfl⟩
  have h := h
    |>.next (.control 0 rfl (.start rfl))
    |>.next (.control 0 rfl (.newProxy (lit "web") 1 rfl))
    |>.next (.control 0 rfl (.counted rfl (by decide)))
    |>.next (.control 0 rfl (.notExist rfl rfl))
    |>.next (.control 0 rfl (.run rfl))
    |>.next (.control 0 rfl (.add rfl rfl))
    |>.next (.control 0 rfl (.insert rfl))
    |>.next (.newProxy 0 _ rfl)
    |>.next (.tick 2 (by decide))
    |>.next (.control 0 rfl (.drop (lit "web") rfl rfl))
    |>.next (.control 0 rfl (.close rfl))
    |>.next (.control 0 rfl (.delete rfl))
    |>.next (.control 1 rfl (.start rfl))
    |>.next (.control 1 rfl (.newProxy (lit "web") 1 rfl))
    |>.next (.control 1 rfl (.counted rfl (by decide)))
    |>.next (.control 1 rfl (.notExist rfl rfl))
    |>.next (.control 1 rfl (.run rfl))
    |>.next (.control 1 rfl (.add rfl rfl))
    |>.next (.control 1 rfl (.insert rfl))
    |>.next (.newProxy 1 _ rfl)
  exact ⟨_, _, h, rfl, rfl, rfl, rfl, rfl, rfl, rfl⟩

theorem live_stats_pruned : ∃ s : StatsWorld,
    Reach Init (StatsStep 0 (fun _ => lit "tcp") (fun _ => []) fun _ => []) s ∧
      s.world.pxys (lit "web") = some ⟨1, 1, lit "web", 1⟩ ∧ s.recorded ⟨1, 1, lit "web", 1⟩ = some 2 ∧
      (∃ st, s.metrics.proxyStatistics (lit "web") = some st) ∧
      (s.metrics.pruneOfflineProxies s.now).proxyStatistics (lit "web") = none := by
  obtain ⟨s, st, h, hpx, hrec, hdue, hst, hstart, -, hnow⟩ := stats_of_second
  have h := h
    |>.next (.tick 3 (by rw [hnow]; decide))
    |>.next (.closeProxy 0 _ hdue)
    |>.next (.tick 4 (Nat.le_succ 3))
  have hlast : (s.metrics.closeProxy 3 (lit "web") (lit "tcp")).proxyStatistics (lit "web") =
      some { st with lastCloseTime := 3 } := by
    rw [ServerMetrics.closeProxy, modify_eq, if_pos rfl]; exact congrArg (Option.map _) hst
  refine ⟨_, h, hpx, hrec, ⟨_, hlast⟩, ?_⟩
  simp [pruneOfflineProxies, clearUselessInfo, hlast, shouldClearProxyStats, hstart]

theorem live_stats_kept : ∃ s : StatsWorld,
    Reach Init (StatsStep 0 (fun _ => lit "tcp") (fun _ => []) fun _ => []) s ∧
      s.world.pxys (lit "web") = some ⟨1, 1, lit "web", 1⟩ ∧ s.now = 9 ∧
      (s.metrics.clearUselessInfo s.now 0).proxyStatistics (lit "web") ≠ none := by
  obtain ⟨s, st, h, hpx, hrec, -, hst, -, hlate, hnow⟩ := stats_of_second
  have h := h.next (.tick 9 (by rw [hnow]; decide))
  refine ⟨_, h, hpx, rfl, fun hnone => ?_⟩
  obtain ⟨x, hx, -⟩ := (live_stats_cleared_iff h 0 hpx hrec hst).mp hnone
  exact absurd (hlate.symm.trans hx) (by simp)

end StatsWorld

end Frp
