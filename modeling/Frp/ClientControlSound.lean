import Frp.ClientControl

/-!
# What is left of a client control

A proxy or visitor that still runs is in its manager, so that `Close` stops all there are.
-/

namespace Frp

namespace ClientControl

variable {C V : Type} {names : ClientNames C V} {s : ClientControl C V} {stage : ControlStage}

/-! ## The proxy manager -/

structure ProxiesInv (stage : ControlStage) (r : Roster Str C ControlStage) : Prop where
  covered : r.Covered
  since : stage.afterProxies → r.Since ControlStage.afterProxies

section
variable {r : Roster Str C ControlStage}

theorem ProxiesInv.compareProxy [DecidableEq C] (h : ProxiesInv stage r) (cfgsMap : Str → Option C) (n : Str) :
    ProxiesInv stage (compareProxy r cfgsMap n) := by
  unfold ClientControl.compareProxy
  split
  · exact h
  · split
    · exact h
    · exact ⟨h.covered.drop n, fun hstage => (h.since hstage).drop n⟩

theorem ProxiesInv.addProxy (h : ProxiesInv stage r) (c : C) : ProxiesInv stage (addProxy names stage r c) := by
  unfold ClientControl.addProxy
  split
  · exact h
  · rename_i hfree
    exact ⟨h.covered.start c stage hfree, fun hstage => (h.since hstage).start hstage⟩

end

/-! ## The visitor manager -/

structure VisitorsInv (names : ClientNames C V) (stage : ControlStage) (cfgs : Str → Option V)
    (r : Roster Str V ControlStage) (busy : Option (VisitorsBusy V)) : Prop where
  covered : r.Covered
  since : stage.afterVisitors → r.Since ControlStage.afterVisitors
  keyed : ∀ n c, cfgs n = some c → names.visitor c = n
  configured : ∀ n, r.slot n ≠ none → cfgs n ≠ none
  todo : ∀ l, busy = some (.keep l) → ∀ c ∈ l, cfgs (names.visitor c) ≠ none

namespace VisitorsInv

variable {cfgs : Str → Option V} {r : Roster Str V ControlStage} {busy : Option (VisitorsBusy V)}

theorem remove (h : VisitorsInv names stage cfgs r none) (n : Str) :
    VisitorsInv names stage (Function.update cfgs n none) (r.drop n) none := by
  refine ⟨h.covered.drop n, fun hstage => (h.since hstage).drop n, fun k c hk => ?_, fun k hk => ?_, by simp⟩
  · exact h.keyed k c (of_update (· = some c) hk nofun)
  · rcases update_cases (· ≠ none) hk with ⟨-, hk⟩ | ⟨hkn, hk⟩
    · exact absurd rfl hk
    · rw [Function.update_of_ne hkn]; exact h.configured k hk

theorem configure (h : VisitorsInv names stage cfgs r none) (c : V) :
    VisitorsInv names stage (Function.update cfgs (names.visitor c) (some c)) r none := by
  refine { h with keyed := fun k d hk => ?_, configured := fun k hk => ?_, todo := by simp }
  · rcases update_cases (· = some d) hk with ⟨hname, hcd⟩ | ⟨-, hk⟩
    · cases hcd; exact hname.symm
    · exact h.keyed k d hk
  · exact update_keeps (· ≠ none) (h.configured k hk) (by simp)

variable (h : VisitorsInv names stage cfgs r busy)
include h

theorem unlock : VisitorsInv names stage cfgs r none :=
  { h with todo := by simp }

theorem update (i : Nat) (loops : UpdateLoops V) :
    VisitorsInv names stage cfgs r (some (.update i loops)) :=
  { h with todo := by simp }

theorem start {c : V} (hfree : r.slot (names.visitor c) = none) (hcfg : cfgs (names.visitor c) ≠ none) :
    VisitorsInv names stage cfgs (r.start (names.visitor c) c stage) busy := by
  refine { h with
    covered := h.covered.start c stage hfree
    since := fun hstage => (h.since hstage).start hstage
    configured := fun n hn => ?_ }
  rcases update_cases (· ≠ none) hn with ⟨rfl, -⟩ | ⟨-, hn⟩
  · exact hcfg
  · exact h.configured n hn

end VisitorsInv

/-! ## Steps -/

structure Inv (names : ClientNames C V) (s : ClientControl C V) : Prop where
  proxies : ProxiesInv s.worker s.proxies
  visitors : VisitorsInv names s.worker s.cfgs s.visitors s.visitorsBusy

theorem Inv.compareVisitor [DecidableEq V] (h : s.Inv names) (cfgsMap : Str → Option V) (n : Str) (i : Nat)
    (loops : UpdateLoops V) :
    Inv names { s.compareVisitor cfgsMap n with visitorsBusy := some (.update i loops) } := by
  unfold ClientControl.compareVisitor
  split
  · exact ⟨h.proxies, h.visitors.update i loops⟩
  · split
    · exact ⟨h.proxies, h.visitors.update i loops⟩
    · exact ⟨h.proxies, (h.visitors.unlock.remove n).update i loops⟩

theorem Inv.addVisitor (h : s.Inv names) (ok : Bool) (c : V) (i : Nat) (loops : UpdateLoops V) :
    Inv names { s.addVisitor names ok c with visitorsBusy := some (.update i loops) } := by
  unfold ClientControl.addVisitor startVisitor
  split
  · exact ⟨h.proxies, h.visitors.update i loops⟩
  · rename_i hnew
    have hconf := h.visitors.unlock.configure c
    split
    · have hfree : s.visitors.slot (names.visitor c) = none := by
        by_contra hslot
        exact h.visitors.configured _ hslot hnew
      exact ⟨h.proxies, (hconf.start hfree (by simp)).update i loops⟩
    · exact ⟨h.proxies, hconf.update i loops⟩

theorem Inv.keepVisitor (h : s.Inv names) (ok : Bool) {c : V} {todo : List V}
    (hbusy : s.visitorsBusy = some (.keep (c :: todo))) :
    Inv names { s.keepVisitor names ok c with visitorsBusy := some (.keep todo) } := by
  have hrest : VisitorsInv names s.worker s.cfgs s.visitors (some (.keep todo)) := { h.visitors with
    todo := fun l hl d hd => by
      cases hl; exact h.visitors.todo _ hbusy d (List.mem_cons_of_mem _ hd) }
  unfold ClientControl.keepVisitor startVisitor
  split
  · exact ⟨h.proxies, hrest⟩
  · rename_i hfree
    split
    · exact ⟨h.proxies, hrest.start hfree (h.visitors.todo _ hbusy c List.mem_cons_self)⟩
    · exact ⟨h.proxies, hrest⟩

theorem inv_run (ps : List C) (vs : List V) : (run ps vs).Inv names :=
  ⟨⟨.empty, fun h => h.elim⟩, .empty, fun h => h.elim, by simp [run], by simp [run], by simp [run]⟩

theorem Inv.startKeep (h : s.Inv names) (vs : List V) : (s.startKeep vs).Inv names := by
  unfold ClientControl.startKeep
  split
  · exact ⟨h.proxies, h.visitors⟩
  · exact h

structure Quiet (s : ClientControl C V) : Prop where
  proxies : ∀ i, s.proxies.startedAt i ≠ none → s.proxies.stopped i = true
  visitors : ∀ i, s.visitors.startedAt i ≠ none → s.visitors.stopped i = true
  noProxy : ∀ i, s.proxies.startedAt i ≠ some .done
  noVisitor : ∀ i, s.visitors.startedAt i ≠ some .done

/-- No proxy and no visitor is started after the `Close` of its manager. -/
def InTime (s t : ClientControl C V) : Prop :=
  (s.worker.afterProxies → t.proxies.next = s.proxies.next) ∧
    (s.worker.afterVisitors → t.visitors.next = s.visitors.next)

structure Early (s : ClientControl C V) : Prop where
  proxies : ∀ i x, s.proxies.startedAt i = some x → ¬ x.afterProxies
  visitors : ∀ i x, s.visitors.startedAt i = some x → ¬ x.afterVisitors

theorem Early.quiet (h : s.Early) (hs : s.Inv names) (hdone : s.worker = .done) : s.Quiet := by
  have hproxies := hs.proxies.since (by rw [hdone]; trivial)
  have hvisitors := hs.visitors.since (by rw [hdone]; trivial)
  refine ⟨fun i hi => ?_, fun i hi => ?_, fun i hi => h.proxies i _ hi trivial, fun i hi => h.visitors i _ hi trivial⟩
  · obtain ⟨x, hx⟩ := Option.ne_none_iff_exists'.mp hi
    by_contra hrun
    exact h.proxies i x hx (hproxies i x hx (Bool.eq_false_iff.mpr hrun))
  · obtain ⟨x, hx⟩ := Option.ne_none_iff_exists'.mp hi
    by_contra hrun
    exact h.visitors i x hx (hvisitors i x hx (Bool.eq_false_iff.mpr hrun))

end ClientControl

open ClientControl

variable {C V : Type} [DecidableEq C] [DecidableEq V] {names : ClientNames C V} {s t : ClientControl C V} {e : Unit}

theorem ClientStep.inv (hs : s.Inv names) (h : ClientStep names s e t) : t.Inv names := by
  cases h with
  | updateAllConfigurer | lockProxies | unlockProxies | tick | keepEnds => exact ⟨hs.proxies, hs.visitors⟩
  | compareProxy i cfgsMap n => exact ⟨hs.proxies.compareProxy cfgsMap n, hs.visitors⟩
  | addProxy i cfgsMap c => exact ⟨hs.proxies.addProxy c, hs.visitors⟩
  | startKeep i vs rest =>
    exact Inv.startKeep (s := s.setCaller i (.calls (.lock vs :: rest))) ⟨hs.proxies, hs.visitors⟩ vs
  | lockVisitors i => exact ⟨hs.proxies, hs.visitors.update i _⟩
  | compareVisitor i cfgsMap n => exact hs.compareVisitor cfgsMap n i _
  | addVisitor i cfgsMap c add ok => exact hs.addVisitor ok c i _
  | unlockVisitors | unlockKeep => exact ⟨hs.proxies, hs.visitors.unlock⟩
  | lockKeep order _ _ horder =>
    refine ⟨hs.proxies, { hs.visitors with todo := fun l hl c hc => ?_ }⟩
    cases hl
    obtain ⟨n, hn⟩ := (horder.2 c).mpr hc
    rw [hs.visitors.keyed n c hn, hn]; simp
  | keepVisitor c todo ok hbusy => exact hs.keepVisitor ok hbusy
  | dispatcherDone => exact ⟨⟨hs.proxies.covered, fun h => h.elim⟩, { hs.visitors with since := fun h => h.elim }⟩
  | closeProxies order hw hfree horder =>
    refine ⟨⟨hs.proxies.covered.clear_stopAll horder, fun _ => ?_⟩, { hs.visitors with since := fun h => h.elim }⟩
    exact .of_not_running (hs.proxies.covered.not_running_stopAll horder)
  | closeVisitors order hw hfree horder =>
    have hproxies : ProxiesInv .visitorsClosed s.proxies :=
      ⟨hs.proxies.covered, fun _ => hs.proxies.since (by rw [hw]; trivial)⟩
    refine ⟨hproxies, { hs.visitors with
      covered := hs.visitors.covered.stopAll horder
      since := fun _ => .of_not_running (hs.visitors.covered.not_running_stopAll horder)
      configured := fun n hn => hs.visitors.configured n ?_ }⟩
    rwa [Roster.stopAll_slot] at hn
  | closeDone hw =>
    exact ⟨⟨hs.proxies.covered, fun _ => hs.proxies.since (by rw [hw]; trivial)⟩,
      { hs.visitors with since := fun _ => hs.visitors.since (by rw [hw]; trivial) }⟩

theorem ClientStep.starts_proxy (h : ClientStep names s e t) : s.proxies.Starts t.proxies s.worker := by
  cases h with
  | compareProxy i cfgsMap n =>
    unfold ClientControl.compareProxy
    split
    · exact .refl ..
    · split
      · exact .refl ..
      · exact .drop ..
  | addProxy i cfgsMap c =>
    unfold ClientControl.addProxy
    split
    · exact .refl ..
    · exact .start ..
  | startKeep | compareVisitor | addVisitor | keepVisitor =>
    simp only [ClientControl.startKeep, ClientControl.compareVisitor, ClientControl.addVisitor,
      ClientControl.keepVisitor, startVisitor]
    repeat' split
    all_goals exact .refl ..
  | closeProxies order => exact Roster.Starts.stopAll ..
  | _ => exact .refl ..

theorem ClientStep.starts_visitor (h : ClientStep names s e t) : s.visitors.Starts t.visitors s.worker := by
  cases h with
  | compareVisitor | addVisitor | keepVisitor | startKeep =>
    simp only [ClientControl.startKeep, ClientControl.compareVisitor, ClientControl.addVisitor,
      ClientControl.keepVisitor, startVisitor]
    repeat' split
    all_goals first | exact .refl .. | exact .drop .. | exact .start ..
  | closeVisitors order => exact .stopAll ..
  | _ => exact .refl ..

namespace ClientControl

theorem Early.step (h : s.Early) (hst : ClientStep names s e t) (htime : s.InTime t) : t.Early := by
  refine ⟨fun i x hi => ?_, fun i x hi => ?_⟩
  · rcases hst.starts_proxy.of_startedAt hi with hi | ⟨rfl, hn⟩
    · exact h.proxies i x hi
    · exact fun hx => hn (htime.1 hx)
  · rcases hst.starts_visitor.of_startedAt hi with hi | ⟨rfl, hn⟩
    · exact h.visitors i x hi
    · exact fun hx => hn (htime.2 hx)

theorem inv_of_reach {ps : List C} {vs : List V} (h : Reach (· = run ps vs) (ClientStep names) s) : s.Inv names :=
  h.invariant (fun _ heq => heq ▸ inv_run ps vs) fun _ _ _ _ hs hstep => hstep.inv hs

/-- If no manager starts anything after its `Close`, the control is quiet once `doneCh` is closed;
and whatever is started after that ends it. -/
theorem quiet_when_in_time {ps : List C} {vs : List V} (hdone : s.worker = .done) :
    (Reach (· = run ps vs) (fun s e t => ClientStep names s e t ∧ s.InTime t) s → s.Quiet) ∧
      (Reach (· = run ps vs) (ClientStep names) s → ∀ e t, ClientStep names s e t → ¬ s.InTime t → ¬ t.Quiet) := by
  refine ⟨fun h => ?_, fun _ e t hst htime hq => htime ⟨fun _ => ?_, fun _ => ?_⟩⟩
  · have hearly : s.Early := by
      refine h.invariant (fun s h0 => ?_) fun _ _ _ _ hs hst => hs.step hst.1 hst.2
      subst h0; exact ⟨nofun, nofun⟩
    exact hearly.quiet (inv_of_reach (h.mono fun _ _ _ hst => hst.1)) hdone
  · by_contra hn
    exact hq.noProxy _ (hdone ▸ hst.starts_proxy.of_next hn)
  · by_contra hn
    exact hq.noVisitor _ (hdone ▸ hst.starts_visitor.of_next hn)

theorem quiet_one_of_each :
    ∃ s, Reach (· = run [[1]] [[2]]) (fun s e t => ClientStep (⟨id, id⟩ : ClientNames Str Str) s e t ∧ s.InTime t) s ∧
      s.worker = .done ∧ s.proxies.startedAt 0 = some .serving ∧ s.visitors.startedAt 0 = some .serving ∧ s.Quiet := by
  have h : Reach (· = run [[1]] [[2]])
      (fun s e t => ClientStep (⟨id, id⟩ : ClientNames Str Str) s e t ∧ s.InTime t) _ := .start rfl
  have h := h
    |>.next ⟨.lockProxies 0 [[1]] [.visitors [[2]]] [] rfl rfl ⟨List.nodup_nil, by simp [run]⟩, False.elim,
      False.elim⟩
    |>.next ⟨.addProxy 0 _ [1] [] rfl, False.elim, False.elim⟩
    |>.next ⟨.unlockProxies 0 _ [.visitors [[2]]] rfl rfl, False.elim, False.elim⟩
    |>.next ⟨.startKeep 0 [[2]] [] rfl, False.elim, False.elim⟩
    |>.next ⟨.lockVisitors 0 [[2]] [] [] rfl rfl ⟨List.nodup_nil, by simp [run, setCaller, startKeep]⟩,
      False.elim, False.elim⟩
    |>.next ⟨.addVisitor 0 _ [2] [] true rfl, False.elim, False.elim⟩
    |>.next ⟨.unlockVisitors 0 _ [] rfl rfl, False.elim, False.elim⟩
    |>.next ⟨.dispatcherDone rfl, False.elim, False.elim⟩
    |>.next ⟨.closeProxies [[1]] rfl rfl ⟨List.nodup_singleton _, fun k => by
      show Function.update (fun _ => none) [1] (some (0, [1])) k ≠ none ↔ k ∈ [[1]]
      by_cases hk : k = [1] <;> simp [hk]⟩, False.elim, False.elim⟩
    |>.next ⟨.closeVisitors [[2]] rfl rfl ⟨List.nodup_singleton _, fun k => by
      show Function.update (fun _ => none) [2] (some (0, [2])) k ≠ none ↔ k ∈ [[2]]
      by_cases hk : k = [2] <;> simp [hk]⟩, fun _ => rfl, False.elim⟩
    |>.next ⟨.closeDone rfl, fun _ => rfl, fun _ => rfl⟩
  exact ⟨_, h, rfl, rfl, rfl, (quiet_when_in_time rfl).1 h⟩

theorem not_quiet_run :
    ∃ s, Reach (· = run [[1]] []) (ClientStep (⟨id, id⟩ : ClientNames Str Str)) s ∧ s.worker = .done ∧
      s.proxies.startedAt 0 = some .done ∧ s.proxies.stopped 0 = false ∧ ¬ s.Quiet := by
  have h := (.start rfl : Reach (· = run [[1]] []) (ClientStep (⟨id, id⟩ : ClientNames Str Str)) _)
    |>.next (.dispatcherDone rfl)
    |>.next (.closeProxies [] rfl rfl ⟨List.nodup_nil, by simp [run]⟩)
    |>.next (.closeVisitors [] rfl rfl ⟨List.nodup_nil, by simp [run]⟩)
    |>.next (.closeDone rfl)
    |>.next (.lockProxies 0 [[1]] [.visitors []] [] rfl rfl ⟨List.nodup_nil, by simp [Roster.clear]⟩)
    |>.next (.addProxy 0 _ [1] [] rfl)
  exact ⟨_, h, rfl, rfl, rfl, fun hq => hq.noProxy 0 rfl⟩

end ClientControl

end Frp
