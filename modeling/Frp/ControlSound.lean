import Frp.ControlView
import Frp.ManagerSound

/-!
# Every step of the server keeps the hand-off

Each step is one of the changes the hand-off survives. The manager inside the server takes
steps of the manager alone.
-/

namespace Frp

open Function

/-! ## Steps of the server -/

attribute [local simp] Manager.setEntry Manager.setControl View.Busy Pc.entry

open Server View Pc Control Manager

namespace Server

variable {s : Server} {t : Thread} {c : Nat} {x y : Control} {e : EntryRef}

theorem view_setControl : (s.setControl c x).view = s.view.setLife c x.life := by
  simp only [view, View.setLife, View.mk.injEq]
  refine ⟨rfl, rfl, ?_, rfl, rfl⟩
  funext d
  by_cases hd : d = c
  · subst hd; simp [setControl, withManager]
  · simp [setControl, withManager, update_of_ne hd]

variable {m : Manager}

theorem withManager_setControl : s.withManager (m.setControl c x) = (s.withManager m).setControl c x := rfl

theorem view_life (h : s.m.controls c = some x) : s.view.life c = some x.life := by simp [view, h]

theorem view_activate {now : Nat} {a : Activation} (h : s.m.controls c = some x)
    (hm : s.m.activate now c x = (m, a)) : (s.withManager m).view = s.view := by
  have hm1 : m = (s.m.activate now c x).1 := by rw [hm]
  rcases activate_cases s.m now c x with he | ⟨e, login, reg, key, he, -, -, -, -, -, hs⟩
  · rw [hm1, he]; rfl
  · rw [hm1, hs]
    simp only [view, View.mk.injEq]
    refine ⟨?_, rfl, ?_, rfl, rfl⟩
    · funext r
      by_cases hr : r = x.runID
      · subst hr; simp [current, withManager, he]
      · simp [current, withManager, update_of_ne hr]
    · funext d
      by_cases hd : d = c
      · subst hd; simp [withManager, h, Control.life]
      · simp [withManager, update_of_ne hd]

variable {mu : Nat}

theorem view_refused {err : AddError} (hm : s.m.add c x mu = (m, some err)) : (s.withManager m).view = s.view := by
  unfold add at hm
  by_cases hc : s.m.closed = true
  · rw [if_pos hc, Prod.mk.injEq] at hm
    rw [← hm.1]; rfl
  · rw [if_neg hc] at hm
    by_cases hs : x.state = .created
    · simp only [admitAs, hs, if_true] at hm
      cases he : s.m.ctlsByRunID x.runID <;> simp [he] at hm
    · simp only [admitAs, hs, if_false, Prod.mk.injEq] at hm
      rw [← hm.1]; rfl

def pendingLife (x : Control) (barrier : Option Nat) : Life := ⟨x.runID, .pending, barrier⟩

theorem view_setEntry {r : Str} {e : ControlEntry} :
    (s.withManager (m.setEntry r (some e))).view = (s.withManager m).view.setEntry r (some e.toEntryRef) := by
  simp only [view, View.setEntry, View.mk.injEq]
  refine ⟨?_, rfl, rfl, rfl, rfl⟩
  funext r'
  by_cases hr : r' = r
  · subst hr; simp [current, withManager]
  · simp [current, withManager, update_of_ne hr]

theorem view_added_none (hm : s.m.add c x mu = (m, none)) (hr : s.current x.runID = none) :
    (s.withManager m).view = (s.view.setLife c (pendingLife x x.handoffBarrier)).setEntry x.runID
      (some ⟨c, s.m.nextControlID + 1, mu⟩) := by
  obtain ⟨hc, hs, -⟩ := add_ok (by rw [hm])
  have he : s.m.ctlsByRunID x.runID = none := by simpa [current] using hr
  unfold add at hm
  rw [if_neg (by simp [hc])] at hm
  simp only [admitAs, hs, if_true, he, Prod.mk.injEq, and_true] at hm
  rw [← hm, view_setEntry]
  congr 1
  exact view_setControl

theorem view_added_some {old : EntryRef} {y : Control} (hm : s.m.add c x mu = (m, none))
    (hr : s.current x.runID = some old) (hy : s.m.controls old.ctl = some y) (hne : old.ctl ≠ c) :
    (s.withManager m).view = (((s.view.setLife old.ctl (y.markReplaced old.ctl).1.life).setLife c
      (pendingLife x (y.markReplaced old.ctl).2))).setEntry x.runID (some ⟨c, s.m.nextControlID + 1, old.runMu⟩) := by
  obtain ⟨hc, hs, -⟩ := add_ok (by rw [hm])
  obtain ⟨e, he, rfl⟩ : ∃ e, s.m.ctlsByRunID x.runID = some e ∧ e.toEntryRef = old := by simpa [current] using hr
  unfold add at hm
  rw [if_neg (by simp [hc])] at hm
  simp only [admitAs, hs, if_true, he, Prod.mk.injEq, and_true] at hm
  rw [markReplaced_eq (by simpa [update_of_ne hne] using hy)] at hm
  rw [← hm, view_setEntry]
  congr 1
  rw [withManager_setControl, view_setControl, withManager_setControl, view_setControl, withManager_setControl,
    view_setControl, setLife_comm hne.symm, setLife_idem]
  rfl

/-! ## Sections that change the manager -/

variable {old : Option EntryRef}

theorem muMove_unlockOld {q : Pc} (hq : q.gate = none) :
    MuMove gate t (.addHeld old) q s.mus (s.unlockOld old).mus := by
  cases old with
  | none => exact .keep (.inl hq)
  | some => exact .release rfl hq

theorem view_unlockOld {q : Pc} : ((s.unlockOld old).goto t q).view = s.view.move t q (s.unlockOld old).mus := by
  cases old <;> rfl

section
variable (hi : s.view.Inv) (hx : s.m.controls c = some x)
include hi hx

theorem inv_close (free : s.LifecycleFree c)
    (wait : s.pc (.handler c) = .waiting → s.m.closed = true) : (s.setControl c x.close).view.Inv := by
  rw [view_setControl]; exact hi.close (view_life hx) free wait

theorem inv_close_started (hw : s.pc (.worker c) ≠ .idle) : (s.setControl c x.close).view.Inv := by
  have hd : s.pc (.handler c) = .done := hi.ran c hw
  exact inv_close hi hx (fun e he => by rw [hd] at he; cases he) fun h => by rw [hd] at h; cases h

theorem inv_worker (hw : s.pc (.worker c) ≠ .idle)
    (hy : y.life = ⟨x.runID, y.state, x.handoffBarrier⟩) (hr : y.state ≠ .running) (hc : y.state ≠ .created)
    (live : (s.pc (.worker c)).busy = true → y.state = .closing) : (s.setControl c y).view.Inv := by
  have hd : s.view.pc (.handler c) = .done := hi.ran c hw
  rw [view_setControl, hy]
  refine hi.setLife (view_life hx) rfl rfl (fun hb => .inr (live hb)) (fun h => absurd h hr) (fun _ => hw) ?_
    (fun h => absurd h hc) ?_
  · intro e he; rw [hd] at he; cases he
  · intro r e _ _ hwt; rw [hd] at hwt; cases hwt

theorem inv_stop (hp : s.pc (.worker c) = .stopped) :
    ((s.setControl c x.stop).goto (.worker c) .stopping).view.Inv := by
  obtain ⟨z, hz, hst⟩ := hi.live c (by simp [show s.view.pc _ = _ from hp, busy])
  cases Option.some.inj ((view_life hx).symm.trans hz)
  have hcl : x.stop.state = .closing := by
    unfold stop
    rcases hst with h | h <;> simp [show x.state = _ from h]
  have hlife : x.stop.life = ⟨x.runID, x.stop.state, x.handoffBarrier⟩ := by
    unfold stop; split <;> rfl
  have h1 := inv_worker hi hx (by simp [hp]) hlife (by simp [hcl]) (by simp [hcl]) fun _ => hcl
  refine h1.move hp (h1.toLocks.move hp (.keep (.inl rfl)) rfl (by simp) (by simp) (by simp)) (by simp) (by simp)
    (by simp [busy]) (by simp) ?_ (by simp) (by simp)
  intro d w hd hw hr
  cases hd
  rw [view_setControl] at hw
  cases Option.some.inj (setLife_life_self.symm.trans hw)
  rw [show x.stop.state = _ from hr] at hcl; cases hcl

theorem inv_commit (hp : s.pc (.handler c) = .writing e) (hy : x.startLocked = some y) :
    ((((s.setControl c y).unlock e.runMu).goto (.handler c) .done).goto (.worker c) (.serving .idle)).view.Inv := by
  have hidle : s.view.pc (.worker c) = .idle := by
    by_contra h
    have := hi.ran c h
    rw [show s.view.pc _ = _ from hp] at this; cases this
  obtain ⟨hctl, -⟩ := hi.writing c e hp
  obtain ⟨r, hr⟩ := hi.entry (.handler c) e (by simp [show s.view.pc _ = _ from hp])
  have hrun : x.runID = r := by
    obtain ⟨z, hz, hzr, -⟩ := hi.entries r e hr
    cases Option.some.inj ((view_life hx).symm.trans (hctl ▸ hz))
    exact hzr
  subst hrun
  have hyr : y.runID = x.runID ∧ y.state = .running := by
    unfold startLocked at hy
    split at hy
    · cases hy; exact ⟨rfl, rfl⟩
    · cases hy
  have h1 := hi.calm (q := .done) hp (.release rfl rfl)
    (by constructor <;> simp [fits, busy, up])
  have h2 := h1.start (y := y.life) (view_life hx) ((move_pc_ne (by simp)).trans hidle) move_pc_self
    hr hctl hyr.1 hyr.2
  change View.Inv (((s.setControl c y).view.move (.handler c) .done s.mus).move (.worker c) (.serving .idle)
    (update s.mus e.runMu none))
  rw [view_setControl]; exact h2

end

theorem view_remove (s : Server) (now c : Nat) (x : Control) :
    (s.withManager (s.m.remove now c x)).view = s.view ∨ ∃ e, s.m.ctlsByRunID x.runID = some e ∧ e.ctl = c ∧
      (s.withManager (s.m.remove now c x)).view = s.view.setEntry x.runID none := by
  rcases remove_cases s.m now c x with h | ⟨e, he, hctl, -, h⟩
  · rw [h]; exact .inl rfl
  · refine .inr ⟨e, he, hctl, ?_⟩
    rw [h]
    simp only [view, View.setEntry, View.mk.injEq]
    refine ⟨?_, rfl, rfl, rfl, rfl⟩
    funext r
    by_cases hr : r = x.runID
    · subst hr; simp [current, withManager]
    · simp [current, withManager, update_of_ne hr]

theorem inv_removed {task : Task} (now : Nat) (hi : s.view.Inv) (hp : s.pc t = .lock task (.locked e))
    (hcur : s.current x.runID = some e) :
    (((s.withManager (s.m.remove now (task.target t) x)).unlock e.runMu).goto t task.next).view.Inv := by
  have h1 := hi.calm hp (.release rfl task.next_quiet.1) (.next (hi.task_fits hp))
  change View.Inv (move (s.withManager (s.m.remove now (task.target t) x)).view t task.next
    (update s.mus e.runMu none))
  rcases view_remove s now (task.target t) x with h | ⟨f, hf, hctl, h⟩
  · rw [h]; exact h1
  · have hfe : f.toEntryRef = e := by simpa [current, hf] using hcur
    subst hfe
    have hgone : ∀ u, ((s.view.move t task.next (update s.mus f.runMu none)).pc u).entry ≠
        some f.toEntryRef := by
      intro u hu
      by_cases hut : u = t
      · subst hut; rw [move_pc_self, task.next_quiet.2.1] at hu; cases hu
      · rw [move_pc_ne hut] at hu
        exact hut (hi.gate.exclusive (gate_of_entry hu) (by simp [show s.view.pc _ = _ from hp, gate]))
    have h2 := h1.drop hcur hgone ?_
    · rw [h]; exact h2
    · -- a worker of the run with work to do is the one that removes, unless the manager is closing
      have hfits := hi.task_fits hp
      cases t with
      | handler c =>
        have hctl : f.ctl = c := hctl
        refine .inr fun d z hz hzr => h1.rest hcur ?_ ?_ hz hzr
        · have hidle : s.view.pc (.worker f.ctl) = .idle := by
            by_contra hne
            have := hi.ran _ hne
            rw [hctl, show s.view.pc _ = _ from hp] at this; cases this
          simp [move_pc_ne, hidle, busy]
        · rw [hctl]; simpa using task.next_quiet.2.2.2.1
      | worker c =>
        have hctl : f.ctl = c := hctl
        refine .inr fun d z hz hzr => h1.rest hcur ?_ ?_ hz hzr
        · rw [hctl]; simp [task.next_quiet.2.2.1]
        · rw [move_pc_ne (by simp), hctl]
          have hd : s.view.pc (.handler c) = .done := hi.ran c (by simp [show s.view.pc _ = _ from hp])
          simp [hd]
      | closer k => exact .inl (hi.shut k (by simp [show s.view.pc _ = _ from hp]))

theorem inv_added (hi : s.view.Inv)
    (hp : s.pc (.handler c) = .addHeld old) (hx : s.m.controls c = some x) (hcur : s.current x.runID = old)
    (free : ∀ e, old = some e → s.LifecycleFree e.ctl) (hm : s.m.add c x mu = (m, none)) :
    (((s.withManager m).unlockOld old).goto (.handler c) .waiting).view.Inv := by
  have hok : (s.m.add c x mu).2 = none := by rw [hm]
  obtain ⟨hopen, hst, -⟩ := add_ok hok
  have hmove : MuMove gate (.handler c) (.addHeld old) .waiting s.mus (s.unlockOld old).mus :=
    muMove_unlockOld rfl
  rw [view_unlockOld, show ((s.withManager m).unlockOld old).mus = (s.unlockOld old).mus by cases old <;> rfl]
  cases old with
  | none =>
    rw [view_added_none hm hcur]
    refine hi.makeCurrent (view_life hx) hst hp hcur rfl rfl rfl ?_ hmove
    intro d z hd hz hzr
    rcases hi.cover d z hd hz with ⟨f, hf, -⟩ | ⟨hcl, -⟩
    · rw [hzr] at hf; cases hcur.symm.trans hf
    · rw [show s.view.closed = _ from hopen] at hcl; cases hcl
  | some e =>
    obtain ⟨z, hz, -, hzs⟩ := hi.entries _ e hcur
    obtain ⟨y, hy, rfl⟩ : ∃ y, s.m.controls e.ctl = some y ∧ y.life = z := by simpa [view] using hz
    have hne : e.ctl ≠ c := by
      rintro rfl
      cases Option.some.inj (hx.symm.trans hy)
      exact hzs hst
    rw [view_added_some hm hcur hy hne]
    exact hi.replace (view_life hx) hst hp hcur hopen hz
      (free e rfl) rfl rfl rfl rfl hmove hne

end Server

section
attribute [local simp] Task.fits Pc.entry Pc.up Pc.busy Pc.fits

theorem ServerStep.inv {s s' : Server} {ev : ServerEvent} (h : ServerStep s ev s') (hi : s.view.Inv) :
    s'.view.Inv := by
  cases h with
  | addReadNone hp | addRead hp | openProxy _ hp | nameTaken hp | fileProxy hp | keepProxy hp | dropProxy _ hp
  | closeProxy hp | deleteProxy hp | dispatcherDone hp | takeProxies hp | drainClose hp | drainDelete hp
  | drained hp | shutNext hp => exact hi.calm hp (.keep (.inl rfl)) (by constructor <;> simp)
  | addLock hp hfree => exact hi.calm hp (.acquire rfl hfree) (by constructor <;> simp)
  | lockMissing hp => exact hi.calm hp (.keep (.inl (Task.next_quiet _).1)) (.next (hi.task_fits hp))
  | lockFound hp => exact hi.calm hp (.keep (.inl rfl)) (.lock (hi.task_fits hp) rfl)
  | lockAcquire hp hfree => exact hi.calm hp (.acquire rfl hfree) (.lock (hi.task_fits hp) rfl)
  | lockInvalid hp | notRemoved hp => exact hi.calm hp (.release rfl (Task.next_quiet _).1) (.next (hi.task_fits hp))
  | notActivated _ hp | notChecked hp | writeFailed hp =>
    exact hi.calm hp (.release rfl rfl) (by constructor <;> simp)
  | addRetry hp =>
    rw [view_unlockOld]; exact hi.calm hp (muMove_unlockOld rfl) (by constructor <;> simp)
  | @addRefused c x old m err hp _ _ hm =>
    rw [view_unlockOld, view_refused hm]
    exact hi.calm hp (muMove_unlockOld (s := s.withManager m) rfl)
      (by constructor <;> simp)
  | @activated c x e m now hp hx hcur hm =>
    have hv : (s.withManager m).view.Inv := view_activate hx hm ▸ hi
    exact hv.calm hp (.release rfl rfl) (by constructor <;> simp)
  | @login c runID login hp hx =>
    have h1 := hi.login (c := c) (x := (Control.new runID login).life) (by simp [view, hx]) rfl
    rw [← view_setControl] at h1
    exact h1.move hp (h1.toLocks.move hp (.keep (.inl rfl)) rfl (by simp) (by simp) (by simp)) (by simp) (by simp)
      (by simp) (by simp) (by simp) (by simp) (by simp)
  | @handedOff c x hp hx hdone =>
    refine hi.move hp (hi.toLocks.move hp (.keep (.inl rfl)) rfl (by simp) (by simp) (by simp)) (by simp) (by simp)
      (by simp) (by simp) (by simp) (by simp) ?_
    intro d y b hd _ hy hb hbusy
    cases hd
    cases Option.some.inj ((view_life hx).symm.trans hy)
    obtain ⟨z, hz, hcl⟩ := hdone b hb
    obtain ⟨w, hw, hst⟩ := hi.live b hbusy
    cases Option.some.inj ((view_life hz).symm.trans hw)
    simp [Control.life, hcl] at hst
  | @lockValid t task mu x e hp hx he hmu =>
    subst hmu
    refine hi.move hp (hi.toLocks.move hp (.keep (.inr rfl)) ?_ (by simp) (by simp) (by simp)) (by simp) (by simp)
      (by simp) ?_ ?_ (by simp) (by simp)
    · simpa using hi.task_fits hp
    · intro f hf
      cases hf; exact .inr ⟨x.runID, by simp [view, current, he]⟩
    · intro d y ht hy hr
      subst ht
      have := hi.running d y hy hr
      rw [show s.view.pc _ = _ from hp] at this; cases this
  | @checked c x e hp hx hctl _ hst =>
    refine hi.move hp (hi.toLocks.move hp (.keep (.inr rfl)) rfl (by simp) (by simp) (by simp)) (by simp) (by simp)
      (by simp) (by simp) (by simp) ?_ (by simp)
    intro d f hd hf
    cases hd
    cases hf; exact ⟨hctl, x.life, view_life hx, hst⟩
  | commit hp hx hy => exact inv_commit hi hx hp hy
  | removed now hp _ _ hcur => exact inv_removed now hi hp hcur
  | @abandoned c x hp hx =>
    have h1 := inv_close hi hx (fun e he => by rw [hp] at he; cases he) fun h => by rw [hp] at h; cases h
    exact h1.calm hp (.keep (.inl rfl)) (by constructor <;> simp)
  | stop hp hx => exact inv_stop hi hx hp
  | @finish c x hp hx =>
    have h1 := inv_worker (y := x.finishLocked) hi hx (by simp [hp]) rfl (by simp [Control.finishLocked])
      (by simp [Control.finishLocked]) (by simp [hp, busy])
    exact h1.calm hp (.keep (.inl rfl)) (by constructor <;> simp)
  | heartbeat hw hx => exact inv_close_started hi hx hw
  | @shutdown k ctls hp =>
    have h1 := hi.shutdown
    exact h1.move hp (h1.toLocks.move hp (.keep (.inl rfl)) rfl (by simp) (by simp) (by simp)) (by simp) (by simp)
      (by simp) (by simp) (by simp) (by simp) (by simp)
  | @shutClose k c x rest hp hx hfree =>
    have h1 := inv_close hi hx hfree fun _ => hi.shut k (by simp [show s.view.pc _ = _ from hp])
    exact h1.calm hp (.keep (.inl rfl)) (by constructor <;> simp)
  | added hp hx hcur free hm => exact inv_added hi hp hx hcur free hm

end

variable {s : Server}

theorem Server.inv_init (h : s.Init) : s.view.Inv := by
  obtain ⟨hm, hs⟩ := h
  rw [hs, show s.m = _ from hm]
  constructor <;> try constructor
  all_goals simp [view, current, fits, Held, gate, busy]

theorem Server.inv_of_reach (h : Reach Server.Init ServerStep s) : s.view.Inv :=
  h.invariant (fun _ => inv_init) fun _ _ _ _ hi hs => hs.inv hi

/-- The sections of the server are those of the manager, which its invariants are proved of. -/
theorem Server.manager_reach (h : Reach Server.Init ServerStep s) : Reach Manager.Init ManagerStep s.m := by
  refine h.simulate m (fun _ h0 => h0.1) fun s ev s' _ hs => ?_
  cases hs with
  | login runID login _ hx => exact .inr ⟨_, .newControl runID login hx⟩
  | @added c x old m _ hx _ _ hm | @addRefused c x old m _ _ hx _ hm =>
    have : m = (s.m.add c x s.nextMu).1 := by rw [hm]
    exact .inr ⟨.add c, by cases old <;> exact this ▸ .add s.nextMu hx⟩
  | @activated c x e m now _ hx _ hm =>
    have : m = (s.m.activate now c x).1 := by rw [hm]
    exact .inr ⟨.activate c, this ▸ .activate now hx⟩
  | removed now _ _ hx => exact .inr ⟨_, .remove now hx⟩
  | commit _ hx hy => exact .inr ⟨_, .lifecycle hx (.start hy)⟩
  | abandoned _ hx | heartbeat _ hx | shutClose _ hx => exact .inr ⟨_, .lifecycle hx (.close _)⟩
  | stop _ hx => exact .inr ⟨_, .lifecycle hx (.stop _)⟩
  | finish _ hx => exact .inr ⟨_, .lifecycle hx (.finish _)⟩
  | shutdown => exact .inr ⟨_, .close s.m⟩
  | @addRetry c x old => cases old <;> exact .inl rfl
  | _ => exact .inl rfl

end Frp
