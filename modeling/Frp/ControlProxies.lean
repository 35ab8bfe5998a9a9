import Frp.ControlSound
import Frp.Ownership
import Frp.Slots

/-!
# Proxies of a control

A name in the proxy manager is of one control, which has it in its map or has its dispatcher
or its worker at it.
-/

namespace Frp

open Function

def Pc.filed : Pc → List Str
  | .serving (.filed n) | .serving (.dropped n) | .serving (.closed n) => [n]
  | .draining l => l
  | .drainClosed n rest => n :: rest
  | _ => []

def Pc.started : Pc → List Str
  | .serving (.opened n) | .serving (.filed n) | .serving (.dropped n) => [n]
  | .draining l => l
  | .drainClosed _ rest => rest
  | _ => []

def Pc.keeps : Pc → Bool
  | .serving _ | .stopped | .stopping => true
  | _ => false

def Pc.load (p : Pc) : List Str × List Str × Bool := (p.filed, p.started, p.keeps)

open Pc Server

theorem Task.load_next (task : Task) : task.next.load = ([], [], false) := by cases task <;> rfl

attribute [local simp] Pc.started

namespace Server

variable {s s' : Server} {c : Nat} {t : Thread} {p q : Pc}

def own (s : Server) (c : Nat) : List Str := (s.pc (.worker c)).filed ++ s.proxies c

structure Ledger (s : Server) : Prop where
  owns : OwnedBy s.pxys s.own
  opened : ∀ c, (s.opened c).Perm ((s.pc (.worker c)).started ++ s.proxies c)
  empty : ∀ c, (s.pc (.worker c)).keeps = false → s.proxies c = []

theorem Ledger.init (h : s.Init) : s.Ledger := by
  rw [h.2]; exact ⟨⟨by simp [own, filed], by simp [own, filed]⟩, by simp, fun _ _ => rfl⟩

/-! ## Steps of one control -/

theorem Ledger.frame (hi : s.Ledger) (hpc : ∀ c, (s'.pc (.worker c)).load = (s.pc (.worker c)).load)
    (hp : s'.proxies = s.proxies) (ho : s'.opened = s.opened) (hx : s'.pxys = s.pxys) : s'.Ledger := by
  simp only [load, Prod.mk.injEq] at hpc
  refine ⟨?_, fun c => ?_, fun c hc => ?_⟩
  · have hown : s'.own = s.own := by funext c; unfold own; rw [(hpc c).1, hp]
    rw [hx, hown]; exact hi.owns
  · rw [(hpc c).2.1, ho, hp]; exact hi.opened c
  · rw [hp]; exact hi.empty c (by rw [← (hpc c).2.2]; exact hc)

theorem Ledger.quiet (hi : s.Ledger) (hpc : s'.pc = update s.pc t q) (ht : s.pc t = p) (hq : q.load = p.load)
    (hp : s'.proxies = s.proxies) (ho : s'.opened = s.opened) (hx : s'.pxys = s.pxys) : s'.Ledger := by
  refine hi.frame (fun c => ?_) hp ho hx
  rw [hpc]; exact update_same load (ht ▸ hq) (.worker c)

theorem Ledger.serve {P O : List Str} (hi : s.Ledger) (hpc : s'.pc = update s.pc (.worker c) q)
    (hp : s'.proxies = update s.proxies c P) (ho : s'.opened = update s.opened c O)
    (owns : OwnedBy s'.pxys (update s.own c (q.filed ++ P))) (opened : O.Perm (q.started ++ P))
    (empty : q.keeps = false → P = []) : s'.Ledger := by
  have hne : ∀ {d}, d ≠ c → s'.pc (.worker d) = s.pc (.worker d) := fun {d} hd => by
    rw [hpc, update_of_ne (by simpa using hd)]
  have heq : s'.pc (.worker c) = q := by rw [hpc, update_self]
  have hown : s'.own = update s.own c (q.filed ++ P) := by
    funext d
    by_cases hd : d = c
    · subst hd; simp [own, heq, hp]
    · simp [own, hne hd, hp, hd]
  refine ⟨hown ▸ owns, fun d => ?_, fun d hd => ?_⟩ <;> by_cases hdc : d = c
  · subst hdc; rw [heq, hp, ho, update_self, update_self]; exact opened
  · rw [hne hdc, hp, ho, update_of_ne hdc, update_of_ne hdc]; exact hi.opened d
  · subst hdc; rw [hp, update_self]; exact empty (heq ▸ hd)
  · rw [hp, update_of_ne hdc]; exact hi.empty d (hne hdc ▸ hd)

theorem own_eq (hp : s.pc (.worker c) = p) : s.own c = p.filed ++ s.proxies c := by
  rw [own, hp]

theorem Ledger.opened_at (hi : s.Ledger) (hp : s.pc (.worker c) = p) : (s.opened c).Perm (p.started ++ s.proxies c) :=
  hp ▸ hi.opened c

end Server

open Server in
theorem ServerStep.ledger {s s' : Server} {ev : ServerEvent} (h : ServerStep s ev s') (hl : s.view.Locks)
    (hi : s.Ledger) : s'.Ledger := by
  have same : ∀ (f : Nat → List Str) c, f = update f c (f c) := fun f c => (update_eq_self c f).symm
  cases h with
  | login _ _ hp | addReadNone hp | addRead hp | addLock hp | handedOff hp | activated _ hp | notActivated _ hp
  | checked hp | notChecked hp | writeFailed hp | abandoned hp | dispatcherDone hp | stop hp | drained hp
  | finish hp | shutdown _ hp | shutNext hp | shutClose hp | lockFound hp | lockAcquire hp | lockValid hp =>
    exact hi.quiet rfl hp rfl rfl rfl rfl
  | lockMissing hp | lockInvalid hp | removed _ hp | notRemoved hp =>
    exact hi.quiet rfl hp (Task.load_next _) rfl rfl rfl
  | heartbeat => exact hi.frame (fun _ => rfl) rfl rfl rfl
  | @addRetry c x old hp | @added c x old m hp | @addRefused c x old m err hp =>
    cases old <;> exact hi.quiet rfl hp rfl rfl rfl rfl
  | @commit c x y e hp =>
    -- the worker of a handler that writes has not been started
    have hidle : s.pc (.worker c) = .idle := by
      by_contra hne
      have := hl.ran c hne
      rw [show s.view.pc _ = _ from hp] at this; cases this
    have h1 : (((s.setControl c y).unlock e.runMu).goto (.handler c) .done).Ledger :=
      hi.quiet rfl hp rfl rfl rfl rfl
    have hw : (((s.setControl c y).unlock e.runMu).goto (.handler c) .done).pc (.worker c) = .idle := by
      simpa [goto, unlock, setControl, withManager] using hidle
    have ho := h1.opened_at hw
    exact h1.serve rfl (same _ c) (same _ c) (h1.owns.perm (.of_eq (own_eq hw).symm)) ho (by simp [keeps])
  | @openProxy c name hp =>
    exact hi.serve rfl (same _ c) rfl (hi.owns.perm (.of_eq (own_eq hp).symm)) ((hi.opened_at hp).cons name)
      (by simp [keeps])
  | @nameTaken c name hp | @closeProxy c name hp =>
    have ho := (hi.opened_at hp).erase name
    exact hi.serve (P := s.proxies c) rfl (same _ c) rfl (hi.owns.perm (.of_eq (own_eq hp).symm))
      (by simpa using ho) (by simp [keeps])
  | @fileProxy c name hp hn =>
    have ho := hi.opened_at hp
    exact hi.serve rfl (same _ c) (same _ c) (hi.owns.take hn (by rw [own_eq hp]; exact .refl _)) ho
      (by simp [keeps])
  | @keepProxy c name hp =>
    have hn : name ∉ s.proxies c := by
      have := hi.owns.nodup c
      rw [own_eq hp] at this; exact (List.nodup_cons.mp this).1
    have hins : (s.proxies c).insert name = name :: s.proxies c := List.insert_of_not_mem hn
    refine hi.serve rfl rfl (same _ c) (hi.owns.perm (.of_eq ?_)) ?_ (by simp [keeps])
    · rw [own_eq hp, hins]; rfl
    · rw [hins]; exact hi.opened_at hp
  | @dropProxy c name hp hmem =>
    have hperm : (name :: (s.proxies c).erase name).Perm (s.proxies c) := (List.perm_cons_erase hmem).symm
    exact hi.serve rfl rfl (same _ c) (hi.owns.perm (by rw [own_eq hp]; exact hperm))
      ((hi.opened_at hp).trans hperm.symm) (by simp [keeps])
  | @deleteProxy c name hp =>
    have ho := hi.opened_at hp
    exact hi.serve rfl (same _ c) (same _ c) (hi.owns.release (.of_eq (own_eq hp))) ho
      (by simp [keeps])
  | @takeProxies c hp =>
    have ho := hi.opened_at hp
    exact hi.serve (O := s.opened c) rfl rfl (same _ c) (hi.owns.perm (.of_eq (by simp [own_eq hp, filed])))
      (by simpa using ho) fun _ => rfl
  | @drainClose c name rest hp =>
    have ho := (hi.opened_at hp).erase name
    exact hi.serve (P := s.proxies c) rfl (same _ c) rfl (hi.owns.perm (.of_eq (own_eq hp).symm))
      (by simpa using ho) fun _ => hi.empty c (hp ▸ rfl)
  | @drainDelete c name rest hp =>
    have ho := hi.opened_at hp
    exact hi.serve rfl (same _ c) (same _ c) (hi.owns.release (.of_eq (own_eq hp))) ho
      fun _ => hi.empty c (hp ▸ rfl)

theorem Server.ledger_of_reach {s : Server} (h : Reach Server.Init ServerStep s) : s.Ledger :=
  h.invariant (fun _ => .init) fun _ _ _ hr hi hs => hs.ledger (inv_of_reach hr).toLocks hi

theorem Server.Ledger.clear {s : Server} (hi : s.Ledger) {c : Nat} (hb : (s.pc (.worker c)).busy = false) :
    s.proxies c = [] ∧ s.opened c = [] ∧ ∀ n, s.pxys n ≠ some c := by
  have hload : (s.pc (.worker c)).load = ([], [], false) := by
    cases hp : s.pc (.worker c) <;> rw [hp] at hb <;> first | rfl | cases hb
  simp only [load, Prod.mk.injEq] at hload
  have hp := hi.empty c hload.2.2
  refine ⟨hp, ?_, fun n hn => ?_⟩
  · have ho := hi.opened c
    rw [hload.2.1, hp] at ho; simpa using ho
  · have hmem := (hi.owns.mem n c).mp hn
    simp [own, hload.1, hp] at hmem

/-- At most one control of a run id is running; and while one is, no other control of the run id has
a proxy open or in the proxy manager. -/
theorem handoff {s : Server} (h : Reach Server.Init ServerStep s) {c d : Nat} {x y : Control}
    (hx : s.m.controls c = some x) (hy : s.m.controls d = some y) (hr : x.runID = y.runID)
    (hs : x.state = .running) (hne : d ≠ c) :
    y.state ≠ .running ∧ (s.pc (.worker d)).busy = false ∧
      s.proxies d = [] ∧ s.opened d = [] ∧ ∀ n, s.pxys n ≠ some d := by
  have hi := inv_of_reach h
  have hbusy : ∀ {u z}, s.m.controls u = some z → z.state = .running → s.view.Busy u := fun hz hzs =>
    busy_of_up (hi.running _ _ (view_life hz) hzs)
  have hd : ¬ s.view.Busy d := fun hd => hne
    (hi.unique d c _ _ hd (hbusy hx hs) (view_life hy) (view_life hx) hr.symm)
  have hd' : (s.pc (.worker d)).busy = false := Bool.eq_false_iff.mpr hd
  exact ⟨fun hys => hd (hbusy hy hys), hd', (ledger_of_reach h).clear hd'⟩

theorem handoff_second_login : ∃ s : Server, Reach Server.Init ServerStep s ∧
    ((s.m.controls 1).map (·.state) = some .running) ∧ s.pc (.worker 0) = .exited ∧ ∀ n, s.pxys n ≠ some 0 := by
  have h : Reach Server.Init ServerStep
      ⟨⟨fun _ => none, false, .new, 0, fun _ => none⟩, fun _ => none, 0, fun _ => .idle, fun _ => [], fun _ => [],
        fun _ => none⟩ := .start ⟨rfl, rfl⟩
  have h := h
    |>.next (.login (c := 0) (lit "run") ⟨lit "alice", lit "pc", [], [], [], []⟩ rfl rfl)
    |>.next (.addReadNone (c := 0) rfl rfl rfl)
    |>.next (.added (c := 0) rfl rfl rfl (fun e he => by cases he) rfl)
    |>.next (.handedOff (c := 0) rfl rfl (fun b hb => by cases hb))
    |>.next (.lockFound (t := .handler 0) rfl rfl rfl (fun hc => by cases hc))
    |>.next (.lockAcquire (t := .handler 0) rfl rfl)
    |>.next (.lockValid (t := .handler 0) rfl rfl rfl rfl (fun hc => by cases hc))
    |>.next (.activated (c := 0) 7 rfl rfl rfl rfl)
    |>.next (.lockFound (t := .handler 0) rfl rfl rfl (fun hc => by cases hc))
    |>.next (.lockAcquire (t := .handler 0) rfl rfl)
    |>.next (.lockValid (t := .handler 0) rfl rfl rfl rfl (fun hc => by cases hc))
    |>.next (.checked (c := 0) rfl rfl rfl rfl rfl rfl)
    |>.next (.commit (c := 0) rfl rfl rfl)
    |>.next (.openProxy (c := 0) (lit "web") rfl rfl)
    |>.next (.fileProxy (c := 0) rfl rfl)
    |>.next (.keepProxy (c := 0) rfl)
    |>.next (.login (c := 1) (lit "run") ⟨lit "alice", lit "pc", [], [], [], []⟩ rfl rfl)
    |>.next (.addRead (c := 1) rfl rfl rfl)
    |>.next (.addLock (c := 1) rfl rfl)
    |>.next (.added (c := 1) rfl rfl rfl (fun e he f hf => by cases he; cases hf) rfl)
    |>.next (.dispatcherDone (c := 0) rfl)
    |>.next (.stop (c := 0) rfl rfl)
    |>.next (.takeProxies (c := 0) rfl)
    |>.next (.drainClose (c := 0) rfl)
    |>.next (.drainDelete (c := 0) rfl)
    |>.next (.drained (c := 0) rfl)
    |>.next (.lockFound (t := .worker 0) rfl rfl rfl (fun _ => rfl))
    |>.next (.lockAcquire (t := .worker 0) rfl rfl)
    |>.next (.lockValid (t := .worker 0) rfl rfl rfl rfl (fun _ => rfl))
    |>.next (.removed (t := .worker 0) 8 rfl rfl rfl rfl)
    |>.next (.finish (c := 0) rfl rfl)
    |>.next (.handedOff (c := 1) rfl rfl (fun b hb => by cases hb; exact ⟨_, rfl, rfl⟩))
    |>.next (.lockFound (t := .handler 1) rfl rfl rfl (fun hc => by cases hc))
    |>.next (.lockAcquire (t := .handler 1) rfl rfl)
    |>.next (.lockValid (t := .handler 1) rfl rfl rfl rfl (fun hc => by cases hc))
    |>.next (.activated (c := 1) 9 rfl rfl rfl rfl)
    |>.next (.lockFound (t := .handler 1) rfl rfl rfl (fun hc => by cases hc))
    |>.next (.lockAcquire (t := .handler 1) rfl rfl)
    |>.next (.lockValid (t := .handler 1) rfl rfl rfl rfl (fun hc => by cases hc))
    |>.next (.checked (c := 1) rfl rfl rfl rfl rfl rfl)
    |>.next (.commit (c := 1) rfl rfl rfl)
  exact ⟨_, h, rfl, rfl, (handoff (c := 1) (d := 0) h rfl rfl rfl rfl (by decide)).2.2.2.2⟩

end Frp
