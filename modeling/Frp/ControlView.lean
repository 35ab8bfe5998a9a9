import Frp.Control
import Frp.Mutex

/-!
# The hand-off of a run

While a worker has work to do, the entry of its run is of its own control, or of a control
whose handler waits for that worker: the chain of pending controls never grows past one
link.
-/

namespace Frp

open Function

/-! ## Program counters -/

def Pc.gate : Pc → Option Nat
  | .addHeld old => old.map (·.runMu)
  | .lock _ (.held mu) => some mu
  | .lock _ (.locked e) | .writing e => some e.runMu
  | _ => none

def Pc.entry : Pc → Option EntryRef
  | .lock _ (.locked e) | .writing e => some e
  | _ => none

def Pc.up : Pc → Bool
  | .serving _ | .stopped => true
  | _ => false

def Pc.busy : Pc → Bool
  | .serving _ | .stopped | .stopping | .draining _ | .drainClosed _ _ => true
  | _ => false

def Task.fits : Thread → Task → Bool
  | .handler _, .activate | .handler _, .complete | .handler _, .abandon => true
  | .worker _, .exit => true
  | .closer _, .shutdown _ _ => true
  | _, _ => false

def Pc.fits : Thread → Pc → Bool
  | _, .idle => true
  | t, .lock task _ => task.fits t
  | .handler _, .new | .handler _, .addWait _ | .handler _, .addHeld _ | .handler _, .waiting
  | .handler _, .writing _ | .handler _, .closing | .handler _, .done => true
  | .worker _, .serving _ | .worker _, .stopped | .worker _, .stopping | .worker _, .draining _
  | .worker _, .drainClosed _ _ | .worker _, .finishing | .worker _, .exited => true
  | .closer _, .shutNext _ | .closer _, .shutClosing _ _ => true
  | _, _ => false

theorem Pc.gate_of_entry {p : Pc} {e : EntryRef} (h : p.entry = some e) : p.gate = some e.runMu := by
  unfold Pc.entry at h
  split at h <;> cases h <;> rfl

theorem Pc.busy_of_up {p : Pc} (h : p.up = true) : p.busy = true := by
  unfold Pc.up at h
  split at h <;> first | rfl | cases h

theorem Task.fits_next {t : Thread} {task : Task} (h : task.fits t = true) : task.next.fits t = true := by
  unfold Task.fits at h
  split at h <;> first | rfl | cases h

theorem Task.next_quiet (task : Task) : task.next.gate = none ∧ task.next.entry = none ∧ task.next.busy = false ∧
    task.next ≠ .waiting ∧ task.next ≠ .idle ∧ ∀ e, task.next ≠ .writing e := by
  cases task <;> simp [Task.next, Pc.gate, Pc.entry, Pc.busy]

/-! ## What the hand-off reads -/

structure Life where
  runID : Str
  state : ControlState
  barrier : Option Nat

def Control.life (x : Control) : Life := ⟨x.runID, x.state, x.handoffBarrier⟩

structure View where
  cur : Str → Option EntryRef
  closed : Bool
  life : Nat → Option Life
  pc : Thread → Pc
  mus : Nat → Option Thread

def Server.view (s : Server) : View :=
  ⟨s.current, s.m.closed, fun c => (s.m.controls c).map Control.life, s.pc, s.mus⟩

attribute [local simp] Control.finishLocked Pc.up

namespace View

variable {v : View} {t : Thread} {c : Nat} {p q : Pc} {e : EntryRef} {r : Str} {x y : Life}
variable {mus : Nat → Option Thread}

def Busy (v : View) (c : Nat) : Prop := (v.pc (.worker c)).busy = true

structure Locks (v : View) : Prop where
  fits : ∀ t, (v.pc t).fits t = true
  gate : Held Pc.gate v.pc v.mus
  ran : ∀ c, v.pc (.worker c) ≠ .idle → v.pc (.handler c) = .done
  shut : ∀ k, v.pc (.closer k) ≠ .idle → v.closed = true

def Covers (v : View) (e : EntryRef) (c : Nat) : Prop :=
  e.ctl = c ∨ v.pc (.handler e.ctl) = .waiting ∧ ∃ x, v.life e.ctl = some x ∧ x.barrier = some c

structure Inv (v : View) : Prop extends v.Locks where
  entry : ∀ t e, (v.pc t).entry = some e → ∃ r, v.cur r = some e
  live : ∀ c, v.Busy c → ∃ x, v.life c = some x ∧ (x.state = .running ∨ x.state = .closing)
  running : ∀ c x, v.life c = some x → x.state = .running → (v.pc (.worker c)).up = true
  closing : ∀ c x, v.life c = some x → x.state = .closing → v.pc (.worker c) ≠ .idle
  writing : ∀ c e, v.pc (.handler c) = .writing e → e.ctl = c ∧ ∃ x, v.life c = some x ∧ x.state = .pending
  entries : ∀ r e, v.cur r = some e → ∃ x, v.life e.ctl = some x ∧ x.runID = r ∧ x.state ≠ .created
  pending : ∀ r e x, v.cur r = some e → v.closed = false → v.pc (.handler e.ctl) = .waiting →
    v.life e.ctl = some x → x.state = .pending
  cover : ∀ c x, v.Busy c → v.life c = some x →
    (∃ e, v.cur x.runID = some e ∧ v.Covers e c) ∨ v.closed = true ∧ v.cur x.runID = none
  unique : ∀ c d x y, v.Busy c → v.Busy d → v.life c = some x → v.life d = some y → x.runID = y.runID → c = d

/-! ## Moves of one goroutine -/

def move (v : View) (t : Thread) (q : Pc) (mus : Nat → Option Thread) : View :=
  { v with pc := update v.pc t q, mus := mus }

@[simp] theorem move_pc_self : (v.move t q mus).pc t = q := update_self ..

theorem move_pc_ne {u : Thread} (h : u ≠ t) : (v.move t q mus).pc u = v.pc u := update_of_ne h ..

theorem Locks.move (hl : v.Locks) (hp : v.pc t = p) (hm : MuMove Pc.gate t p q v.mus mus) (hf : q.fits t = true)
    (hd : p ≠ .done) (hs : p = .idle → ∀ c, t ≠ .worker c)
    (hk : ∀ k, t = .closer k → p = .idle → v.closed = true) : (v.move t q mus).Locks := by
  subst hp
  refine ⟨fun u => ?_, hl.gate.move hm, fun c hc => ?_, fun k hk' => ?_⟩
  · by_cases hu : u = t
    · subst hu; simpa using hf
    · rw [move_pc_ne hu]; exact hl.fits u
  · have hran : v.pc (.worker c) ≠ .idle → v.pc (.handler c) = .done := hl.ran c
    have hw : v.pc (.worker c) ≠ .idle := by
      by_cases hu : .worker c = t
      · intro hi; exact hs (hu ▸ hi) c hu.symm
      · rwa [move_pc_ne hu] at hc
    have hne : Thread.handler c ≠ t := by rintro rfl; exact hd (hran hw)
    rw [move_pc_ne hne]; exact hran hw
  · by_cases hu : .closer k = t
    · by_cases hi : v.pc t = .idle
      · exact hk k hu.symm hi
      · exact hl.shut k (hu ▸ hi)
    · exact hl.shut k (by rwa [move_pc_ne hu] at hk')

theorem busy_of_move (hb : q.busy = true → (v.pc t).busy = true) (h : (v.move t q mus).Busy c) : v.Busy c := by
  unfold Busy at h ⊢
  by_cases hu : .worker c = t
  · subst hu; exact hb (by simpa using h)
  · rwa [move_pc_ne hu] at h

theorem Inv.move (hi : v.Inv) (hp : v.pc t = p) (hl : (v.move t q mus).Locks) (hq : q ≠ .idle) (hw : q ≠ .waiting)
    (busy : q.busy = true → p.busy = true)
    (found : ∀ e, q.entry = some e → p.entry = some e ∨ ∃ r, v.cur r = some e)
    (up : ∀ c x, t = .worker c → v.life c = some x → x.state = .running → q.up = true)
    (check : ∀ c e, t = .handler c → q = .writing e → e.ctl = c ∧ ∃ x, v.life c = some x ∧ x.state = .pending)
    (wait : ∀ c x b, t = .handler c → p = .waiting → v.life c = some x → x.barrier = some b → ¬ v.Busy b) :
    (v.move t q mus).Inv := by
  subst hp
  exact {
    toLocks := hl
    entry := fun u e hu => by
      by_cases hut : u = t
      · subst hut
        rcases found e (by simpa using hu) with h | h
        · exact hi.entry u e h
        · exact h
      · exact hi.entry u e (by rwa [move_pc_ne hut] at hu)
    live := fun c hc => hi.live c (busy_of_move busy hc)
    running := fun c x hx hr => by
      by_cases hut : .worker c = t
      · subst hut; simpa using up c x rfl hx hr
      · rw [move_pc_ne hut]; exact hi.running c x hx hr
    closing := fun c x hx hr => by
      by_cases hut : .worker c = t
      · subst hut; simpa using hq
      · rw [move_pc_ne hut]; exact hi.closing c x hx hr
    writing := fun c e hc => by
      by_cases hut : .handler c = t
      · subst hut; exact check c e rfl (by simpa using hc)
      · exact hi.writing c e (by rwa [move_pc_ne hut] at hc)
    entries := hi.entries
    pending := fun r e x hr hcl hc hx => by
      have hut : .handler e.ctl ≠ t := by rintro rfl; exact hw (by simpa using hc)
      exact hi.pending r e x hr hcl (by rwa [move_pc_ne hut] at hc) hx
    cover := fun c x hc hx => by
      have hcv := busy_of_move busy hc
      refine (hi.cover c x hcv hx).imp (fun ⟨e, hr, hcov⟩ => ⟨e, hr, hcov.imp_right fun ⟨hwt, y, hy, hb⟩ => ?_⟩) id
      have hut : .handler e.ctl ≠ t := by rintro rfl; exact wait _ y c rfl hwt hy hb hcv
      exact ⟨by rwa [move_pc_ne hut], y, hy, hb⟩
    unique := fun c d x y hc hd => hi.unique c d x y (busy_of_move busy hc) (busy_of_move busy hd) }

structure Calm (t : Thread) (p q : Pc) : Prop where
  fits : q.fits t = true
  from_ne : p ≠ .idle ∧ p ≠ .waiting ∧ p ≠ .done
  to_ne : q ≠ .idle ∧ q ≠ .waiting ∧ ∀ e, q ≠ .writing e
  busy : q.busy = true → p.busy = true
  up : p.up = true → q.up = true
  entry : q.entry = none

theorem Inv.calm (hi : v.Inv) (hp : v.pc t = p) (hm : MuMove Pc.gate t p q v.mus mus) (hc : Calm t p q) :
    (v.move t q mus).Inv := by
  subst hp
  refine hi.move rfl (hi.toLocks.move rfl hm hc.fits hc.from_ne.2.2 (fun h => absurd h hc.from_ne.1)
    (fun _ _ h => absurd h hc.from_ne.1)) hc.to_ne.1 hc.to_ne.2.1 hc.busy ?_ ?_ ?_ ?_
  · intro e he; rw [hc.entry] at he; cases he
  · intro c x ht hx hr
    subst ht; exact hc.up (hi.running c x hx hr)
  · intro c e _ he; exact absurd he (hc.to_ne.2.2 e)
  · intro c x b _ hw; exact absurd hw hc.from_ne.2.1

variable {task : Task}

theorem Calm.next {l : LockPc} (h : task.fits t = true) : Calm t (.lock task l) task.next where
  fits := Task.fits_next h
  from_ne := by simp
  to_ne := ⟨task.next_quiet.2.2.2.2.1, task.next_quiet.2.2.2.1, task.next_quiet.2.2.2.2.2⟩
  busy := by simp [task.next_quiet.2.2.1]
  up := by simp
  entry := task.next_quiet.2.1

theorem Calm.lock {l l' : LockPc} (h : task.fits t = true) (he : (Pc.lock task l').entry = none) :
    Calm t (.lock task l) (.lock task l') where
  fits := h
  from_ne := by simp
  to_ne := by simp
  busy := by simp [Pc.busy]
  up := by simp
  entry := he

theorem Inv.task_fits {l : LockPc} (hi : v.Inv) (hp : v.pc t = .lock task l) : task.fits t = true := by
  have := hi.fits t
  rw [hp] at this; simpa [Pc.fits] using this

/-! ## Changes of one control -/

def setLife (v : View) (c : Nat) (x : Life) : View := { v with life := update v.life c (some x) }

@[simp] theorem setLife_life_self : (v.setLife c x).life c = some x := update_self ..

variable {d : Nat}

theorem setLife_life_ne (h : d ≠ c) : (v.setLife c x).life d = v.life d := update_of_ne h ..

theorem setLife_comm (h : c ≠ d) : (v.setLife c x).setLife d y = (v.setLife d y).setLife c x := by
  simp only [setLife, update_comm h]

theorem setLife_idem : (v.setLife c x).setLife c y = v.setLife c y := by
  simp only [setLife, update_idem]

theorem setLife_cases {z : Life} (h : (v.setLife c x).life d = some z) :
    d = c ∧ z = x ∨ d ≠ c ∧ v.life d = some z := by
  by_cases hd : d = c
  · subst hd; exact .inl ⟨rfl, (Option.some.inj (setLife_life_self.symm.trans h)).symm⟩
  · exact .inr ⟨hd, by rwa [setLife_life_ne hd] at h⟩

theorem Inv.setLife (hi : v.Inv) (hx : v.life c = some x) (hrun : y.runID = x.runID) (hbar : y.barrier = x.barrier)
    (live : v.Busy c → y.state = .running ∨ y.state = .closing)
    (running : y.state = .running → (v.pc (.worker c)).up = true)
    (closing : y.state = .closing → v.pc (.worker c) ≠ .idle)
    (writing : ∀ e, v.pc (.handler c) = .writing e → y.state = .pending)
    (created : y.state = .created → x.state = .created)
    (pending : ∀ r e, v.cur r = some e → e.ctl = c → v.pc (.handler c) = .waiting → v.closed = true) :
    (v.setLife c y).Inv := by
  -- the life of any control in the new view has the run and the barrier it had before
  have old : ∀ d z, (v.setLife c y).life d = some z → ∃ z', v.life d = some z' ∧ z'.runID = z.runID := by
    intro d z hz
    rcases setLife_cases hz with ⟨rfl, rfl⟩ | ⟨-, hz⟩
    · exact ⟨x, hx, hrun.symm⟩
    · exact ⟨z, hz, rfl⟩
  exact {
    toLocks := { hi with }
    entry := hi.entry
    live := fun d hd => by
      by_cases hdc : d = c
      · subst hdc; exact ⟨y, setLife_life_self, live hd⟩
      · rw [setLife_life_ne hdc]; exact hi.live d hd
    running := fun d z hz hr => by
      rcases setLife_cases hz with ⟨rfl, rfl⟩ | ⟨-, hz⟩
      · exact running hr
      · exact hi.running d z hz hr
    closing := fun d z hz hr => by
      rcases setLife_cases hz with ⟨rfl, rfl⟩ | ⟨-, hz⟩
      · exact closing hr
      · exact hi.closing d z hz hr
    writing := fun d e he => by
      by_cases hdc : d = c
      · subst hdc; exact ⟨(hi.writing d e he).1, y, setLife_life_self, writing e he⟩
      · rw [setLife_life_ne hdc]; exact hi.writing d e he
    entries := fun r e he => by
      obtain ⟨z, hz, hr, hs⟩ := hi.entries r e he
      by_cases hdc : e.ctl = c
      · rw [hdc] at hz ⊢
        cases Option.some.inj (hx.symm.trans hz)
        exact ⟨y, setLife_life_self, hrun.trans hr, fun h => hs (created h)⟩
      · exact ⟨z, by rwa [setLife_life_ne hdc], hr, hs⟩
    pending := fun r e z he hcl hw hz => by
      rcases setLife_cases hz with ⟨rfl, rfl⟩ | ⟨-, hz⟩
      · have := pending r e he rfl hw
        rw [show v.closed = false from hcl] at this; cases this
      · exact hi.pending r e z he hcl hw hz
    cover := fun d z hd hz => by
      obtain ⟨z', hz', hr⟩ := old d z hz
      rw [← hr]
      refine (hi.cover d z' hd hz').imp (fun ⟨e, he, hcov⟩ => ⟨e, he, hcov.imp_right fun ⟨hw, w, hwl, hb⟩ => ?_⟩) id
      refine ⟨hw, ?_⟩
      by_cases hdc : e.ctl = c
      · rw [hdc] at hwl ⊢
        cases Option.some.inj (hx.symm.trans hwl)
        exact ⟨y, setLife_life_self, hbar.trans hb⟩
      · exact ⟨w, by rwa [setLife_life_ne hdc], hb⟩
    unique := fun d d' z z' hd hd' hz hz' hr => by
      obtain ⟨w, hw, hwr⟩ := old d z hz
      obtain ⟨w', hw', hwr'⟩ := old d' z' hz'
      exact hi.unique d d' w w' hd hd' hw hw' (by rw [hwr, hwr', hr]) }

variable {z : Control}

theorem Inv.close (hi : v.Inv) (hx : v.life c = some z.life)
    (free : ∀ e, v.pc (.handler c) ≠ .writing e) (wait : v.pc (.handler c) = .waiting → v.closed = true) :
    (v.setLife c z.close.life).Inv := by
  have up : z.state = .running → v.pc (.worker c) ≠ .idle := by
    intro hs hidle
    have := hi.running c _ hx hs
    rw [hidle] at this; cases this
  have hclosing : z.state = .closing → v.pc (.worker c) ≠ .idle := hi.closing c _ hx
  have hlive : v.Busy c → z.state = .running ∨ z.state = .closing := by
    intro hb
    obtain ⟨w, hw, hst⟩ := hi.live c hb
    cases Option.some.inj (hx.symm.trans hw)
    exact hst
  have hclose : z.close.life = ⟨z.runID, z.close.state, z.handoffBarrier⟩ := by
    unfold Control.close; split <;> rfl
  rw [hclose]
  refine hi.setLife hx rfl rfl ?_ ?_ ?_ (fun e h => absurd h (free e)) ?_ (fun _ _ _ _ => wait) <;>
    unfold Control.close <;> dsimp only
  · intro hb
    rcases hlive hb with h | h <;> simp [h]
  · cases hs : z.state <;> simp [hs]
  · cases hs : z.state <;> simp_all [Control.finishLocked]
  · cases hs : z.state <;> simp [hs]

theorem Inv.login (hi : v.Inv) (hx : v.life c = none) (hs : x.state = .created) : (v.setLife c x).Inv := by
  have ne : ∀ d z, v.life d = some z → d ≠ c := by rintro d z hz rfl; rw [hx] at hz; cases hz
  have idle : ¬ v.Busy c := fun hb => by obtain ⟨z, hz, -⟩ := hi.live c hb; exact ne _ _ hz rfl
  have old : ∀ d z, v.Busy d → (v.setLife c x).life d = some z → v.life d = some z := by
    intro d z hd hz
    rcases setLife_cases hz with ⟨rfl, -⟩ | ⟨-, hz⟩
    · exact absurd hd idle
    · exact hz
  have keep : ∀ d z, v.life d = some z → (v.setLife c x).life d = some z := fun d z hz => by
    rwa [setLife_life_ne (ne d z hz)]
  exact {
    toLocks := { hi with }
    entry := hi.entry
    live := fun d hd => (hi.live d hd).imp fun z hz => ⟨keep d z hz.1, hz.2⟩
    running := fun d z hz hr => by
      rcases setLife_cases hz with ⟨rfl, rfl⟩ | ⟨-, hz⟩
      · rw [hs] at hr; cases hr
      · exact hi.running d z hz hr
    closing := fun d z hz hr => by
      rcases setLife_cases hz with ⟨rfl, rfl⟩ | ⟨-, hz⟩
      · rw [hs] at hr; cases hr
      · exact hi.closing d z hz hr
    writing := fun d e he => (hi.writing d e he).imp_right (.imp fun z hz => ⟨keep d z hz.1, hz.2⟩)
    entries := fun r e he => (hi.entries r e he).imp fun z hz => ⟨keep _ z hz.1, hz.2⟩
    pending := fun r e z he hcl hw hz => by
      obtain ⟨w, hwl, -⟩ := hi.entries r e he
      exact hi.pending r e z he hcl hw (by rwa [setLife_life_ne (ne _ _ hwl)] at hz)
    cover := fun d z hd hz => (hi.cover d z hd (old d z hd hz)).imp
      (fun ⟨e, he, hcov⟩ => ⟨e, he, hcov.imp_right fun ⟨hw, w, hwl, hb⟩ => ⟨hw, w, keep _ w hwl, hb⟩⟩) id
    unique := fun d d' z z' hd hd' hz hz' => hi.unique d d' z z' hd hd' (old d z hd hz) (old d' z' hd' hz') }

theorem Inv.rest (hi : v.Inv) (hr : v.cur r = some e) (hidle : ¬ v.Busy e.ctl)
    (hw : v.pc (.handler e.ctl) ≠ .waiting) {z : Life} (hz : v.life d = some z) (hzr : z.runID = r) :
    ¬ v.Busy d := by
  intro hd
  subst hzr
  rcases hi.cover d z hd hz with ⟨e', he', hcov⟩ | ⟨-, hn⟩
  · cases Option.some.inj (hr.symm.trans he')
    rcases hcov with rfl | ⟨hwt, -⟩
    · exact hidle hd
    · exact hw hwt
  · rw [hr] at hn; cases hn

theorem Inv.start (hi : v.Inv) (hx : v.life c = some x) (hidle : v.pc (.worker c) = .idle)
    (hdone : v.pc (.handler c) = .done) (hr : v.cur x.runID = some e) (hctl : e.ctl = c)
    (hrun : y.runID = x.runID) (hs : y.state = .running) :
    ((v.setLife c y).move (.worker c) (.serving .idle) v.mus).Inv := by
  subst hctl
  have rest : ∀ d z, v.life d = some z → z.runID = x.runID → ¬ v.Busy d := fun d z hz hzr =>
    hi.rest hr (by simp [Busy, hidle, Pc.busy]) (by simp [hdone]) hz hzr
  have busy : ∀ d, ((v.setLife e.ctl y).move (.worker e.ctl) (.serving .idle) v.mus).Busy d → d ≠ e.ctl →
      v.Busy d := by
    intro d hd hne
    unfold Busy at hd
    rwa [move_pc_ne (by simpa using hne)] at hd
  have handler : ∀ d, ((v.setLife e.ctl y).move (.worker e.ctl) (.serving .idle) v.mus).pc (.handler d) =
      v.pc (.handler d) := fun d => move_pc_ne (by simp)
  have hl : ((v.setLife e.ctl y).move (.worker e.ctl) (.serving .idle) v.mus).Locks := by
    refine ⟨fun u => ?_, hi.gate.move (.keep (.inl rfl)), fun d hd => ?_, hi.shut⟩
    · by_cases hu : u = .worker e.ctl
      · subst hu; simp [Pc.fits]
      · rw [move_pc_ne hu]; exact hi.fits u
    · rw [handler]
      by_cases hde : d = e.ctl
      · subst hde; exact hdone
      · exact hi.ran d (by rwa [move_pc_ne (by simpa using hde)] at hd)
  have started : ∀ d, ((v.setLife e.ctl y).move (.worker e.ctl) (.serving .idle) v.mus).Busy d →
      ∀ z, (v.setLife e.ctl y).life d = some z → z.runID = y.runID → d = e.ctl := by
    intro d hd z hz hzr
    rcases setLife_cases hz with ⟨rfl, -⟩ | ⟨hne, hz⟩
    · rfl
    · exact absurd (busy d hd hne) (rest d z hz (hzr.trans hrun))
  exact {
    toLocks := hl
    entry := fun u e' hu => by
      by_cases hut : u = .worker e.ctl
      · subst hut; simp [Pc.entry] at hu
      · exact hi.entry u e' (by rwa [move_pc_ne hut] at hu)
    live := fun d hd => by
      by_cases hde : d = e.ctl
      · subst hde; exact ⟨y, setLife_life_self, .inl hs⟩
      · exact (hi.live d (busy d hd hde)).imp fun z hz => ⟨(setLife_life_ne hde).trans hz.1, hz.2⟩
    running := fun d z hz hzr => by
      rcases setLife_cases hz with ⟨rfl, rfl⟩ | ⟨hne, hz⟩
      · simp
      · rw [move_pc_ne (by simpa using hne)]; exact hi.running d z hz hzr
    closing := fun d z hz hzr => by
      rcases setLife_cases hz with ⟨rfl, rfl⟩ | ⟨hne, hz⟩
      · simp
      · rw [move_pc_ne (by simpa using hne)]; exact hi.closing d z hz hzr
    writing := fun d e' he' => by
      rw [handler] at he'
      have hne : d ≠ e.ctl := by rintro rfl; rw [hdone] at he'; cases he'
      exact (hi.writing d e' he').imp_right (.imp fun z hz => ⟨(setLife_life_ne hne).trans hz.1, hz.2⟩)
    entries := fun r e' he' => by
      obtain ⟨z, hz, hzr, hzs⟩ := hi.entries r e' he'
      by_cases hne : e'.ctl = e.ctl
      · rw [hne] at hz ⊢
        cases Option.some.inj (hx.symm.trans hz)
        exact ⟨y, setLife_life_self, hrun.trans hzr, by simp [hs]⟩
      · exact ⟨z, (setLife_life_ne hne).trans hz, hzr, hzs⟩
    pending := fun r e' z he' hcl hw hz => by
      rw [handler] at hw
      rcases setLife_cases hz with ⟨heq, -⟩ | ⟨-, hz⟩
      · rw [heq, hdone] at hw; cases hw
      · exact hi.pending r e' z he' hcl hw hz
    cover := fun d z hd hz => by
      rcases setLife_cases hz with ⟨rfl, rfl⟩ | ⟨hne, hz⟩
      · exact .inl ⟨e, hrun ▸ hr, .inl rfl⟩
      · refine (hi.cover d z (busy d hd hne) hz).imp (fun ⟨e', he', hcov⟩ => ⟨e', he', ?_⟩) id
        refine hcov.imp_right fun ⟨hw, w, hwl, hb⟩ => ⟨(handler _).trans hw, w, ?_, hb⟩
        exact (setLife_life_ne (by intro heq; rw [heq, hdone] at hw; cases hw)).trans hwl
    unique := fun d d' z z' hd hd' hz hz' hzr => by
      rcases setLife_cases hz with ⟨rfl, rfl⟩ | ⟨hne, hz⟩
      · exact (started d' hd' z' hz' hzr.symm).symm
      · rcases setLife_cases hz' with ⟨rfl, rfl⟩ | ⟨hne', hz'⟩
        · exact absurd (started d hd z (by rwa [setLife_life_ne hne]) hzr) hne
        · exact hi.unique d d' z z' (busy d hd hne) (busy d' hd' hne') hz hz' hzr }

/-! ## Changes of the entries -/

theorem Inv.shutdown (hi : v.Inv) : Inv { v with closed := true } where
  toLocks := { hi with shut := fun _ _ => rfl }
  entry := hi.entry
  live := hi.live
  running := hi.running
  closing := hi.closing
  writing := hi.writing
  entries := hi.entries
  pending _ _ _ _ h := by cases h
  cover c x hc hx := (hi.cover c x hc hx).imp_right fun h => ⟨rfl, h.2⟩
  unique := hi.unique

def setEntry (v : View) (r : Str) (e : Option EntryRef) : View := { v with cur := update v.cur r e }

@[simp] theorem setEntry_cur_self {e : Option EntryRef} : (v.setEntry r e).cur r = e := update_self ..

theorem setEntry_cur_ne {r' : Str} {e : Option EntryRef} (h : r' ≠ r) : (v.setEntry r e).cur r' = v.cur r' :=
  update_of_ne h ..

theorem Inv.drop (hi : v.Inv) (hr : v.cur r = some e) (gone : ∀ t, (v.pc t).entry ≠ some e)
    (rest : v.closed = true ∨ ∀ d z, v.life d = some z → z.runID = r → ¬ v.Busy d) : (v.setEntry r none).Inv := by
  have old : ∀ r' e', (v.setEntry r none).cur r' = some e' → v.cur r' = some e' := by
    intro r' e' he'
    by_cases hrr : r' = r
    · subst hrr; simp at he'
    · rwa [setEntry_cur_ne hrr] at he'
  exact {
    toLocks := { hi with }
    entry := fun t e' he' => by
      obtain ⟨r', hr'⟩ := hi.entry t e' he'
      refine ⟨r', (setEntry_cur_ne ?_).trans hr'⟩
      rintro rfl
      cases Option.some.inj (hr.symm.trans hr')
      exact gone t he'
    live := hi.live
    running := hi.running
    closing := hi.closing
    writing := hi.writing
    entries := fun r' e' he' => hi.entries r' e' (old r' e' he')
    pending := fun r' e' z he' => hi.pending r' e' z (old r' e' he')
    cover := fun d z hd hz => by
      by_cases hzr : z.runID = r
      · subst hzr
        rcases rest with h | h
        · exact .inr ⟨h, setEntry_cur_self⟩
        · exact absurd hd (h d z hz rfl)
      · rw [setEntry_cur_ne hzr]; exact hi.cover d z hd hz
    unique := hi.unique }

theorem Inv.makeCurrent {old : Option EntryRef} (hi : v.Inv) (hx : v.life c = some x) (hs : x.state = .created)
    (hp : v.pc (.handler c) = .addHeld old) (hr : v.cur x.runID = old) (hctl : e.ctl = c)
    (hrun : y.runID = x.runID) (hpend : y.state = .pending)
    (hbar : ∀ d z, v.Busy d → v.life d = some z → z.runID = x.runID → y.barrier = some d)
    (hm : MuMove Pc.gate (.handler c) (.addHeld old) .waiting v.mus mus) :
    (((v.setEntry x.runID (some e)).setLife c y).move (.handler c) .waiting mus).Inv := by
  subst hctl
  have hidle : v.pc (.worker e.ctl) = .idle := by
    by_contra h
    have := hi.ran _ h
    rw [hp] at this; cases this
  have hne : ∀ d, v.Busy d → d ≠ e.ctl := by rintro d hd rfl; simp [Busy, hidle, Pc.busy] at hd
  have ctl_ne : ∀ r' e', v.cur r' = some e' → e'.ctl ≠ e.ctl := by
    intro r' e' he' heq
    obtain ⟨z, hz, -, hzs⟩ := hi.entries r' e' he'
    rw [heq, hx] at hz; cases hz
    exact hzs hs
  have cur : ∀ r' e', (v.setEntry x.runID (some e)).cur r' = some e' →
      r' = x.runID ∧ e' = e ∨ r' ≠ x.runID ∧ v.cur r' = some e' := by
    intro r' e' he'
    by_cases hrr : r' = x.runID
    · subst hrr; exact .inl ⟨rfl, (Option.some.inj (setEntry_cur_self.symm.trans he')).symm⟩
    · exact .inr ⟨hrr, by rwa [setEntry_cur_ne hrr] at he'⟩
  have worker : ∀ d, (((v.setEntry x.runID (some e)).setLife e.ctl y).move (.handler e.ctl) .waiting mus).pc
      (.worker d) = v.pc (.worker d) := fun d => move_pc_ne (by simp)
  have handler : ∀ d, d ≠ e.ctl → (((v.setEntry x.runID (some e)).setLife e.ctl y).move (.handler e.ctl)
      .waiting mus).pc (.handler d) = v.pc (.handler d) := fun d hd => move_pc_ne (by simpa using hd)
  have busy : ∀ d, (((v.setEntry x.runID (some e)).setLife e.ctl y).move (.handler e.ctl) .waiting mus).Busy d →
      v.Busy d := fun d hd => by unfold Busy at hd ⊢; rwa [worker] at hd
  have life : ∀ d z, v.Busy d → (v.setLife e.ctl y).life d = some z → v.life d = some z := by
    intro d z hd hz
    rcases setLife_cases hz with ⟨heq, -⟩ | ⟨-, hz⟩
    · exact absurd heq (hne d hd)
    · exact hz
  have hl : (((v.setEntry x.runID (some e)).setLife e.ctl y).move (.handler e.ctl) .waiting mus).Locks := by
    have hl : ((v.setEntry x.runID (some e)).setLife e.ctl y).Locks := { hi with }
    exact hl.move hp hm rfl (by simp) (by simp) (by simp)
  exact {
    toLocks := hl
    entry := fun u e' hu => by
      have hut : u ≠ .handler e.ctl := by rintro rfl; simp [Pc.entry] at hu
      rw [move_pc_ne hut] at hu
      obtain ⟨r', hr'⟩ := hi.entry u e' hu
      refine ⟨r', (setEntry_cur_ne ?_).trans hr'⟩
      -- the lock of the entry that goes is held by the handler
      rintro rfl
      rw [hr] at hr'
      exact hut (hi.gate.exclusive (Pc.gate_of_entry hu) (by simp [hp, hr', Pc.gate]))
    live := fun d hd => (hi.live d (busy d hd)).imp fun z hz =>
      ⟨(setLife_life_ne (hne d (busy d hd))).trans hz.1, hz.2⟩
    running := fun d z hz hzr => by
      rw [worker]
      rcases setLife_cases hz with ⟨-, rfl⟩ | ⟨-, hz⟩
      · rw [hpend] at hzr; cases hzr
      · exact hi.running d z hz hzr
    closing := fun d z hz hzr => by
      rw [worker]
      rcases setLife_cases hz with ⟨-, rfl⟩ | ⟨-, hz⟩
      · rw [hpend] at hzr; cases hzr
      · exact hi.closing d z hz hzr
    writing := fun d e' he' => by
      have hd : d ≠ e.ctl := by rintro rfl; simp at he'
      rw [handler d hd] at he'
      exact (hi.writing d e' he').imp_right (.imp fun z hz => ⟨(setLife_life_ne hd).trans hz.1, hz.2⟩)
    entries := fun r' e' he' => by
      rcases cur r' e' he' with ⟨rfl, rfl⟩ | ⟨-, he'⟩
      · exact ⟨y, setLife_life_self, hrun, by simp [hpend]⟩
      · exact (hi.entries r' e' he').imp fun z hz => ⟨(setLife_life_ne (ctl_ne r' e' he')).trans hz.1, hz.2⟩
    pending := fun r' e' z he' hcl hw hz => by
      rcases cur r' e' he' with ⟨rfl, rfl⟩ | ⟨-, he'⟩
      · cases Option.some.inj (setLife_life_self.symm.trans hz)
        exact hpend
      · have hd := ctl_ne r' e' he'
        rw [handler _ hd] at hw
        exact hi.pending r' e' z he' hcl hw ((setLife_life_ne hd).symm.trans hz)
    cover := fun d z hd hz => by
      have hdv := busy d hd
      have hz' := life d z hdv hz
      by_cases hzr : z.runID = x.runID
      · exact .inl ⟨e, hzr ▸ setEntry_cur_self, .inr ⟨move_pc_self, y, setLife_life_self, hbar d z hdv hz' hzr⟩⟩
      · refine (hi.cover d z hdv hz').imp (fun ⟨e', he', hcov⟩ => ⟨e', (setEntry_cur_ne hzr).trans he', ?_⟩)
          fun h => ⟨h.1, (setEntry_cur_ne hzr).trans h.2⟩
        have hde := ctl_ne _ e' he'
        exact hcov.imp_right fun ⟨hw, w, hwl, hb⟩ => ⟨(handler _ hde).trans hw, w, (setLife_life_ne hde).trans hwl, hb⟩
    unique := fun d d' z z' hd hd' hz hz' =>
      hi.unique d d' z z' (busy d hd) (busy d' hd') (life d z (busy d hd) hz) (life d' z' (busy d' hd') hz') }

theorem markReplaced_life (z : Control) (d : Nat) : ∃ st, (z.markReplaced d).1.life = ⟨z.runID, st, z.handoffBarrier⟩ ∧
    (st = .closing ∧ (z.state = .running ∨ z.state = .closing) ∨
      st = .closed ∧ z.state ≠ .running ∧ z.state ≠ .closing) := by
  unfold Control.markReplaced
  cases hs : z.state <;> simp [Control.life, hs]

theorem Inv.markReplaced_barrier {w : Life} (hi : v.Inv) (hopen : v.closed = false)
    (hr : v.cur r = some e) (hz : v.life e.ctl = some z.life) (hd : v.Busy d) (hw : v.life d = some w)
    (hwr : w.runID = r) : (z.markReplaced e.ctl).2 = some d := by
  subst hwr
  rcases hi.cover d w hd hw with ⟨e', he', hcov⟩ | ⟨hcl, -⟩
  · cases Option.some.inj (hr.symm.trans he')
    rcases hcov with rfl | ⟨hwt, z', hz', hb⟩
    · obtain ⟨z', hz', hst⟩ := hi.live _ hd
      cases Option.some.inj (hz.symm.trans hz')
      unfold Control.markReplaced
      rcases hst with h | h <;> simp [show z.state = _ from h]
    · cases Option.some.inj (hz.symm.trans hz')
      have hp : z.state = .pending := hi.pending _ e _ hr hopen hwt hz
      unfold Control.markReplaced
      simpa [hp, Control.life] using hb
  · rw [hopen] at hcl; cases hcl

theorem Inv.replace {g : EntryRef} (hi : v.Inv) (hx : v.life c = some x) (hs : x.state = .created)
    (hp : v.pc (.handler c) = .addHeld (some e)) (hr : v.cur x.runID = some e) (hopen : v.closed = false)
    (hz : v.life e.ctl = some z.life) (free : ∀ f, v.pc (.handler e.ctl) ≠ .writing f) (hctl : g.ctl = c)
    (hrun : y.runID = x.runID) (hpend : y.state = .pending) (hbar : y.barrier = (z.markReplaced e.ctl).2)
    (hm : MuMove Pc.gate (.handler c) (.addHeld (some e)) .waiting v.mus mus) (hne : e.ctl ≠ c) :
    ((((v.setLife e.ctl (z.markReplaced e.ctl).1.life).setLife c y).setEntry x.runID (some g)).move
      (.handler c) .waiting mus).Inv := by
  have hzr : z.runID = x.runID := by
    obtain ⟨w, hw, hwr, -⟩ := hi.entries _ e hr
    cases Option.some.inj (hz.symm.trans hw)
    exact hwr
  have h1 := hi.makeCurrent hx hs hp hr hctl hrun hpend
    (fun d w hd hw hwr => hbar.trans (hi.markReplaced_barrier hopen hr hz hd hw hwr)) hm
  obtain ⟨st, hl, hst⟩ := markReplaced_life z e.ctl
  rw [setLife_comm hne, hl]
  refine h1.setLife
    ((setLife_life_ne hne).trans hz) rfl rfl ?_ ?_ ?_ ?_ ?_ ?_
  · intro hb
    obtain ⟨w, hw, hws⟩ := h1.live _ hb
    cases Option.some.inj (hw.symm.trans ((setLife_life_ne hne).trans hz))
    rcases hst with ⟨h, -⟩ | ⟨-, h2, h3⟩
    · exact .inr h
    · exact hws.elim (fun h => absurd h h2) fun h => absurd h h3
  · rcases hst with ⟨h, -⟩ | ⟨h, -⟩ <;> simp [h]
  · intro hcl hidle
    have hst : z.state = .running ∨ z.state = .closing := by
      rcases hst with ⟨-, h⟩ | ⟨h, -⟩
      · exact h
      · rw [show st = .closing from hcl] at h; cases h
    rw [move_pc_ne (by simp)] at hidle
    rcases hst with h | h
    · have := hi.running _ _ hz h
      rw [show v.pc _ = _ from hidle] at this; cases this
    · exact hi.closing _ _ hz h hidle
  · intro f hf
    rw [move_pc_ne (by simpa using hne)] at hf; exact absurd hf (free f)
  · rcases hst with ⟨h, -⟩ | ⟨h, -⟩ <;> simp [h]
  · -- the replaced control is no longer current
    intro r' f hf hfe _
    by_cases hrr : r' = x.runID
    · subst hrr
      cases Option.some.inj (setEntry_cur_self.symm.trans hf)
      exact absurd (hfe.symm.trans hctl) hne
    · obtain ⟨w, hw, hwr, -⟩ := hi.entries r' f ((setEntry_cur_ne hrr).symm.trans hf)
      rw [hfe, hz] at hw; cases hw
      exact absurd (hwr.symm.trans hzr) hrr

end View

end Frp
