import Frp.XudpProxyInv

/-!
# The calls of the XUDP proxy and their lifecycles

The closers of a lifecycle run once, whoever stops it first. A call that returns has closed
its connection, unless `Close` is about to run the closer for it.
-/

namespace Frp

open Function

/-! ## One call -/

namespace InWorkPc

def todo : InWorkPc → List XudpRes
  | setup _ _ todo | late _ _ _ todo => todo
  | _ => []

def lateCloser : InWorkPc → List XudpRes
  | late _ _ r _ => [r]
  | _ => []

def before : InWorkPc → Bool
  | returned => false
  | q => !q.counted

def joins : InWorkPc → Bool
  | joining _ => true
  | _ => false

def stops : InWorkPc → Bool
  | stopping _ => true
  | _ => false

def gone : InWorkPc → Bool
  | removing _ | done _ => true
  | _ => false

end InWorkPc

theorem XudpRole.closers_nodup (role : XudpRole) : role.closers.Nodup := by
  cases role <;> decide

theorem XudpRole.conn_mem_closers (role : XudpRole) : .conn ∈ role.closers := by
  cases role <;> decide

def XudpClosePc.stops : XudpClosePc → Option Nat
  | stopping i _ => some i
  | _ => none

structure CallOk (q : InWorkPc) (lc : XudpLifecycle) (ws : List XudpWorkerPc) (closed : Bool) (b : Prop) : Prop where
  ok : lc.Ok
  nodup : (lc.registered ++ q.todo).Nodup
  conn : q.counted = true → .conn ∈ lc.registered ++ q.todo
  late : lc.late = q.lateCloser
  ranConn : .conn ∈ lc.ran → closed = true
  main : q.stops = true ↔ ∃ l, lc.phase = .running .main l
  worker : ∀ w : Nat, ws[w]? = some .stopping ↔ ∃ l, lc.phase = .running (.worker w) l
  close : b ↔ ∃ l, lc.phase = .running .close l
  ended : q.joins = false → ∀ w ∈ ws, w = .ended
  before : q.before = true → lc = {} ∧ ws = []
  gone : q.gone = true → lc.phase = .stopped ∨ ∃ l, lc.phase = .running .close l
  returned : q = .returned → closed = true ∨ ∃ l, lc.phase = .running .close l ∧ .conn ∈ l

namespace CallOk

variable {p q : InWorkPc} {lc : XudpLifecycle} {ws : List XudpWorkerPc} {closed closed' : Bool} {b : Prop}
  {id w : Nat} {role : XudpRole} {r : XudpRes} {todo : List XudpRes}

section
variable (h : CallOk p lc ws closed b)
include h

theorem move_before (hp : p.before = true) (htodo : q.todo.Nodup)
    (hconn : q.counted = true → .conn ∈ q.todo) (hlate : q.lateCloser = []) (hstop : q.stops = false)
    (hgone : q.gone = false) (hret : q = .returned → closed' = true) : CallOk q {} [] closed' b := by
  obtain ⟨rfl, rfl⟩ := h.before hp
  refine ⟨.new, htodo, hconn, hlate.symm, nofun, ?_, fun w => ?_, h.close, nofun, fun _ => ⟨rfl, rfl⟩, ?_,
    fun h => .inl (hret h)⟩
  · exact iff_of_false (by simp [hstop]) nofun
  · exact iff_of_false (by simp) nofun
  · rw [hgone]
    nofun

theorem move_unpromoted (hp : p.before = true)
    (hq : q.before = true ∨ q = .returned ∧ closed' = true) : CallOk q {} [] closed' b := by
  have hsimple : q.todo = [] ∧ q.counted = false ∧ q.lateCloser = [] ∧ q.stops = false ∧ q.gone = false ∧
      (q = .returned → closed' = true) := by
    rcases hq with hq | ⟨rfl, hc⟩
    · cases q <;> first | (cases hq; done) | exact ⟨rfl, rfl, rfl, rfl, rfl, nofun⟩
    · exact ⟨rfl, rfl, rfl, rfl, rfl, fun _ => hc⟩
  obtain ⟨h1, h2, h3, h4, h5, h6⟩ := hsimple
  refine h.move_before hp (h1 ▸ List.nodup_nil) (fun hc => ?_) h3 h4 h5 h6
  rw [h2] at hc; cases hc

/-! ### Registration -/

theorem ran_append (hmono : closed = true → closed' = true)
    (hr : r = .conn → closed' = true) (hm : .conn ∈ lc.ran ++ [r]) : closed' = true := by
  rcases List.mem_append.mp hm with hm | hm
  · exact hmono (h.ranConn hm)
  · exact hr (List.mem_singleton.mp hm).symm

theorem move (hp : p.counted = true) (hq : q.counted = true)
    (htodo : q.todo.Sublist p.todo) (hconn : .conn ∈ p.todo → .conn ∈ q.todo) (hlate : q.lateCloser = p.lateCloser)
    (hstop : q.stops = p.stops) (hended : ∀ w ∈ ws, w = .ended)
    (hgone : q.gone = false ∨ lc.phase = .stopped ∨ ∃ l, lc.phase = .running .close l) : CallOk q lc ws closed b := by
  refine ⟨h.ok, ?_, fun _ => ?_, h.late.trans hlate.symm, h.ranConn, hstop ▸ h.main, h.worker, h.close, fun _ => hended,
    ?_, fun hg => hgone.resolve_left (by rw [hg]; decide), ?_⟩
  · exact h.nodup.sublist (List.Sublist.append (.refl _) htodo)
  · rcases List.mem_append.mp (h.conn hp) with hm | hm
    · exact List.mem_append.mpr (.inl hm)
    · exact List.mem_append.mpr (.inr (hconn hm))
  · intro hb
    cases q <;> simp_all [InWorkPc.before]
  · rintro rfl; cases hq

theorem worker_not_running (hended : ∀ w ∈ ws, w = .ended) (w : Nat) (l : List XudpRes) :
    lc.phase ≠ .running (.worker w) l := by
  intro hp
  have hw := (h.worker w).mpr ⟨l, hp⟩
  cases hended _ (List.mem_of_getElem? hw)

theorem joining_of_worker {x : XudpWorkerPc} (hw : ws[w]? = some x) (hx : x ≠ .ended) : ∃ id, p = .joining id := by
  cases p with
  | joining id => exact ⟨id, rfl⟩
  | _ => exact absurd (h.ended rfl x (List.mem_of_getElem? hw)) hx

theorem of_going (hp : lc.phase = .going) : p.stops = false ∧ (∀ w : Nat, ws[w]? ≠ some .stopping) ∧ ¬ b := by
  refine ⟨?_, fun w hw => ?_, fun hb => ?_⟩
  · by_contra hs
    obtain ⟨l, hl⟩ := h.main.mp (by simpa using hs)
    rw [hp] at hl; cases hl
  · obtain ⟨l, hl⟩ := (h.worker w).mp hw
    rw [hp] at hl; cases hl
  · obtain ⟨l, hl⟩ := h.close.mp hb
    rw [hp] at hl; cases hl

theorem stopClose (hp : lc.phase = .going) (hbefore : p.before = false) {b' : Prop}
    (hb' : b') : CallOk p (lc.stopBy .close) ws closed b' := by
  obtain ⟨hs, hno, -⟩ := h.of_going hp
  refine ⟨h.ok.stopBy hp, h.nodup, h.conn, h.late, h.ranConn, iff_of_false (by simp [hs]) nofun,
    fun w => iff_of_false (hno w) nofun, iff_of_true hb' ⟨_, rfl⟩, h.ended, ?_, fun _ => .inr ⟨_, rfl⟩,
      fun hq => .inl ?_⟩
  · rw [hbefore]
    nofun
  · rcases h.returned hq with hc | ⟨l, hl, -⟩
    · exact hc
    · rw [hp] at hl; cases hl

theorem run {t : StopBy} {l : List XudpRes}
    (hp : lc.phase = .running t (r :: l)) (hmono : closed = true → closed' = true) (hr : r = .conn → closed' = true) :
    CallOk p (lc.run t r l) ws closed' b := by
  have hphase : ∀ u, (∃ l', lc.phase = .running u l') ↔ ∃ l', (lc.run t r l).phase = .running u l' := by
    intro u
    rw [hp]
    constructor <;> rintro ⟨l', hl⟩ <;> cases hl <;> exact ⟨_, rfl⟩
  refine ⟨h.ok.run hp, h.nodup, h.conn, h.late, h.ran_append hmono hr, h.main.trans (hphase _),
    fun w => (h.worker w).trans (hphase _), h.close.trans (hphase _), h.ended, fun hb => ?_, fun hg => ?_, fun hq => ?_⟩
  · rw [(h.before hb).1] at hp; cases hp
  · rcases h.gone hg with hst | hcl
    · rw [hp] at hst; cases hst
    · exact .inr ((hphase _).mp hcl)
  · rcases h.returned hq with hc | ⟨l', hl, hm⟩
    · exact .inl (hmono hc)
    · rw [hp] at hl; cases hl
      rcases List.mem_cons.mp hm with hm | hm
      · exact .inl (hr hm.symm)
      · exact .inr ⟨l, rfl, hm⟩

theorem finishClose (hp : lc.phase = .running .close []) {b' : Prop} (hb' : ¬ b') :
    CallOk p lc.finish ws closed b' := by
  refine ⟨h.ok.finish hp, h.nodup, h.conn, h.late, h.ranConn, ?_, fun w => ?_, iff_of_false hb' nofun, h.ended,
    fun hb => ?_, fun _ => .inl rfl, fun hq => .inl ?_⟩
  · refine h.main.trans ?_
    rw [hp]; exact iff_of_false nofun nofun
  · refine (h.worker w).trans ?_
    rw [hp]; exact iff_of_false nofun nofun
  · rw [(h.before hb).1] at hp; cases hp
  · rcases h.returned hq with hc | ⟨l, hl, hm⟩
    · exact hc
    · rw [hp] at hl; cases hl
      cases hm

theorem gone_of_stopped (hp : lc.phase ≠ .going) (hs : p.stops = false)
    (hended : ∀ w ∈ ws, w = .ended) : lc.phase = .stopped ∨ ∃ l, lc.phase = .running .close l := by
  cases hph : lc.phase with
  | going => exact absurd hph hp
  | stopped => exact .inl rfl
  | running t l =>
    cases t with
    | close => exact .inr ⟨l, rfl⟩
    | worker w => exact absurd hph (h.worker_not_running hended w l)
    | main => rw [h.main.mpr ⟨l, hph⟩] at hs; cases hs

theorem closeConn : CallOk p lc ws true b :=
  { h with ranConn := fun _ => rfl, returned := fun _ => .inl rfl }

end

theorem add (h : CallOk (.setup id role (r :: todo)) lc ws closed b) (hp : lc.phase = .going) :
    CallOk (.setup id role todo) (lc.add r) ws closed b := by
  have hlist : (lc.add r).registered ++ todo = lc.registered ++ (r :: todo) := List.append_cons .. |>.symm
  exact ⟨h.ok.add hp, hlist ▸ h.nodup, fun _ => hlist ▸ h.conn rfl, h.late, h.ranConn, h.main, h.worker, h.close,
    h.ended, nofun, nofun, nofun⟩

theorem addLate (h : CallOk (.setup id role (r :: todo)) lc ws closed b) (hp : lc.phase ≠ .going) :
    CallOk (.late id role r todo) (lc.addLate r) ws closed b := by
  have hlist : (lc.addLate r).registered ++ todo = lc.registered ++ (r :: todo) := List.append_cons .. |>.symm
  exact ⟨h.ok.addLate hp, hlist ▸ h.nodup, fun _ => hlist ▸ h.conn rfl, congrArg (· ++ [r]) h.late, h.ranConn, h.main,
    h.worker, h.close, h.ended, nofun, nofun, nofun⟩

theorem runLate (h : CallOk (.late id role r todo) lc ws closed b) (hmono : closed = true → closed' = true)
    (hr : r = .conn → closed' = true) : CallOk (.setup id role todo) (lc.runLate r) ws closed' b := by
  have hlate : lc.late = [r] := h.late
  exact ⟨h.ok.runLate hlate, h.nodup, fun _ => h.conn rfl, congrArg List.tail hlate, h.ran_append hmono hr, h.main,
    h.worker, h.close, h.ended, nofun, nofun, nofun⟩

/-! ### Workers -/

theorem spawn (h : CallOk (.setup id role []) lc ws closed b) (n : Nat) :
    CallOk (.joining id) lc (List.replicate n .running) closed b := by
  refine ⟨h.ok, h.nodup, fun _ => h.conn rfl, h.late, h.ranConn, h.main, fun w => ?_, h.close, nofun, nofun, nofun,
    nofun⟩
  refine iff_of_false (fun hw => ?_) fun ⟨l, hl⟩ => h.worker_not_running (h.ended rfl) w l hl
  have := List.eq_of_mem_replicate (List.mem_of_getElem? hw)
  cases this

/-! ### Stopping -/

theorem stopMain (h : CallOk (.finishActive id) lc ws closed b) (hp : lc.phase = .going) :
    CallOk (.stopping id) (lc.stopBy .main) ws closed b := by
  obtain ⟨-, hw, hb⟩ := h.of_going hp
  exact ⟨h.ok.stopBy hp, h.nodup, fun _ => h.conn rfl, h.late, h.ranConn, iff_of_true rfl ⟨_, rfl⟩,
    fun w => iff_of_false (hw w) nofun, iff_of_false hb nofun, fun _ => h.ended rfl, nofun, nofun, nofun⟩

theorem stopWorker (h : CallOk (.joining id) lc ws closed b) (hp : lc.phase = .going)
    (hw : w < ws.length) : CallOk (.joining id) (lc.stopBy (.worker w)) (ws.set w .stopping) closed b := by
  obtain ⟨-, hno, hb⟩ := h.of_going hp
  refine ⟨h.ok.stopBy hp, h.nodup, fun _ => h.conn rfl, h.late, h.ranConn, iff_of_false nofun nofun, fun x => ?_,
    iff_of_false hb nofun, nofun, nofun, nofun, nofun⟩
  by_cases hx : x = w
  · subst hx; exact iff_of_true (List.getElem?_set_self hw) ⟨_, rfl⟩
  · rw [List.getElem?_set_ne (Ne.symm hx)]
    refine iff_of_false (hno x) fun ⟨l, hl⟩ => ?_
    cases hl; exact hx rfl

theorem finishMain (h : CallOk (.stopping id) lc ws closed b) (hp : lc.phase = .running .main []) :
    CallOk (.removing id) lc.finish ws closed b := by
  refine ⟨h.ok.finish hp, h.nodup, fun _ => h.conn rfl, h.late, h.ranConn, iff_of_false nofun nofun, fun w => ?_, ?_,
    fun _ => h.ended rfl, nofun, fun _ => .inl rfl, nofun⟩
  · refine (h.worker w).trans ?_
    rw [hp]; exact iff_of_false nofun nofun
  · refine h.close.trans ?_
    rw [hp]; exact iff_of_false nofun nofun

theorem endWorker (h : CallOk (.joining id) lc ws closed b)
    (hw : ws[w]? = some .running) : CallOk (.joining id) lc (ws.set w .ended) closed b := by
  refine ⟨h.ok, h.nodup, fun _ => h.conn rfl, h.late, h.ranConn, h.main, fun x => ?_, h.close, nofun, nofun, nofun,
    nofun⟩
  rw [← h.worker x]
  by_cases hx : x = w
  · subst hx
    rw [List.getElem?_set_self (List.getElem?_eq_some_iff.mp hw).1, hw]
    exact iff_of_false nofun nofun
  · rw [List.getElem?_set_ne (Ne.symm hx)]

theorem finishWorker (h : CallOk (.joining id) lc ws closed b) (hp : lc.phase = .running (.worker w) [])
    (hw : w < ws.length) : CallOk (.joining id) lc.finish (ws.set w .ended) closed b := by
  refine ⟨h.ok.finish hp, h.nodup, fun _ => h.conn rfl, h.late, h.ranConn, iff_of_false nofun nofun, fun x => ?_, ?_,
    nofun, nofun, nofun, nofun⟩
  · by_cases hx : x = w
    · subst hx
      rw [List.getElem?_set_self hw]; exact iff_of_false nofun nofun
    · rw [List.getElem?_set_ne (Ne.symm hx)]
      refine iff_of_false (fun hs => ?_) nofun
      obtain ⟨l, hl⟩ := (h.worker x).mp hs
      rw [hp] at hl; cases hl
      exact hx rfl
  · refine h.close.trans ?_
    rw [hp]; exact iff_of_false nofun nofun

theorem leave (h : CallOk (.done id) lc ws closed b) : CallOk .returned lc ws closed b := by
  have hgone := h.gone rfl
  have hne : lc.phase ≠ .going := by
    rcases hgone with hp | ⟨l, hp⟩ <;> rw [hp] <;> nofun
  have hconn : .conn ∈ lc.registered := by simpa [InWorkPc.todo] using h.conn rfl
  refine ⟨h.ok, h.nodup, nofun, h.late, h.ranConn, h.main, h.worker, h.close, fun _ => h.ended rfl, nofun, nofun,
    fun _ => ?_⟩
  rcases h.ok.mem_registered hne hconn with hm | hm | hm
  · rcases hgone with hp | ⟨l, hp⟩ <;> rw [Closers.todo, hp] at hm
    · cases hm
    · exact .inr ⟨l, hp, hm⟩
  · rw [h.late] at hm; cases hm
  · exact .inl (h.ranConn hm)

end CallOk

/-! ## All calls -/

namespace XudpProxy

variable {s t : XudpProxy}

def CallsOk (s : XudpProxy) : Prop :=
  ∀ i, CallOk (s.pc i) (s.lc i) (s.workers i) (s.connClosed i) (s.close.stops = some i)

structure CallFrame (i : Nat) (s t : XudpProxy) : Prop where
  pc : ∀ j, j ≠ i → t.pc j = s.pc j
  lc : ∀ j, j ≠ i → t.lc j = s.lc j
  workers : ∀ j, j ≠ i → t.workers j = s.workers j
  conn : ∀ j, j ≠ i → t.connClosed j = s.connClosed j
  stops : ∀ j, j ≠ i → (t.close.stops = some j ↔ s.close.stops = some j)

namespace CallFrame

variable {i : Nat}

theorem refl : CallFrame i s s := ⟨fun _ _ => rfl, fun _ _ => rfl, fun _ _ => rfl, fun _ _ => rfl, fun _ _ => Iff.rfl⟩

variable (h : CallFrame i s t)
include h

theorem goto (q : InWorkPc) : CallFrame i s (t.goto i q) :=
  { h with pc := fun j hj => (update_of_ne hj ..).trans (h.pc j hj) }

theorem setLc (lc : XudpLifecycle) : CallFrame i s (t.setLc i lc) :=
  { h with lc := fun j hj => (update_of_ne hj ..).trans (h.lc j hj) }

theorem setWorkers (ws : List XudpWorkerPc) : CallFrame i s (t.setWorkers i ws) :=
  { h with workers := fun j hj => (update_of_ne hj ..).trans (h.workers j hj) }

theorem closeConn : CallFrame i s (t.closeConn i) :=
  { h with conn := fun j hj => (update_of_ne hj ..).trans (h.conn j hj) }

theorem closeRes (r : XudpRes) : CallFrame i s (t.closeRes i r) := by
  cases r <;> first | exact h.closeConn | exact h

theorem setClose {c : XudpClosePc}
    (hc : ∀ j, j ≠ i → (c.stops = some j ↔ s.close.stops = some j)) : CallFrame i s { t with close := c } :=
  { h with stops := hc }

end CallFrame

theorem CallsOk.of_frame {i : Nat} (h : s.CallsOk) (hf : CallFrame i s t)
    (hi : CallOk (t.pc i) (t.lc i) (t.workers i) (t.connClosed i) (t.close.stops = some i)) : t.CallsOk := by
  intro j
  by_cases hj : j = i
  · rw [hj]; exact hi
  · rw [hf.pc j hj, hf.lc j hj, hf.workers j hj, hf.conn j hj, hf.stops j hj]; exact h j

theorem closeRes_fields (s : XudpProxy) (i : Nat) (r : XudpRes) :
    (s.closeRes i r).pc = s.pc ∧ (s.closeRes i r).lc = s.lc ∧ (s.closeRes i r).workers = s.workers ∧
      (s.closeRes i r).close = s.close ∧ (s.connClosed i = true → (s.closeRes i r).connClosed i = true) ∧
      (r = .conn → (s.closeRes i r).connClosed i = true) := by
  cases r <;> simp [XudpProxy.closeRes, XudpProxy.closeConn]

end XudpProxy

def XudpClosePc.actives : XudpClosePc → List Nat
  | pending _ l | active l => l
  | stopping i l => i :: l
  | _ => []

namespace XudpProxy.CallsOk

variable {s t : XudpProxy} {i : Nat} {p q : InWorkPc}

variable (h : s.CallsOk)
include h

theorem unpromoted (hp : s.pc i = p) (hpb : p.before = true)
    (hf : CallFrame i s t) (hsame : t.lc = s.lc ∧ t.workers = s.workers ∧ t.close = s.close)
    (hq : q.before = true ∨ q = .returned ∧ t.connClosed i = true) : (t.goto i q).CallsOk := by
  have hi := h i
  rw [hp] at hi
  obtain ⟨hlc, hws⟩ := hi.before hpb
  refine h.of_frame (hf.goto q) ?_
  simp only [goto, update_self, hsame, hlc, hws]; exact hi.move_unpromoted hpb hq

variable {lc : XudpLifecycle}

theorem step {ws : List XudpWorkerPc} (hp : s.pc i = p)
    (hf : CallFrame i s t) (ht : t.pc i = q ∧ t.lc i = lc ∧ t.workers i = ws)
    (hsame : t.connClosed = s.connClosed ∧ t.close = s.close)
    (hi : ∀ {closed b}, CallOk p (s.lc i) (s.workers i) closed b → CallOk q lc ws closed b) : t.CallsOk := by
  refine h.of_frame hf ?_
  rw [ht.1, ht.2.1, ht.2.2, hsame.1, hsame.2]; exact hi (hp ▸ h i)

theorem move (hp : s.pc i = p)
    (hi : ∀ {closed b}, CallOk p (s.lc i) (s.workers i) closed b → CallOk q (s.lc i) (s.workers i) closed b) :
    (s.goto i q).CallsOk :=
  h.step hp (CallFrame.refl.goto q) ⟨update_self .., rfl, rfl⟩ ⟨rfl, rfl⟩ hi

theorem moveLc (hp : s.pc i = p)
    (hi : ∀ {closed b}, CallOk p (s.lc i) (s.workers i) closed b → CallOk q lc (s.workers i) closed b) :
    ((s.setLc i lc).goto i q).CallsOk :=
  h.step hp ((CallFrame.refl.setLc lc).goto q) ⟨update_self .., update_self .., rfl⟩ ⟨rfl, rfl⟩ hi

theorem keep (hsame : t.pc = s.pc ∧ t.lc = s.lc ∧ t.workers = s.workers ∧ t.connClosed = s.connClosed)
    (hstops : t.close.stops = s.close.stops) : t.CallsOk := by
  intro i
  rw [hsame.1, hsame.2.1, hsame.2.2.1, hsame.2.2.2, hstops]; exact h i

theorem run {b : StopBy} {r : XudpRes} {l : List XudpRes}
    (hp : (s.lc i).phase = .running b (r :: l)) : ((s.closeRes i r).setLc i ((s.lc i).run b r l)).CallsOk := by
  obtain ⟨h1, h2, h3, h4, h5, h6⟩ := s.closeRes_fields i r
  refine h.of_frame ((CallFrame.refl.closeRes r).setLc _) ?_
  simp only [setLc, update_self, h1, h3, h4]; exact (h i).run hp h5 h6

end XudpProxy.CallsOk

open XudpProxy in
theorem XudpStep.callsOk {s t : XudpProxy} {e : XudpEvent} (hst : XudpStep s e t) (h : s.CallsOk)
    (hact : ∀ i ∈ s.close.actives, (s.pc i).before = false) : t.CallsOk := by
  cases hst with
  | call hp | refuse hp | classifyFails id hp | relay id hp | p2p id hp | sidFails id hp | sid id hp
  | prepareFails id hp
  | prepare id hp | dropListenConn id hp => exact h.unpromoted hp rfl .refl ⟨rfl, rfl, rfl⟩ (.inl rfl)
  | promoteMissing id role hp =>
    exact h.unpromoted hp rfl .refl ⟨rfl, rfl, rfl⟩ (.inl (by cases role <;> rfl))
  | register hp | finishPending id hp =>
    exact h.unpromoted hp rfl ⟨fun _ _ => rfl, fun _ _ => rfl, fun _ _ => rfl, fun _ _ => rfl, fun _ _ => Iff.rfl⟩
      ⟨rfl, rfl, rfl⟩ (.inl rfl)
  | promoteClosed id role hp =>
    exact h.unpromoted hp rfl ⟨fun _ _ => rfl, fun _ _ => rfl, fun _ _ => rfl, fun _ _ => rfl, fun _ _ => Iff.rfl⟩
      ⟨rfl, rfl, rfl⟩ (.inl (by cases role <;> rfl))
  | closeRefused hp | closeConn hp =>
    exact h.unpromoted hp rfl CallFrame.refl.closeConn ⟨rfl, rfl, rfl⟩ (.inr ⟨rfl, update_self ..⟩)
  | @promote i id role hp =>
    have hf : CallFrame i s (s.activate id i) :=
      ⟨fun _ _ => rfl, fun _ _ => rfl, fun _ _ => rfl, fun _ _ => rfl, fun _ _ => Iff.rfl⟩
    have hws : s.workers i = [] := ((h i).before (hp ▸ rfl)).2
    refine h.step hp ((hf.setLc _).goto _) ⟨update_self .., update_self .., hws⟩ ⟨rfl, rfl⟩ fun hi => ?_
    exact hi.move_before rfl role.closers_nodup (fun _ => role.conn_mem_closers) rfl rfl rfl (by simp)
  | addCloser id role r todo hp hph => exact h.moveLc hp fun hi => hi.add hph
  | addStopped id role r todo hp hph => exact h.moveLc hp fun hi => hi.addLate hph
  | @runLate i id role r todo hp =>
    have hi := h i
    rw [hp] at hi
    obtain ⟨h1, h2, h3, h4, h5, h6⟩ := s.closeRes_fields i r
    refine h.of_frame (((CallFrame.refl.closeRes r).setLc _).goto _) ?_
    simp only [goto, setLc, update_self, h3, h4]; exact hi.runLate h5 h6
  | sameSocket id role todo hp =>
    exact h.move hp fun hi => hi.move rfl rfl (List.sublist_cons_self _ _) (by simp [InWorkPc.todo]) rfl rfl
      (hi.ended rfl) (.inl rfl)
  | setupFails id role todo hp hconn =>
    exact h.move hp fun hi => hi.move rfl rfl (List.nil_sublist _) (fun hm => absurd hm hconn) rfl rfl (hi.ended rfl)
      (.inl rfl)
  | spawn id role hp =>
    exact h.step hp ((CallFrame.refl.setWorkers _).goto _) ⟨update_self .., rfl, update_self ..⟩
      ⟨rfl, rfl⟩ fun hi => hi.spawn role.workers
  | join id hp hended =>
    exact h.move hp fun hi => hi.move rfl rfl (.refl _) (fun h => h) rfl rfl hended (.inl rfl)
  | stop id hp hph => exact h.moveLc hp fun hi => hi.stopMain hph
  | stopAgain id hp hph =>
    exact h.move hp fun hi => hi.move rfl rfl (.refl _) (fun h => h) rfl rfl (hi.ended rfl)
      (.inr (hi.gone_of_stopped hph rfl (hi.ended rfl)))
  | runCloser id r todo _ hph | workerCloser w r todo _ hph | activeCloser i active r todo _ hph => exact h.run hph
  | stopped id hp hph => exact h.moveLc hp fun hi => hi.finishMain hph
  | @deleteActive i id hp =>
    have hf : CallFrame i s (s.deleteActive id i) :=
      ⟨fun _ _ => rfl, fun _ _ => rfl, fun _ _ => rfl, fun _ _ => rfl, fun _ _ => Iff.rfl⟩
    exact h.step hp (hf.goto _) ⟨update_self .., rfl, rfl⟩ ⟨rfl, rfl⟩ fun hi =>
      hi.move rfl rfl (.refl _) (fun h => h) rfl rfl (hi.ended rfl) (.inr (hi.gone rfl))
  | @wgDone i id hp =>
    have hf : CallFrame i s (s.wgDone i) :=
      ⟨fun _ _ => rfl, fun _ _ => rfl, fun _ _ => rfl, fun _ _ => rfl, fun _ _ => Iff.rfl⟩
    exact h.step hp (hf.goto _) ⟨update_self .., rfl, rfl⟩ ⟨rfl, rfl⟩ fun hi => hi.leave
  | @workerStop i w hw hph =>
    obtain ⟨id, hp⟩ := (h i).joining_of_worker hw (by decide)
    exact h.step hp ((CallFrame.refl.setLc _).setWorkers _) ⟨hp, update_self .., update_self ..⟩
      ⟨rfl, rfl⟩ fun hi => hi.stopWorker hph (List.getElem?_eq_some_iff.mp hw).1
  | @workerStopAgain i w hw =>
    obtain ⟨id, hp⟩ := (h i).joining_of_worker hw (by decide)
    exact h.step hp (CallFrame.refl.setWorkers _) ⟨hp, rfl, update_self ..⟩ ⟨rfl, rfl⟩ fun hi => hi.endWorker hw
  | @workerStopped i w hw hph =>
    obtain ⟨id, hp⟩ := (h i).joining_of_worker hw (by decide)
    exact h.step hp ((CallFrame.refl.setLc _).setWorkers _) ⟨hp, update_self .., update_self ..⟩
      ⟨rfl, rfl⟩ fun hi => hi.finishWorker hph (List.getElem?_eq_some_iff.mp hw).1
  | closeFirst _ hc | snapshot _ _ hc | pendingClosed _ hc | stopActiveAgain _ _ hc | wait hc | baseClose hc =>
    exact h.keep ⟨rfl, rfl, rfl, rfl⟩ (hc ▸ rfl)
  | closeNext | closeReturns => exact h.keep ⟨rfl, rfl, rfl, rfl⟩ rfl
  | closePending i conns active hc =>
    refine h.of_frame (CallFrame.refl.closeConn.setClose fun j _ => by rw [hc]; rfl) ?_
    have hi := h i
    rw [hc] at hi
    simp only [XudpProxy.closeConn, update_self]; exact hi.closeConn
  | stopActive i active hc hph =>
    refine h.of_frame ((CallFrame.refl.setLc _).setClose fun j hj => ?_) ?_
    · rw [hc]
      exact iff_of_false (fun he => hj (Option.some.inj he).symm) (by simp [XudpClosePc.stops])
    · simp only [setLc, update_self]
      refine (h i).stopClose hph (hact i ?_) rfl
      rw [hc]; exact List.mem_cons_self
  | activeStopped i active hc hph =>
    refine h.of_frame ((CallFrame.refl.setLc _).setClose fun j hj => ?_) ?_
    · rw [hc]
      exact iff_of_false (by simp [XudpClosePc.stops]) fun he => hj (Option.some.inj he).symm
    · simp only [setLc, update_self]; exact (h i).finishClose hph (by simp [XudpClosePc.stops])

end Frp
