import Frp.Fair
import Frp.MuxerRun
import Frp.Slots

/-!
# Where the muxer's connections end

In a run that is fair to it, a connection is closed or returned by `Accept`, except where
its send meets a closed channel or the rewrite of its host fails.
-/

namespace Frp

/-! ## The end of `handle` as its outcome -/

attribute [local simp] Muxer.handle

section
variable [UnicodeCase]

def MuxConn.Refines (v : Muxer) : MuxConn → Prop
  | ⟨.accepted, w⟩ | ⟨.reading, w⟩ | ⟨.routing _, w⟩ => w = []
  | ⟨.refusing, w⟩ => w = [] ∧ ∃ tbl info, v.handle tbl .none info = ⟨v.failHook, none, true⟩
  | ⟨.succeeding info l, w⟩ => w = [] ∧ ∃ tbl, Muxer.getListener tbl info = some l
  | ⟨.authorizing info l, w⟩ => ∃ tbl write, ∀ reset lc,
      v.handle tbl ⟨false, write, reset, lc⟩ (some info) = v.authorize ⟨false, write, reset, lc⟩ w info l
  | ⟨.resetting l, w⟩ => ∃ tbl write info, ∀ reset lc,
      v.handle tbl ⟨false, write, reset, lc⟩ info = Muxer.handOff ⟨false, write, reset, lc⟩ w l
  | ⟨.sending l, w⟩ => ∃ tbl write info, ∀ lc,
      v.handle tbl ⟨false, write, false, lc⟩ info = Muxer.handOff ⟨false, write, false, lc⟩ w l
  | ⟨.received l, w⟩ | ⟨.returned l, w⟩ | ⟨.rewriteFailed l, w⟩ =>
      ∃ tbl faults info, v.handle tbl faults info = ⟨w, some l, false⟩
  | ⟨.closed, w⟩ => ∃ tbl faults info, v.handle tbl faults info = ⟨w, none, true⟩
  | ⟨.ignored _, w⟩ => ∃ tbl faults info, v.handle tbl faults info = ⟨w, none, false⟩

variable {conn conn' : MuxConn}

/-- A step of `handle` keeps to an outcome that the sequential `handle` has on some table. -/
theorem HandleStep.refines {v : Muxer} {tbl : Routers VhostListener}
    (h : HandleStep v tbl conn conn') (hr : conn.Refines v) : conn'.Refines v := by
  cases h with
  | setDeadline | vhostFunc => exact hr
  | setDeadlineFails => exact ⟨tbl, ⟨true, false, false, false⟩, none, by rw [show _ = [] from hr]; rfl⟩
  | vhostFuncFails => exact ⟨tbl, .none, none, by rw [show _ = [] from hr]; rfl⟩
  | getListener hl => exact ⟨hr, tbl, hl⟩
  | @noListener w info hl =>
    refine ⟨hr, tbl, some info, ?_⟩
    simp [Faults.none, hl]
  | failHook =>
    obtain ⟨rfl, tbl', info, h⟩ := hr
    exact ⟨tbl', _, info, h⟩
  | noSuccessHook hs =>
    obtain ⟨rfl, tbl', hl⟩ := hr
    exact ⟨tbl', false, fun reset lc => by simp [hl, hs]⟩
  | successHook writeErr hs ho =>
    obtain ⟨rfl, tbl', hl⟩ := hr
    exact ⟨tbl', writeErr, fun reset lc => by simp [hl, hs, ho]⟩
  | @successHookFails w info l _ writeErr hs ho =>
    obtain ⟨rfl, tbl', hl⟩ := hr
    exact ⟨tbl', ⟨false, writeErr, false, false⟩, some info, by simp [hl, hs, ho]⟩
  | noCheckAuth hno =>
    obtain ⟨tbl', write, h⟩ := hr
    refine ⟨tbl', write, _, fun reset lc => (h reset lc).trans ?_⟩
    unfold Muxer.authorize
    rcases hno with hno | hno
    · rw [hno]
    · split <;> simp [hno]
  | checkAuth hc hu ho =>
    obtain ⟨tbl', write, h⟩ := hr
    refine ⟨tbl', write, _, fun reset lc => (h reset lc).trans ?_⟩
    simp only [Muxer.authorize, hc, hu, ho, ne_eq, not_false_eq_true, if_true]
  | checkAuthFails hc hu ho =>
    obtain ⟨tbl', write, h⟩ := hr
    refine ⟨tbl', _, _, (h false false).trans ?_⟩
    simp only [Muxer.authorize, hc, hu, ho, ne_eq, not_false_eq_true, if_true]
  | resetDeadline =>
    obtain ⟨tbl', write, info, h⟩ := hr
    exact ⟨tbl', write, info, fun lc => h false lc⟩
  | resetDeadlineFails =>
    obtain ⟨tbl', write, info, h⟩ := hr
    exact ⟨tbl', _, info, h true false⟩

theorem SendStep.refines {v : VhostMuxer} {shut : Nat → Bool}
    (h : SendStep v shut conn conn') (hr : conn.Refines v.toMuxer) : conn'.Refines v.toMuxer := by
  cases h with
  | receive =>
    obtain ⟨tbl, write, info, h⟩ := hr
    exact ⟨tbl, _, info, h false⟩
  | panics =>
    obtain ⟨tbl, write, info, h⟩ := hr
    exact ⟨tbl, _, info, h true⟩
  | returns | rewriteFails => exact hr

end

/-! ## Places of a connection -/

def ConnPc.rank : ConnPc → Nat
  | accepted => 8
  | reading => 7
  | routing _ => 6
  | succeeding _ _ => 5
  | authorizing _ _ => 4
  | resetting _ => 3
  | sending _ => 2
  | refusing | received _ => 1
  | returned _ | closed | ignored _ | rewriteFailed _ => 0

namespace MuxState

variable {s : MuxState} {c : Nat}

def At (s : MuxState) (c : Nat) (p : ConnPc) : Prop := ∃ w, s.conns[c]? = some ⟨p, w⟩

def Settled (s : MuxState) (c : Nat) : Prop := s.At c .closed ∨ ∃ l, s.At c (.returned l)

def Stranded (s : MuxState) (c : Nat) : Prop := ∃ l, s.At c (.sending l) ∧ s.shut l.id = true

def RewriteFailed (s : MuxState) (c : Nat) : Prop := ∃ l, s.At c (.rewriteFailed l)

def Forgotten (s : MuxState) (c : Nat) : Prop := s.Stranded c ∨ s.RewriteFailed c ∨ ∃ l, s.At c (.ignored l)

theorem At.eq {p q : ConnPc} (h : s.At c p) (h' : s.At c q) : p = q := by
  obtain ⟨w, h⟩ := h
  obtain ⟨w', h'⟩ := h'
  rw [h] at h'; cases h'
  rfl

theorem Settled.not_forgotten (h : s.Settled c) : ¬ s.Forgotten c := by
  rintro (⟨l, hf, -⟩ | ⟨l, hf⟩ | ⟨l, hf⟩) <;> rcases h with h | ⟨l', h⟩ <;> cases h.eq hf

end MuxState

section
variable [UnicodeCase] {v : VhostMuxer} {s t : MuxState} {e : MuxEvent} {c : Nat}

theorem HandleStep.rank_lt {v : Muxer} {tbl : Routers VhostListener} {conn conn' : MuxConn}
    (h : HandleStep v tbl conn conn') : conn'.pc.rank < conn.pc.rank := by
  cases h <;> simp [ConnPc.rank]

omit [UnicodeCase] in
theorem SendStep.rank_lt {shut : Nat → Bool} {conn conn' : MuxConn} (h : SendStep v shut conn conn') :
    conn'.pc.rank < conn.pc.rank := by
  cases h <;> simp [ConnPc.rank]

variable {conn : MuxConn}

theorem MuxStep.conn_cases (h : MuxStep v s e t) (hc : s.conns[c]? = some conn) :
    (e ≠ .conn c ∧ t.conns[c]? = some conn) ∨ e = .conn c ∧ ∃ conn', t.conns[c]? = some conn' ∧
      (HandleStep v.toMuxer s.routes conn conn' ∨ SendStep v s.shut conn conn') := by
  cases h with
  | accept => exact .inl ⟨by simp, getElem?_append_old hc⟩
  | @handle d old new hd hst =>
    by_cases hcd : c = d
    · subst hcd
      rw [hc] at hd; cases hd
      exact .inr ⟨rfl, new, (getElem?_set_iff hc).mpr (.inl ⟨rfl, rfl⟩), .inl hst⟩
    · exact .inl ⟨by simpa using Ne.symm hcd, (getElem?_set_iff hd).mpr (.inr ⟨hcd, hc⟩)⟩
  | @send d old new hd hst =>
    by_cases hcd : c = d
    · subst hcd
      rw [hc] at hd; cases hd
      exact .inr ⟨rfl, new, (getElem?_set_iff hc).mpr (.inl ⟨rfl, rfl⟩), .inr hst⟩
    · exact .inl ⟨by simpa using Ne.symm hcd, (getElem?_set_iff hd).mpr (.inr ⟨hcd, hc⟩)⟩
  | listen | listenConflict | del | closeAccept => exact .inl ⟨by simp, hc⟩

theorem MuxStep.conn_back (h : MuxStep v s e t) (hc : t.conns[c]? = some conn) :
    conn = ⟨.accepted, []⟩ ∨ ∃ old, s.conns[c]? = some old ∧
      (old = conn ∨ HandleStep v.toMuxer s.routes old conn ∨ SendStep v s.shut old conn) := by
  cases h with
  | accept =>
    rcases getElem?_append_singleton_iff.mp hc with ⟨-, hc⟩ | ⟨-, heq⟩
    · exact .inr ⟨conn, hc, .inl rfl⟩
    · exact .inl heq
  | handle old _ hd hst =>
    rcases (getElem?_set_iff hd).mp hc with ⟨rfl, rfl⟩ | ⟨-, hc⟩
    · exact .inr ⟨old, hd, .inr (.inl hst)⟩
    · exact .inr ⟨conn, hc, .inl rfl⟩
  | send old _ hd hst =>
    rcases (getElem?_set_iff hd).mp hc with ⟨rfl, rfl⟩ | ⟨-, hc⟩
    · exact .inr ⟨old, hd, .inr (.inr hst)⟩
    · exact .inr ⟨conn, hc, .inl rfl⟩
  | listen | listenConflict | del | closeAccept => exact .inr ⟨conn, hc, .inl rfl⟩

/-- Each connection is at a point of a sequential run of `handle`, on some table and with some faults,
and has written what that run has written so far. -/
theorem MuxState.refines_of_reach (h : Reach MuxState.Init (MuxStep v) s) :
    ∀ (c : Nat) (conn : MuxConn), s.conns[c]? = some conn → conn.Refines v.toMuxer := by
  refine h.invariant (I := fun s => ∀ (c : Nat) (conn : MuxConn), s.conns[c]? = some conn → conn.Refines v.toMuxer)
    (fun s h0 c conn hc => ?_) fun s e t _ ih hst c conn hc => ?_
  · rw [h0] at hc; simp at hc
  · rcases hst.conn_back hc with rfl | ⟨old, hold, rfl | hst' | hst'⟩
    · rfl
    · exact ih c _ hold
    · exact hst'.refines (ih c _ hold)
    · exact hst'.refines (ih c _ hold)

theorem MuxState.no_rewrite (hv : v.rewritesHost = false) (h : Reach MuxState.Init (MuxStep v) s) (c : Nat) :
    ¬ s.RewriteFailed c := by
  refine h.invariant (I := fun s => ¬ s.RewriteFailed c) (fun s h0 => ?_) fun s e t _ ih hst => ?_
  · rintro ⟨l, w, hc⟩
    rw [h0] at hc; simp at hc
  · rintro ⟨l, w, hc⟩
    rcases hst.conn_back hc with heq | ⟨old, hold, rfl | hst' | hst'⟩
    · cases heq
    · exact ih ⟨l, w, hold⟩
    · cases hst'
    · cases hst' with
      | rewriteFails hr => rw [hv] at hr; cases hr

theorem MuxStep.shut_mono (h : MuxStep v s e t) {i : Nat} (hi : s.shut i = true) : t.shut i = true := by
  cases h with
  | @closeAccept j =>
    show Function.update s.shut j true i = true
    by_cases hij : i = j
    · rw [hij, Function.update_self]
    · rwa [Function.update_of_ne hij]
  | accept | handle | send | listen | listenConflict | del => exact hi

theorem MuxStep.at_kept (h : MuxStep v s e t) {p : ConnPc} (hs : s.At c p) (hp : p.rank = 0) :
    e ≠ .conn c ∧ t.At c p := by
  obtain ⟨w, hc⟩ := hs
  rcases h.conn_cases hc with ⟨hne, hc⟩ | ⟨-, conn', -, hst⟩
  · exact ⟨hne, w, hc⟩
  · have hlt := hst.elim HandleStep.rank_lt SendStep.rank_lt
    rw [hp] at hlt; exact absurd hlt (Nat.not_lt_zero _)

theorem MuxStep.settled (h : MuxStep v s e t) (hs : s.Settled c) : t.Settled c := by
  rcases hs with hat | ⟨l, hat⟩
  · exact .inl (h.at_kept hat rfl).2
  · exact .inr ⟨l, (h.at_kept hat rfl).2⟩

theorem MuxStep.forgotten (h : MuxStep v s e t) (hs : s.Forgotten c) : t.Forgotten c := by
  rcases hs with ⟨l, ⟨w, hc⟩, hshut⟩ | ⟨l, hat⟩ | ⟨l, hat⟩
  · rcases h.conn_cases hc with ⟨-, hc⟩ | ⟨-, conn', hc', hst | hst⟩
    · exact .inl ⟨l, ⟨w, hc⟩, h.shut_mono hshut⟩
    · cases hst
    · cases hst with
      | receive hopen => rw [hshut] at hopen; cases hopen
      | panics => exact .inr (.inr ⟨l, w, hc'⟩)
  · exact .inr (.inl ⟨l, (h.at_kept hat rfl).2⟩)
  · exact .inr (.inr ⟨l, (h.at_kept hat rfl).2⟩)

theorem MuxState.enabled (hc : s.conns[c]? = some conn) (hs : ¬ s.Settled c) (hf : ¬ s.Forgotten c) :
    ∃ e t, e = .conn c ∧ MuxStep v s e t := by
  obtain ⟨p, w⟩ := conn
  have handle : ∀ {conn'}, HandleStep v.toMuxer s.routes ⟨p, w⟩ conn' → ∃ e t, e = .conn c ∧ MuxStep v s e t :=
    fun hst => ⟨_, _, rfl, .handle _ _ hc hst⟩
  cases p with
  | accepted => exact handle .setDeadline
  | reading => exact handle .vhostFuncFails
  | routing info =>
    cases hl : Muxer.getListener s.routes info with
    | none => exact handle (.noListener hl)
    | some => exact handle (.getListener hl)
  | refusing => exact handle .failHook
  | succeeding info =>
    cases hh : v.successHook with
    | none => exact handle (.noSuccessHook hh)
    | some f =>
      cases hr : f info false with
      | none => exact handle (.successHookFails false hh hr)
      | some => exact handle (.successHook false hh hr)
  | authorizing info l =>
    cases hh : v.checkAuth with
    | none => exact handle (.noCheckAuth (.inl hh))
    | some f =>
      by_cases hu : l.username = []
      · exact handle (.noCheckAuth (.inr hu))
      · cases hr : f l.username l.password info with
        | mk ok =>
          cases ok with
          | true => exact handle (.checkAuth hh hu hr)
          | false => exact handle (.checkAuthFails hh hu hr)
  | resetting => exact handle .resetDeadline
  | sending l =>
    cases hshut : s.shut l.id with
    | true => exact absurd (.inl ⟨l, ⟨w, hc⟩, hshut⟩) hf
    | false => exact ⟨_, _, rfl, .send _ _ hc (.receive hshut)⟩
  | received => exact ⟨_, _, rfl, .send _ _ hc .returns⟩
  | returned l => exact absurd (.inr ⟨l, w, hc⟩) hs
  | closed => exact absurd (.inl ⟨w, hc⟩) hs
  | ignored l => exact absurd (.inr (.inr ⟨l, w, hc⟩)) hf
  | rewriteFailed l => exact absurd (.inr (.inl ⟨l, w, hc⟩)) hf

/-! ## Runs -/

/-- A connection that keeps being scheduled is settled or forgotten, since its rank falls. -/
theorem muxer_settles (ρ : Run (MuxStep v)) (hf : ρ.Fair (· = .conn c)) {n : Nat}
    (hc : c < (ρ.state n).conns.length) : ∃ m, n ≤ m ∧ ((ρ.state m).Settled c ∨ (ρ.state m).Forgotten c) := by
  refine hf.reaches (P := fun s => ∃ conn, s.conns[c]? = some conn)
    (G := fun s => s.Settled c ∨ s.Forgotten c) (fun s => ((s.conns[c]?).map (·.pc.rank)).getD 0) ?_ ?_ n
    ⟨_, List.getElem?_eq_getElem hc⟩
  · rintro s e t ⟨conn, hconn⟩ - hst
    rcases hst.conn_cases hconn with ⟨hne, hc'⟩ | ⟨-, conn', hc', hst'⟩
    · refine .inr ⟨⟨conn, hc'⟩, Nat.le_of_eq ?_, fun he => absurd he hne⟩
      rw [hc', hconn]
    · have hlt : conn'.pc.rank < conn.pc.rank := hst'.elim HandleStep.rank_lt SendStep.rank_lt
      rw [hc', hconn]; exact .inr ⟨⟨conn', rfl⟩, Nat.le_of_lt hlt, fun _ => hlt⟩
  · rintro s ⟨conn, hconn⟩ hno
    exact MuxState.enabled hconn (fun h => hno (.inl h)) (fun h => hno (.inr h))

theorem ignored_was_stranded (ρ : Run (MuxStep v)) (h0 : (ρ.state 0).Init) {l : VhostListener} :
    ∀ n, (ρ.state n).At c (.ignored l) → ∃ m, (ρ.state m).Stranded c := by
  intro n
  induction n with
  | zero =>
    rintro ⟨w, hc⟩
    rw [h0] at hc; simp at hc
  | succ n ih =>
    intro hat
    rcases ρ.next n with ⟨-, heq⟩ | ⟨e, -, hst⟩
    · exact ih (heq ▸ hat)
    · obtain ⟨w, hc⟩ := hat
      rcases hst.conn_back hc with heq | ⟨old, hold, rfl | hst' | hst'⟩
      · cases heq
      · exact ih ⟨w, hold⟩
      · cases hst'
      · cases hst' with
        | panics hshut => exact ⟨n, l, ⟨w, hold⟩, hshut⟩

/-- In a fair run an accepted connection is closed or returned by `Accept` if and only if its send
never meets a closed channel and the rewrite of its host does not fail. -/
theorem muxer_conn_settled_iff (v : VhostMuxer) (ρ : Run (MuxStep v)) (h0 : (ρ.state 0).Init) {n c : Nat}
    (hc : c < (ρ.state n).conns.length) (hf : ρ.Fair (· = .conn c)) :
    (∃ m, (ρ.state m).Settled c) ↔ ∀ m, ¬ (ρ.state m).Stranded c ∧ ¬ (ρ.state m).RewriteFailed c := by
  constructor
  · rintro ⟨k, hk⟩ m
    have hno : ¬ (ρ.state m).Forgotten c := by
      intro hm
      rcases Nat.le_total m k with hmk | hkm
      · exact hk.not_forgotten (ρ.always (fun _ _ _ h hst => hst.forgotten h) hm k hmk)
      · exact (ρ.always (fun _ _ _ h hst => hst.settled h) hk m hkm).not_forgotten hm
    exact ⟨fun h => hno (.inl h), fun h => hno (.inr (.inl h))⟩
  · intro hno
    obtain ⟨m, -, hm | hm⟩ := muxer_settles ρ hf hc
    · exact ⟨m, hm⟩
    · rcases hm with hm | hm | ⟨l, hm⟩
      · exact absurd hm (hno m).1
      · exact absurd hm (hno m).2
      · obtain ⟨k, hk⟩ := ignored_was_stranded ρ h0 m hm
        exact absurd hk (hno k).1

end

/-! ### A connection for a listener that is being closed -/

section
attribute [local instance] UnicodeCase.ascii

def authListener : VhostListener := ⟨0, lit "example.com", [], [], [], lit "alice", lit "secret"⟩

theorem refines_of_reach_received : ∃ s, Reach MuxState.Init (MuxStep (httpConnectMuxer false)) s ∧
    s.conns = [⟨.received authListener, [.ok]⟩] ∧
    ∃ tbl faults info, (HTTPConnect.muxer false).handle tbl faults info = ⟨[.ok], some authListener, false⟩ := by
  have h : Reach MuxState.Init (MuxStep (httpConnectMuxer false)) ⟨.new, [], fun _ => false, fun _ => false, []⟩ :=
    .start rfl
  have h := h
    |>.next (.listen (l := authListener) rfl rfl)
    |>.next .accept
    |>.next (.handle (c := 0) _ _ rfl .setDeadline)
    |>.next (.handle (c := 0) _ _ rfl
      (.vhostFunc ⟨lit "example.com", [], lit "tcp", lit "alice", lit "secret"⟩))
    |>.next (.handle (c := 0) _ _ rfl (.getListener rfl))
    |>.next (.handle (c := 0) _ _ rfl (.successHook false rfl rfl))
    |>.next (.handle (c := 0) _ _ rfl (.checkAuth rfl (by decide) rfl))
    |>.next (.handle (c := 0) _ _ rfl .resetDeadline)
    |>.next (.send (c := 0) _ _ rfl (.receive rfl))
  exact ⟨_, h, rfl, MuxState.refines_of_reach h 0 _ rfl⟩

def exampleListener : VhostListener := ⟨0, lit "example.com", [], [], [], [], []⟩

theorem Reach.exists_mux_run {v : VhostMuxer} {s : MuxState} {c : Nat} {p : ConnPc}
    (h : Reach MuxState.Init (MuxStep v) s) (hs : s.At c p) (hp : p.rank = 0) :
    ∃ (ρ : Run (MuxStep v)) (N : Nat), (ρ.state 0).Init ∧ ρ.Fair (· = .conn c) ∧ c < (ρ.state N).conns.length ∧
      ∀ m, N ≤ m → (ρ.state m).At c p := by
  obtain ⟨ρ, N, h0, hN⟩ := h.exists_run
  refine ⟨ρ, N, h0, Run.fair_of_rest hN ?_, ?_, fun m hm => hN m hm ▸ hs⟩
  · rintro e t rfl hst; exact (hst.at_kept hs hp).1 rfl
  · obtain ⟨w, hc⟩ := hs
    rw [hN N (Nat.le_refl N)]; exact (List.getElem?_eq_some_iff.mp hc).1

theorem muxer_conn_settled_open : ∃ ρ : Run (MuxStep httpsMuxer), (ρ.state 0).Init ∧ ρ.Fair (· = .conn 0) ∧
    ∀ m, ¬ (ρ.state m).Stranded 0 ∧ ¬ (ρ.state m).RewriteFailed 0 := by
  have h := (.start rfl : Reach MuxState.Init (MuxStep httpsMuxer) ⟨.new, [], fun _ => false, fun _ => false, []⟩)
    |>.next (.listen (l := exampleListener) rfl rfl)
    |>.next .accept
    |>.next (.handle (c := 0) _ _ rfl .setDeadline)
    |>.next (.handle (c := 0) _ _ rfl (.vhostFunc ⟨lit "example.com", [], [], [], []⟩))
    |>.next (.handle (c := 0) _ _ rfl (.getListener rfl))
    |>.next (.handle (c := 0) _ _ rfl (.noSuccessHook rfl))
    |>.next (.handle (c := 0) _ _ rfl (.noCheckAuth (.inl rfl)))
    |>.next (.handle (c := 0) _ _ rfl .resetDeadline)
    |>.next (.send (c := 0) _ _ rfl (.receive rfl))
    |>.next (.send (c := 0) _ _ rfl .returns)
  obtain ⟨ρ, N, h0, hf, hlen, hN⟩ := h.exists_mux_run (c := 0) ⟨_, rfl⟩ rfl
  exact ⟨ρ, h0, hf, (muxer_conn_settled_iff httpsMuxer ρ h0 hlen hf).mp ⟨N, .inr ⟨_, hN N (Nat.le_refl N)⟩⟩⟩

theorem closed_listener_forgets_conn : ∃ ρ : Run (MuxStep httpsMuxer), (ρ.state 0).Init ∧ ρ.Fair (· = .conn 0) ∧
    (∃ n, 0 < (ρ.state n).conns.length) ∧ ∀ m, ¬ (ρ.state m).Settled 0 := by
  have h := (.start rfl : Reach MuxState.Init (MuxStep httpsMuxer) ⟨.new, [], fun _ => false, fun _ => false, []⟩)
    |>.next (.listen (l := exampleListener) rfl rfl)
    |>.next .accept
    |>.next (.handle (c := 0) _ _ rfl .setDeadline)
    |>.next (.handle (c := 0) _ _ rfl (.vhostFunc ⟨lit "example.com", [], [], [], []⟩))
    |>.next (.handle (c := 0) _ _ rfl (.getListener rfl))
    |>.next (.del (i := 0) exampleListener rfl)
    |>.next (.closeAccept (i := 0) rfl rfl)
    |>.next (.handle (c := 0) _ _ rfl (.noSuccessHook rfl))
    |>.next (.handle (c := 0) _ _ rfl (.noCheckAuth (.inl rfl)))
    |>.next (.handle (c := 0) _ _ rfl .resetDeadline)
    |>.next (.send (c := 0) _ _ rfl (.panics rfl))
  obtain ⟨ρ, N, h0, hf, hlen, hN⟩ := h.exists_mux_run (c := 0) ⟨_, rfl⟩ rfl
  refine ⟨ρ, h0, hf, ⟨N, hlen⟩, fun m hm => ?_⟩
  have hsettled := ρ.always (fun _ _ _ h hst => hst.settled h) hm (max m N) (Nat.le_max_left m N)
  exact hsettled.not_forgotten (.inr (.inr ⟨_, hN _ (Nat.le_max_right m N)⟩))

end

end Frp
