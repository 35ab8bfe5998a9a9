import Frp.MakeHole

/-!
# The result of `MakeHole`

A result that is offered while `MakeHole` is in its `select` is taken and returned. One that
is offered before or after is dropped and its socket closed.
-/

namespace Frp

open Function MakeHole

namespace HoleCfg

variable {cfg : HoleCfg} {l : List ReadResult} {r : ReadResult}

theorem waitDetectMessage_append (h : cfg.waitDetectMessage l = none) :
    cfg.waitDetectMessage (l ++ [r]) = cfg.waitDetectMessage [r] := by
  induction l with
  | nil => rfl
  | cons x l ih =>
    cases hx : cfg.detect x with
    | again => simp only [waitDetectMessage, hx, List.cons_append] at h ⊢; exact ih h
    | failed | found => simp [waitDetectMessage, hx] at h

end HoleCfg

theorem offeredInTime_cons {m : HoleMoment} {log : List HoleMoment} :
    OfferedInTime (m :: log) ↔ OfferedInTime log ∨ (∃ i raddr, m = .offer i raddr) ∧ .select ∈ log ∧ .giveUp ∉ log := by
  constructor
  · intro h
    obtain ⟨late, i, raddr, early, heq, hs, hg⟩ := h
    cases late with
    | nil => cases heq; exact .inr ⟨⟨i, raddr, rfl⟩, hs, hg⟩
    | cons x late => cases heq; exact .inl ⟨late, i, raddr, early, rfl, hs, hg⟩
  · intro h
    rcases h with ⟨late, i, raddr, early, rfl, hs, hg⟩ | ⟨⟨i, raddr, rfl⟩, hs, hg⟩
    · exact ⟨m :: late, i, raddr, early, rfl, hs, hg⟩
    · exact ⟨[], i, raddr, log, rfl, hs, hg⟩

namespace MakeHole

variable {cfg : HoleCfg} {s t : MakeHole} {a : HoleActor} {i j : Nat} {raddr : Str}

def MainOk (cfg : HoleCfg) (log : List HoleMoment) : HoleMainPc → Prop
  | .spawning k => k ≤ cfg.conns ∧ .select ∉ log ∧ .giveUp ∉ log ∧ ¬ OfferedInTime log
  | .selecting => .select ∈ log ∧ .giveUp ∉ log ∧ ¬ OfferedInTime log
  | .returned (.ok _) => OfferedInTime log
  | .returned (.error _) => .giveUp ∈ log ∧ ¬ OfferedInTime log

structure Inv (cfg : HoleCfg) (s : MakeHole) : Prop where
  main : MainOk cfg s.log s.main
  waiting : ∀ i, s.waits i = .waiting → cfg.waitDetectMessage (s.reads i) = none
  offering : ∀ i raddr, s.waits i = .offering raddr →
    i < cfg.conns ∧ cfg.waitDetectMessage (s.reads i) = some (some raddr)
  sent : ∀ i, s.waits i = .sent → ∃ raddr, s.main = .returned (.ok (i, raddr))
  result : ∀ i raddr, s.main = .returned (.ok (i, raddr)) →
    s.waits i = .sent ∧ i < cfg.conns ∧ cfg.waitDetectMessage (s.reads i) = some (some raddr)

theorem Inv.init : Inv cfg {} := by
  refine ⟨⟨Nat.zero_le _, List.not_mem_nil, List.not_mem_nil, fun h => ?_⟩, fun _ _ => rfl, fun _ _ h => ?_,
    fun _ h => ?_, fun _ _ h => ?_⟩
  · obtain ⟨late, i, raddr, early, heq, -⟩ := h
    exact absurd heq (by simp)
  · cases h
  · cases h
  · cases h

theorem Inv.started_le (h : Inv cfg s) : s.started cfg ≤ cfg.conns := by
  have hm := h.main
  unfold started
  split
  · rename_i k hk
    rw [hk] at hm; exact hm.1
  · exact Nat.le_refl _
  · exact Nat.le_refl _

variable {log : List HoleMoment}

theorem Inv.setMain (h : Inv cfg s) {p : HoleMainPc} (hp : MainOk cfg log p)
    (hold : ∀ x, s.main ≠ .returned (.ok x)) (hnew : ∀ x, p ≠ .returned (.ok x)) :
    Inv cfg { s with main := p, log := log } := by
  refine ⟨hp, h.waiting, h.offering, fun i hi => ?_, fun i raddr hi => absurd hi (hnew _)⟩
  obtain ⟨raddr, hr⟩ := h.sent i hi
  exact absurd hr (hold _)

theorem Inv.setWait (h : Inv cfg s) {p : HoleWaitPc} {l : List ReadResult}
    (hold : s.waits i ≠ .sent) (hmain : MainOk cfg log s.main) (hsent : p ≠ .sent)
    (hwaiting : p = .waiting → cfg.waitDetectMessage l = none)
    (hoffering : ∀ raddr, p = .offering raddr → i < cfg.conns ∧ cfg.waitDetectMessage l = some (some raddr)) :
    Inv cfg { s with
      waits := update s.waits i p, reads := update s.reads i l, log := log } := by
  refine ⟨hmain, fun j hj => ?_, fun j raddr hj => ?_, fun j hj => ?_, fun j raddr hj => ?_⟩
  · simp only at hj ⊢
    by_cases hij : j = i
    · subst hij
      rw [update_self] at hj ⊢; exact hwaiting hj
    · rw [update_of_ne hij] at hj ⊢; exact h.waiting j hj
  · simp only at hj ⊢
    by_cases hij : j = i
    · subst hij
      rw [update_self] at hj ⊢; exact hoffering raddr hj
    · rw [update_of_ne hij] at hj ⊢; exact h.offering j raddr hj
  · exact h.sent j (of_update (· = HoleWaitPc.sent) hj hsent)
  · obtain ⟨hw, hlt, hr⟩ := h.result j raddr hj
    have hij : j ≠ i := fun heq => hold (heq ▸ hw)
    simp only [update_of_ne hij]; exact ⟨hw, hlt, hr⟩

theorem Inv.dropped (h : Inv cfg s) (hold : s.waits i ≠ .sent) (hmain : MainOk cfg log s.main) :
    Inv cfg { s.setWait i .closed with log := log } := by
  have hw := h.setWait (l := s.reads i) (p := .closed) hold hmain (by decide) (fun hp => by cases hp)
    (fun _ hp => by cases hp)
  rw [update_eq_self] at hw; exact hw

theorem Inv.send (h : Inv cfg s) (hw : s.waits i = .offering raddr) (hm : s.main = .selecting) :
    Inv cfg { s.setWait i .sent with main := .returned (.ok (i, raddr)), log := .offer i raddr :: s.log } := by
  obtain ⟨hlt, hr⟩ := h.offering i raddr hw
  have hlog := h.main
  rw [hm] at hlog
  refine ⟨offeredInTime_cons.mpr (.inr ⟨⟨i, raddr, rfl⟩, hlog.1, hlog.2.1⟩), fun j hj => ?_, fun j x hj => ?_,
    fun j hj => ?_, fun j x hj => ?_⟩
  · exact h.waiting j (of_update (· = HoleWaitPc.waiting) hj nofun)
  · exact h.offering j x (of_update (· = HoleWaitPc.offering x) hj nofun)
  · rcases update_cases (· = HoleWaitPc.sent) hj with ⟨rfl, -⟩ | ⟨-, hj⟩
    · exact ⟨raddr, rfl⟩
    · obtain ⟨x, hx⟩ := h.sent j hj
      rw [hm] at hx; cases hx
  · cases hj; exact ⟨update_self .., hlt, hr⟩

theorem MainOk.offer {p : HoleMainPc} (h : MainOk cfg log p) (hp : p ≠ .selecting) :
    MainOk cfg (.offer i raddr :: log) p := by
  cases p with
  | spawning =>
    refine ⟨h.1, fun hmem => ?_, fun hmem => ?_, fun hoff => ?_⟩
    · rcases List.mem_cons.mp hmem with heq | hmem
      · cases heq
      · exact h.2.1 hmem
    · rcases List.mem_cons.mp hmem with heq | hmem
      · cases heq
      · exact h.2.2.1 hmem
    · rcases offeredInTime_cons.mp hoff with hoff | ⟨-, hs, -⟩
      · exact h.2.2.2 hoff
      · exact h.2.1 hs
  | selecting => exact absurd rfl hp
  | returned r =>
    cases r with
    | ok => exact offeredInTime_cons.mpr (.inl h)
    | error =>
      refine ⟨List.mem_cons_of_mem _ h.1, fun hoff => ?_⟩
      rcases offeredInTime_cons.mp hoff with hoff | ⟨-, -, hg⟩
      · exact h.2 hoff
      · exact hg h.1

theorem MainOk.moment {m : HoleMoment} (h : ¬ OfferedInTime log)
    (hm : ∀ i raddr, m ≠ .offer i raddr) : ¬ OfferedInTime (m :: log) := by
  intro hoff
  rcases offeredInTime_cons.mp hoff with hoff | ⟨⟨i, raddr, rfl⟩, -⟩
  · exact h hoff
  · exact hm i raddr rfl

theorem ne_selecting (h : s.selects = false) : s.main ≠ .selecting := by
  intro hm
  rw [selects, hm] at h; cases h

theorem Inv.step (h : Inv cfg s) (hs : MakeHoleStep cfg s a t) : Inv cfg t := by
  have hm := h.main
  cases hs with
  | spawn hk hlt =>
    rw [hk] at hm
    exact h.setMain ⟨hlt, hm.2⟩ (fun x hx => by rw [hk] at hx; cases hx) (fun x hx => by cases hx)
  | select hk =>
    rw [hk] at hm
    refine h.setMain ⟨List.mem_cons_self, fun hmem => ?_, MainOk.moment hm.2.2.2 fun _ _ he => by cases he⟩
      (fun x hx => by rw [hk] at hx; cases hx) (fun x hx => by cases hx)
    rcases List.mem_cons.mp hmem with heq | hmem
    · cases heq
    · exact hm.2.2.1 hmem
  | giveUp err hk =>
    rw [hk] at hm
    exact h.setMain ⟨List.mem_cons_self, MainOk.moment hm.2.2 fun _ _ he => by cases he⟩
      (fun x hx => by rw [hk] at hx; cases hx) (fun x hx => by cases hx)
  | @again i r hi hw hr =>
    have hnone := HoleCfg.waitDetectMessage_append (r := r) (h.waiting i hw)
    have hkeep := h.setWait (p := .waiting) (by rw [hw]; decide) hm (by decide)
      (fun _ => by rw [hnone, HoleCfg.waitDetectMessage, hr]; rfl) (fun _ hp => by cases hp)
    rw [← hw, update_eq_self] at hkeep; exact hkeep
  | @fails i r hi hw =>
    exact h.setWait (by rw [hw]; decide) hm (by decide) (fun hp => by cases hp) (fun _ hp => by cases hp)
  | @finds i r raddr reply hi hw hr =>
    have hfound := HoleCfg.waitDetectMessage_append (r := r) (h.waiting i hw)
    refine h.setWait (by rw [hw]; decide) hm HoleWaitPc.noConfusion (fun hp => by cases hp) (fun x hp => ?_)
    cases hp
    exact ⟨Nat.lt_of_lt_of_le hi h.started_le, by rw [hfound, HoleCfg.waitDetectMessage, hr]⟩
  | send hw hk => exact h.send hw hk
  | drop hw hk => exact h.dropped (by rw [hw]; exact HoleWaitPc.noConfusion) (hm.offer (ne_selecting hk))

theorem Reachable.inv (h : s.Reachable cfg) : Inv cfg s :=
  h.invariant (fun _ hi => hi ▸ .init) fun _ _ _ _ hi hs => hi.step hs

theorem Inv.offered_iff (h : Inv cfg s) : (∃ x, s.main = .returned (.ok x)) ↔ OfferedInTime s.log := by
  have hm := h.main
  constructor
  · intro hx
    obtain ⟨x, hx⟩ := hx
    rw [hx] at hm; exact hm
  · intro hoff
    cases hmain : s.main with
    | spawning => rw [hmain] at hm; exact absurd hoff hm.2.2.2
    | selecting => rw [hmain] at hm; exact absurd hoff hm.2.2
    | returned r =>
      cases r with
      | ok x => exact ⟨x, rfl⟩
      | error => rw [hmain] at hm; exact absurd hoff hm.2

/-! ## After `MakeHole` has returned -/

variable {r : Except HoleError (Nat × Str)}

theorem returned_step (hm : s.main = .returned r) (hs : MakeHoleStep cfg s a t) : t.main = .returned r := by
  cases hs with
  | spawn hk | select hk | giveUp _ hk | send _ hk => rw [hm] at hk; cases hk
  | again | fails | finds | drop => exact hm

theorem returned_reach (hm : s.main = .returned r)
    (ht : Reach (· = s) (MakeHoleStep cfg) t) : t.main = .returned r :=
  ht.invariant (fun _ hi => hi ▸ hm) fun _ _ _ _ hi hs => returned_step hi hs

def waitRank : HoleWaitPc → Nat
  | .waiting => 2
  | .offering _ => 1
  | .sent | .closed => 0

theorem act_lowers (hs : MakeHoleStep cfg s (.act j) t) : waitRank (t.waits j) < waitRank (s.waits j) := by
  cases hs with
  | fails hi hw | finds hi hw | send hw | drop hw => simp [setWait, hw, waitRank]

theorem waits_of_ne (hs : MakeHoleStep cfg s a t) (hne : a ≠ .act j) : t.waits j = s.waits j := by
  cases hs with
  | spawn | select | giveUp | again => rfl
  | @fails i | @finds i | @send i | @drop i =>
    have hij : j ≠ i := fun heq => hne (by rw [heq])
    exact update_of_ne hij _ _

theorem act_enabled (hinv : Inv cfg s) {x : Nat × Str} (hm : s.main = .returned (.ok x)) (hj : j < cfg.conns)
    (hne : j ≠ x.1) (hopen : s.waits j ≠ .closed) : ∃ e t, e = .act j ∧ MakeHoleStep cfg s e t := by
  cases hw : s.waits j with
  | waiting =>
    have hstarted : j < s.started cfg := by rw [started, hm]; exact hj
    exact ⟨_, _, rfl, .fails (r := .error) hstarted hw rfl⟩
  | offering => exact ⟨_, _, rfl, .drop hw (by rw [selects, hm])⟩
  | sent =>
    obtain ⟨raddr, hr⟩ := hinv.sent j hw
    rw [hm] at hr; cases hr
    exact absurd rfl hne
  | closed => exact absurd hw hopen

theorem closed_eventually (ρ : Run (MakeHoleStep cfg)) (h0 : ρ.state 0 = {}) {n : Nat} {x : Nat × Str}
    (hn : (ρ.state n).main = .returned (.ok x)) (hj : j < cfg.conns) (hne : j ≠ x.1) (hf : ρ.Fair (· = .act j)) :
    ∃ m, n ≤ m ∧ (ρ.state m).waits j = .closed := by
  refine hf.reaches (P := fun s => Inv cfg s ∧ s.main = .returned (.ok x)) (G := fun s => s.waits j = .closed)
    (fun s => waitRank (s.waits j)) ?_ ?_ n ⟨Reachable.inv (ρ.reach h0 n), hn⟩
  · intro s e t hP _ hs
    refine .inr ⟨⟨hP.1.step hs, returned_step hP.2 hs⟩, ?_, fun he => ?_⟩
    · by_cases he : e = .act j
      · exact Nat.le_of_lt (act_lowers (he ▸ hs))
      · rw [waits_of_ne hs he]
    · exact act_lowers (he ▸ hs)
  · intro s hP hopen; exact act_enabled hP.1 hP.2 hj hne hopen

end MakeHole

/-- `MakeHole` succeeds if and only if a socket is offered while it waits; it never closes the one it
returns, and every other is closed in a run in which its goroutine goes on. -/
theorem make_hole_keeps_winner (cfg : HoleCfg) :
    (∀ s : MakeHole, s.Reachable cfg →
      ((∃ x, s.main = .returned (.ok x)) ↔ OfferedInTime s.log) ∧
      ∀ i raddr, s.main = .returned (.ok (i, raddr)) →
        i < cfg.conns ∧ cfg.waitDetectMessage (s.reads i) = some (some raddr) ∧
        ∀ t, Reach (· = s) (MakeHoleStep cfg) t → t.main = .returned (.ok (i, raddr)) ∧ t.waits i ≠ .closed) ∧
    ∀ (ρ : Run (MakeHoleStep cfg)) (n i : Nat) (raddr : Str), ρ.state 0 = {} →
      (ρ.state n).main = .returned (.ok (i, raddr)) →
      ∀ j, j < cfg.conns → j ≠ i → ρ.Fair (· = .act j) → ∃ m, n ≤ m ∧ (ρ.state m).waits j = .closed := by
  refine ⟨fun s h => ⟨h.inv.offered_iff, fun i raddr hm => ?_⟩, fun ρ n i raddr h0 hn j hj hne hf => ?_⟩
  · obtain ⟨-, hlt, hr⟩ := h.inv.result i raddr hm
    refine ⟨hlt, hr, fun t ht => ?_⟩
    have hmain := returned_reach hm ht
    have hinv : MakeHole.Inv cfg t := ht.invariant (fun _ hi => hi ▸ h.inv) fun _ _ _ _ hi hs => hi.step hs
    rw [(hinv.result i raddr hmain).1]; exact ⟨hmain, by decide⟩
  · exact closed_eventually ρ h0 hn hj hne hf

def twoSockets : HoleCfg where
  conns := 2
  sid := [0]
  role := .receiver
  decode := fun buf => some ⟨[], buf, true, []⟩
  encode := fun _ => some []

theorem make_hole_keeps_winner_first :
    ∃ (ρ : Run (MakeHoleStep twoSockets)) (n m : Nat), ρ.state 0 = {} ∧ ρ.Fair (· = .act 1) ∧
      (ρ.state n).main = .returned (.ok (0, [7])) ∧ n ≤ m ∧ (ρ.state m).waits 1 = .closed ∧
      (ρ.state n).waits 0 ≠ .closed := by
  have h := (.start rfl : MakeHole.Reachable twoSockets {})
    |>.next (.spawn rfl (by decide))
    |>.next (.spawn rfl (by decide))
    |>.next (.select rfl)
    |>.next (.finds (i := 0) (r := .datagram [0] [7]) (by decide) rfl rfl)
    |>.next (.send (i := 0) rfl rfl)
    |>.next (.fails (i := 1) (r := .error) (by decide) rfl rfl)
  obtain ⟨ρ, N, hinit, hN⟩ := h.exists_run
  have hmain : (ρ.state N).main = .returned (.ok (0, [7])) := by rw [hN N (Nat.le_refl N)]; rfl
  have hfair : ρ.Fair (· = .act 1) := by
    refine Run.fair_of_rest hN fun e t he hs => ?_
    subst he
    have hlow := act_lowers hs
    exact absurd hlow (Nat.not_lt_zero _)
  obtain ⟨hkeep, hothers⟩ := make_hole_keeps_winner twoSockets
  obtain ⟨m, hm, hc⟩ := hothers ρ N 0 [7] hinit hmain 1 (by decide) (by decide) hfair
  have hwin := ((hkeep _ (ρ.reach hinit N)).2 0 [7] hmain).2.2 _ (.start rfl)
  exact ⟨ρ, N, m, hinit, hfair, hmain, hm, hc, hwin.2⟩

/-- The first goroutine has its message before the second one is started: the result is dropped. In
another run the second socket is never closed. -/
theorem make_hole_drops_winner :
    (∃ s : MakeHole, s.Reachable twoSockets ∧ twoSockets.waitDetectMessage (s.reads 0) = some (some [7]) ∧
      s.log = [.giveUp, .select, .offer 0 [7]] ∧ s.main = .returned (.error .timeout) ∧ s.waits 0 = .closed) ∧
    ∃ ρ : Run (MakeHoleStep twoSockets), (ρ.state 0).Reachable twoSockets ∧
      ∀ n, ρ.event n = some (.again 1) ∧ (ρ.state n).main = .returned (.ok (0, [7])) ∧
        (ρ.state n).waits 1 = .waiting := by
  have h0 : MakeHole.Reachable twoSockets {} := .start rfl
  have h1 := h0.next (.spawn rfl (by decide))
  constructor
  · have h2 := h1.next (.finds (i := 0) (r := .datagram [0] [7]) (by decide) rfl rfl)
    have h3 := h2.next (.drop (i := 0) rfl rfl)
    have h4 := h3.next (.spawn rfl (by decide))
    have h := h4.next (.select rfl)
    have h6 := h.next (.giveUp .timeout rfl)
    exact ⟨_, h6, by decide, rfl, rfl, rfl⟩
  · have h2 := h1.next (.spawn rfl (by decide))
    have h := h2
      |>.next (.select rfl)
      |>.next (.finds (i := 0) (r := .datagram [0] [7]) (by decide) rfl rfl)
      |>.next (.send (i := 0) rfl rfl)
    obtain ⟨s, hs⟩ : ∃ s : MakeHole, s.Reachable twoSockets ∧ s.main = .returned (.ok (0, [7])) ∧
        s.waits 1 = .waiting := ⟨_, h, rfl, rfl⟩
    let state : Nat → MakeHole := fun n => (fun s => s.read 1 (.datagram [1] [9]))^[n] s
    have hstate : ∀ n, (state n).main = s.main ∧ (state n).waits = s.waits := by
      intro n
      induction n with
      | zero => exact ⟨rfl, rfl⟩
      | succ n ih =>
        have heq : state (n + 1) = (state n).read 1 (.datagram [1] [9]) := iterate_succ_apply' _ _ _
        rw [heq]; exact ih
    refine ⟨⟨state, fun _ => some (.again 1), fun n => .inr ⟨_, rfl, ?_⟩⟩, hs.1, fun n => ⟨rfl, ?_, ?_⟩⟩
    · rw [show state (n + 1) = (state n).read 1 (.datagram [1] [9]) from iterate_succ_apply' _ _ _]
      refine .again ?_ ?_ (by decide)
      · rw [started, (hstate n).1, hs.2.1]; decide
      · rw [(hstate n).2]; exact hs.2.2
    · exact (hstate n).1.trans hs.2.1
    · rw [(hstate n).2]; exact hs.2.2

end Frp
