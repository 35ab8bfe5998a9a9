import Frp.ListenGroupInv

/-!
# The channels of listener groups

Each cycle of a group has an accept channel of its own, which is closed once. Each
connection was received by one call of `Accept`, or closed, or is in the hands of its
worker.
-/

namespace Frp

open GroupChan ListenWorld

section
variable {k : GroupKind} {calls : Nat → ListenCall k} {s t : ListenWorld k} {e : ListenEvent}

/-! ## Channels and connections -/

def GroupChan.hand (c : GroupChan) : Option Nat :=
  match c.worker with
  | .sending conn => some conn
  | _ => none

inductive ChansMove (s t : ListenWorld k) : Prop
  | keep : t.chans = s.chans → ChansMove s t
  | set {ch : Nat} {c c' : GroupChan} : s.chans[ch]? = some c → t.chans = s.chans.set ch c' → c'.worker = c.worker →
      ChansMove s t
  | add {i : Nat} : t.chans = s.chans ++ [⟨0, false, .accepting⟩] → (t.pc i).chan = some s.chans.length → ChansMove s t

structure CallMove (s t : ListenWorld k) : Prop where
  chans : ChansMove s t
  accepts : t.accepts = s.accepts
  deliveries : t.deliveries = s.deliveries
  closedConns : t.closedConns = s.closedConns
  chan : ∀ j ch, (s.pc j).chan = some ch → (t.pc j).chan = some ch

theorem ListenWorld.chan_goto {i : Nat} {q : ListenPc} (h : ∀ ch, (s.pc i).chan = some ch → q.chan = some ch) :
    ∀ j ch, (s.pc j).chan = some ch → (Function.update s.pc i q j).chan = some ch := by
  intro j ch hj
  by_cases hji : j = i
  · subst hji
    rw [Function.update_self]; exact h ch hj
  · rw [Function.update_of_ne hji]; exact hj

theorem ListenStep.callMove {i : Nat} (hst : ListenStep calls s (.call i) t) : CallMove s t := by
  cases hst with
  | init g o r hp =>
    refine ⟨.add (i := i) rfl ?_, rfl, rfl, rfl, ListenWorld.chan_goto (hp ▸ nofun)⟩
    simp only [ListenWorld.goto, Function.update_self]; rfl
  | joined g o hp => exact ⟨.keep rfl, rfl, rfl, rfl, ListenWorld.chan_goto (hp ▸ nofun)⟩
  | closeAccept g ch o c hp _ hc | closeReal g ch o c hp _ _ hc | closeMuxer g ch o c hp _ _ hc =>
    exact ⟨.set hc rfl rfl, rfl, rfl, rfl, ListenWorld.chan_goto (hp ▸ fun _ h => h)⟩
  | removeIf g ch o hp =>
    unfold ListenWorld.removeIf
    split <;> exact ⟨.keep rfl, rfl, rfl, rfl, ListenWorld.chan_goto (hp ▸ fun _ h => h)⟩
  | get g hp | create hp | unknownMultiplexer g hp | enter g hp | stale g hp | first g o hp | join g o hp
  | acquireFails g err hp | acquire g o r hp | netListenFails g o r err hp | netListen g o r hp
  | muxerListenFails g err hp | muxerListen g o r hp | refused g o err hp | close g ch hp
  | enterClose g ch hp | leave g ch o hp | leaveLast g ch o hp | release g ch o hp | del g ch o hp =>
    exact ⟨.keep rfl, rfl, rfl, rfl, ListenWorld.chan_goto (hp ▸ fun _ h => h)⟩

theorem ChansMove.worker (h : ChansMove s t) {ch : Nat} {c : GroupChan} (hc : s.chans[ch]? = some c) :
    ∃ c', t.chans[ch]? = some c' ∧ c'.worker = c.worker := by
  cases h with
  | keep heq => exact ⟨c, heq ▸ hc, rfl⟩
  | @set ch' x x' hx heq hw =>
    by_cases hch : ch = ch'
    · subst hch
      rw [hc] at hx; cases hx
      exact ⟨x', heq ▸ (getElem?_set_iff hc).mpr (.inl ⟨rfl, rfl⟩), hw⟩
    · exact ⟨c, heq ▸ (getElem?_set_iff hx).mpr (.inr ⟨hch, hc⟩), rfl⟩
  | add heq => exact ⟨c, heq ▸ getElem?_append_old hc, rfl⟩

theorem ChansMove.back (h : ChansMove s t) {ch : Nat} {c : GroupChan} (hc : t.chans[ch]? = some c) :
    (∃ c', s.chans[ch]? = some c' ∧ c'.worker = c.worker) ∨ c.worker = .accepting ∧ ∃ i, (t.pc i).chan = some ch := by
  cases h with
  | keep heq => exact .inl ⟨c, heq ▸ hc, rfl⟩
  | @set ch' x x' hx heq hw =>
    rw [heq] at hc
    rcases (getElem?_set_iff hx).mp hc with ⟨rfl, rfl⟩ | ⟨-, hc⟩
    · exact .inl ⟨x, hx, hw.symm⟩
    · exact .inl ⟨c, hc, rfl⟩
  | @add i heq hi =>
    rw [heq] at hc
    rcases getElem?_append_singleton_iff.mp hc with ⟨-, hc⟩ | ⟨rfl, rfl⟩
    · exact .inl ⟨c, hc, rfl⟩
    · exact .inr ⟨rfl, i, hi⟩

theorem ChansMove.hands (h : ChansMove s t) :
    (t.chans.filterMap hand).Perm (s.chans.filterMap hand) := by
  cases h with
  | keep heq => rw [heq]
  | @set ch c c' hc heq hw =>
    have hhand : c'.hand = c.hand := by rw [hand, hand, hw]
    have hperm := filterMap_set_perm hand (b := c') hc
    rw [hhand] at hperm
    rw [heq]; exact (List.perm_append_left_iff _).mp hperm
  | add heq =>
    have hnew : [(⟨0, false, .accepting⟩ : GroupChan)].filterMap hand = [] := rfl
    rw [heq, List.filterMap_append, hnew, List.append_nil]

/-! ## The connections are accounted for -/

structure ListenWorld.Ledger (s : ListenWorld k) : Prop where
  served : ∀ (ch : Nat) (c : GroupChan), s.chans[ch]? = some c → ∃ i, (s.pc i).chan = some ch
  sending : ∀ (ch : Nat) (c : GroupChan) (conn : Nat), s.chans[ch]? = some c → c.worker = .sending conn →
    s.accepts[conn]? = some ch
  delivered : ∀ d ∈ s.deliveries, ∃ ch, s.accepts[d.1]? = some ch ∧ (s.pc d.2).chan = some ch
  conns : (s.deliveries.map Prod.fst ++ s.closedConns ++ s.chans.filterMap GroupChan.hand).Perm
    (List.range s.accepts.length)

namespace ListenWorld.Ledger

theorem init (h : s.Init) : s.Ledger := by
  subst h; exact ⟨nofun, nofun, nofun, .refl _⟩

theorem call (h : s.Ledger) (hm : CallMove s t) : t.Ledger := by
  refine ⟨?_, ?_, ?_, ?_⟩
  · intro ch c hc
    rcases hm.chans.back hc with ⟨c', hc', -⟩ | ⟨-, hi⟩
    · obtain ⟨i, hi⟩ := h.served ch c' hc'
      exact ⟨i, hm.chan i ch hi⟩
    · exact hi
  · intro ch c conn hc hw
    rw [hm.accepts]
    rcases hm.chans.back hc with ⟨c', hc', hw'⟩ | ⟨hacc, -⟩
    · exact h.sending ch c' conn hc' (hw'.trans hw)
    · rw [hacc] at hw; cases hw
  · intro d hd
    rw [hm.deliveries] at hd
    obtain ⟨ch, hacc, hch⟩ := h.delivered d hd
    exact ⟨ch, hm.accepts ▸ hacc, hm.chan d.2 ch hch⟩
  · rw [hm.deliveries, hm.closedConns, hm.accepts]
    exact (hm.chans.hands.append_left _).trans h.conns

theorem worker (h : s.Ledger) {ch : Nat} {c : GroupChan} {w : GroupWorkerPc} (hc : s.chans[ch]? = some c)
    (hchans : t.chans = s.chans.set ch { c with worker := w }) (hpc : t.pc = s.pc)
    (haccepts : ∃ l, t.accepts = s.accepts ++ l)
    (hsending : ∀ conn, w = .sending conn → t.accepts[conn]? = some ch)
    (hdelivered : ∀ d ∈ t.deliveries, d ∈ s.deliveries ∨
      ∃ ch, s.accepts[d.1]? = some ch ∧ (s.pc d.2).chan = some ch)
    (hcount : ∀ conn, (t.deliveries.map Prod.fst).count conn + t.closedConns.count conn +
        (hand { c with worker := w }).toList.count conn + (List.range s.accepts.length).count conn =
      (s.deliveries.map Prod.fst).count conn + s.closedConns.count conn + c.hand.toList.count conn +
        (List.range t.accepts.length).count conn) : t.Ledger := by
  obtain ⟨l, hl⟩ := haccepts
  have hkept : ∀ conn ch : Nat, s.accepts[conn]? = some ch → t.accepts[conn]? = some ch := by
    intro conn ch h
    rw [hl, List.getElem?_append_left (List.getElem?_eq_some_iff.mp h).1]; exact h
  refine ⟨?_, ?_, ?_, ?_⟩
  · intro ch' c' hc'
    rw [hpc]
    rw [hchans] at hc'
    rcases (getElem?_set_iff hc).mp hc' with ⟨rfl, rfl⟩ | ⟨-, hc'⟩
    · exact h.served ch' c hc
    · exact h.served ch' c' hc'
  · intro ch' c' conn hc' hw
    rw [hchans] at hc'
    rcases (getElem?_set_iff hc).mp hc' with ⟨rfl, rfl⟩ | ⟨-, hc'⟩
    · exact hsending conn hw
    · exact hkept conn ch' (h.sending ch' c' conn hc' hw)
  · intro d hd
    have hs : ∃ ch, s.accepts[d.1]? = some ch ∧ (s.pc d.2).chan = some ch := by
      rcases hdelivered d hd with hd | hd
      · exact h.delivered d hd
      · exact hd
    obtain ⟨ch', hacc, hch⟩ := hs
    exact ⟨ch', hkept d.1 ch' hacc, hpc ▸ hch⟩
  · refine List.perm_iff_count.mpr fun conn => ?_
    have hold := h.conns.count_eq conn
    have hset := (filterMap_set_perm hand (b := { c with worker := w }) hc).count_eq conn
    have hnew := hcount conn
    rw [hchans]
    simp only [List.count_append] at hold hset ⊢; omega

end ListenWorld.Ledger

theorem ListenStep.ledger (hst : ListenStep calls s e t) (h : s.Ledger) : t.Ledger := by
  cases e with
  | call => exact h.call hst.callMove
  | worker ch =>
    cases hst with
    | accept c hc hw =>
      refine h.worker hc rfl rfl ⟨[ch], rfl⟩ ?_ (fun d hd => .inl hd) ?_
      · rintro _ ⟨⟩
        exact List.getElem?_concat_length
      · intro conn
        simp only [hand, hw, List.length_append, List.length_singleton, List.range_succ, List.count_append,
          Option.toList, List.count_nil, setChan]
        omega
    | acceptFails c hc hw =>
      refine h.worker hc rfl rfl ⟨[], (List.append_nil _).symm⟩ nofun (fun d hd => .inl hd) ?_
      intro conn; simp only [hand, hw, setChan]
    | deliver c conn i hc hw _ hch =>
      refine h.worker hc rfl rfl ⟨[], (List.append_nil _).symm⟩ nofun ?_ ?_
      · intro d hd
        rcases List.mem_append.mp hd with hd | hd
        · exact .inl hd
        · cases List.mem_singleton.mp hd
          exact .inr ⟨ch, h.sending ch c conn hc hw, hch⟩
      · intro conn'
        simp only [hand, hw, List.map_append, List.map_cons, List.map_nil, List.count_append, Option.toList,
          List.count_nil, setChan]
        omega
    | panics c conn hc hw =>
      refine h.worker hc rfl rfl ⟨[], (List.append_nil _).symm⟩ nofun (fun d hd => .inl hd) ?_
      intro conn'
      simp only [hand, hw, List.count_append, Option.toList, List.count_nil, setChan]; omega

/-! ## Objects and their channels -/

namespace GroupStage

def phase : GroupStage → Nat
  | fresh | acquired _ | opened _ => 0
  | active => 1
  | emptied => 2
  | shut => 3
  | half => 4
  | cleaned => 5
  | dead => 6

def shuts (st : GroupStage) : Nat := if st.phase < 3 then 0 else 1

theorem shuts_le_one (st : GroupStage) : st.shuts ≤ 1 := by
  unfold shuts
  split <;> omega

end GroupStage

inductive ObjMove (s : ListenWorld k) (i : Nat) (t : ListenWorld k) : Prop
  | keep : t.objs = s.objs → t.chans = s.chans → ObjMove s i t
  | create {key : Str} : t.objs = s.objs ++ [.new key] → t.chans = s.chans → ObjMove s i t
  | set {g : Nat} {a : GroupStage} {o o' : GroupObj k} : (s.pc i).stage = some (g, a) → s.objs[g]? = some o →
      t.objs = s.objs.set g o' → o'.ch = o.ch → a.phase ≤ o'.stage.phase → (a.phase = 0 → o'.stage.phase = 0) →
      a.shuts = o'.stage.shuts → t.chans = s.chans → ObjMove s i t
  | close {g : Nat} {a : GroupStage} {o o' : GroupObj k} {c c' : GroupChan} : (s.pc i).stage = some (g, a) →
      s.objs[g]? = some o → t.objs = s.objs.set g o' → o'.ch = o.ch → a.phase ≤ o'.stage.phase → 0 < a.phase →
      s.chans[o.ch]? = some c → t.chans = s.chans.set o.ch c' → (c.shuts = a.shuts → c'.shuts = o'.stage.shuts) →
      ObjMove s i t
  | begin {g r : Nat} {o o' : GroupObj k} : (s.pc i).stage = some (g, .opened r) → s.objs[g]? = some o →
      t.objs = s.objs.set g o' → o'.ch = s.chans.length → o'.stage = .active →
      t.chans = s.chans ++ [⟨0, false, .accepting⟩] → ObjMove s i t

theorem ListenStep.objMove {i : Nat} (hst : ListenStep calls s (.call i) t) (hi : s.Inv calls) : ObjMove s i t := by
  cases hst with
  | create => exact .create rfl rfl
  | acquire _ _ _ hp _ ho | muxerListen _ _ _ hp _ ho =>
    exact .set (a := .fresh) (hp ▸ rfl) ho rfl rfl (Nat.le_refl 0) (fun _ => rfl) rfl rfl
  | netListenFails _ _ r _ hp ho | netListen _ _ r hp ho =>
    exact .set (a := .acquired r) (hp ▸ rfl) ho rfl rfl (Nat.le_refl 0) (fun _ => rfl) rfl rfl
  | init g o r hp ho => exact .begin (r := r) (hp ▸ rfl) ho rfl rfl rfl rfl
  | joined g o hp ho | leave g _ o hp ho =>
    have hs := (hi.known (i := i) (a := .active) (hp ▸ rfl) ho).1
    exact .set (a := .active) (hp ▸ rfl) ho rfl rfl (by rw [hs]) nofun (by rw [hs]) rfl
  | leaveLast g ch o hp ho =>
    exact .set (a := .active) (hp ▸ rfl) ho rfl rfl (Nat.le_succ _) nofun rfl rfl
  | closeAccept g ch o c hp ho hc =>
    exact .close (a := .emptied) (hp ▸ rfl) ho rfl rfl (Nat.le_succ _) (by decide) hc rfl (congrArg (· + 1))
  | closeReal g ch o c hp _ ho hc =>
    exact .close (a := .shut) (hp ▸ rfl) ho rfl rfl (Nat.le_succ _) (by decide) hc rfl id
  | release g ch o hp _ ho => exact .set (a := .half) (hp ▸ rfl) ho rfl rfl (Nat.le_succ _) nofun rfl rfl
  | del g ch o hp _ ho => exact .set (a := .shut) (hp ▸ rfl) ho rfl rfl (Nat.le_succ _) nofun rfl rfl
  | closeMuxer g ch o c hp _ ho hc =>
    exact .close (a := .half) (hp ▸ rfl) ho rfl rfl (Nat.le_succ _) (by decide) hc rfl id
  | removeIf g ch o hp ho =>
    unfold ListenWorld.removeIf
    split <;> exact .set (a := .cleaned) (hp ▸ rfl) ho rfl rfl (Nat.le_succ _) nofun rfl rfl
  | _ => exact .keep rfl rfl

structure ListenWorld.Linked (s : ListenWorld k) : Prop where
  chan : ∀ (g : Nat) (o : GroupObj k), s.objs[g]? = some o → 0 < o.stage.phase →
    ∃ c, s.chans[o.ch]? = some c ∧ c.shuts = o.stage.shuts
  distinct : ∀ (g g' : Nat) (o o' : GroupObj k), s.objs[g]? = some o → s.objs[g']? = some o' → 0 < o.stage.phase →
    0 < o'.stage.phase → o.ch = o'.ch → g = g'
  owner : ∀ ch, ch < s.chans.length → ∃ (g : Nat) (o : GroupObj k), s.objs[g]? = some o ∧ 0 < o.stage.phase ∧ o.ch = ch

namespace ListenWorld.Linked

theorem init (h : s.Init) : s.Linked := by
  subst h; exact ⟨nofun, nofun, nofun⟩

variable {o o' : GroupObj k}

theorem update (h : s.Linked) {g : Nat} (ho : s.objs[g]? = some o)
    (hobjs : t.objs = s.objs.set g o') (hphase : 0 < o'.stage.phase ↔ 0 < o.stage.phase) (hch : o'.ch = o.ch)
    (hlen : t.chans.length = s.chans.length) (hrest : ∀ ch, ch ≠ o.ch → t.chans[ch]? = s.chans[ch]?)
    (hchan : ∀ c, 0 < o.stage.phase → s.chans[o.ch]? = some c → c.shuts = o.stage.shuts →
      ∃ c', t.chans[o.ch]? = some c' ∧ c'.shuts = o'.stage.shuts)
    (hsame : o.stage.phase = 0 → t.chans = s.chans) : t.Linked := by
  have hcases : ∀ (g' : Nat) (x : GroupObj k), t.objs[g']? = some x → 0 < x.stage.phase →
      ∃ x', s.objs[g']? = some x' ∧ 0 < x'.stage.phase ∧ x.ch = x'.ch := by
    intro g' x hx hp
    rw [hobjs] at hx
    rcases (getElem?_set_iff ho).mp hx with ⟨rfl, rfl⟩ | ⟨-, hx⟩
    · exact ⟨o, ho, hphase.mp hp, hch⟩
    · exact ⟨x, hx, hp, rfl⟩
  refine ⟨?_, ?_, ?_⟩
  · intro g' x hx hp
    rw [hobjs] at hx
    rcases (getElem?_set_iff ho).mp hx with ⟨rfl, rfl⟩ | ⟨hne, hx⟩
    · obtain ⟨c, hc, hshuts⟩ := h.chan g' o ho (hphase.mp hp)
      rw [hch]; exact hchan c (hphase.mp hp) hc hshuts
    · obtain ⟨c, hc, hshuts⟩ := h.chan g' x hx hp
      refine ⟨c, ?_, hshuts⟩
      by_cases hop : 0 < o.stage.phase
      · rw [hrest x.ch fun he => hne (h.distinct g' g x o hx ho hp hop he)]; exact hc
      · rw [hsame (by omega)]; exact hc
  · intro g₁ g₂ o₁ o₂ h₁ h₂ hp₁ hp₂ he
    obtain ⟨x₁, hx₁, hp₁, he₁⟩ := hcases g₁ o₁ h₁ hp₁
    obtain ⟨x₂, hx₂, hp₂, he₂⟩ := hcases g₂ o₂ h₂ hp₂
    exact h.distinct g₁ g₂ x₁ x₂ hx₁ hx₂ hp₁ hp₂ (he₁.symm.trans (he.trans he₂))
  · intro ch hlt
    obtain ⟨g', x, hx, hp, hxch⟩ := h.owner ch (hlen ▸ hlt)
    rw [hobjs]
    by_cases hg : g' = g
    · subst hg
      rw [ho] at hx; cases hx
      exact ⟨g', o', (getElem?_set_iff ho).mpr (.inl ⟨rfl, rfl⟩), hphase.mpr hp, hch.trans hxch⟩
    · exact ⟨g', x, (getElem?_set_iff ho).mpr (.inr ⟨hg, hx⟩), hp, hxch⟩

theorem begin (h : s.Linked) {g : Nat} (ho : s.objs[g]? = some o) (hop : o.stage.phase = 0)
    (hobjs : t.objs = s.objs.set g o') (hch : o'.ch = s.chans.length) (hst : o'.stage = .active)
    (hchans : t.chans = s.chans ++ [⟨0, false, .accepting⟩]) : t.Linked := by
  have hold : ∀ (g' : Nat) (x : GroupObj k), s.objs[g']? = some x → 0 < x.stage.phase → x.ch < s.chans.length := by
    intro g' x hx hp
    obtain ⟨c, hc, -⟩ := h.chan g' x hx hp
    exact (List.getElem?_eq_some_iff.mp hc).1
  have hcases : ∀ (g' : Nat) (x : GroupObj k), t.objs[g']? = some x → 0 < x.stage.phase →
      g' = g ∧ x = o' ∨ g' ≠ g ∧ s.objs[g']? = some x := by
    intro g' x hx _
    rw [hobjs] at hx; exact (getElem?_set_iff ho).mp hx
  refine ⟨?_, ?_, ?_⟩
  · intro g' x hx hp
    rw [hchans]
    rcases hcases g' x hx hp with ⟨rfl, rfl⟩ | ⟨-, hx⟩
    · rw [hch, hst]; exact ⟨_, List.getElem?_concat_length, rfl⟩
    · obtain ⟨c, hc, hshuts⟩ := h.chan g' x hx hp
      exact ⟨c, getElem?_append_old hc, hshuts⟩
  · intro g₁ g₂ o₁ o₂ h₁ h₂ hp₁ hp₂ he
    rcases hcases g₁ o₁ h₁ hp₁ with ⟨rfl, rfl⟩ | ⟨-, hx₁⟩ <;> rcases hcases g₂ o₂ h₂ hp₂ with ⟨rfl, rfl⟩ | ⟨-, hx₂⟩
    · rfl
    · have := hold g₂ o₂ hx₂ hp₂
      omega
    · have := hold g₁ o₁ hx₁ hp₁
      omega
    · exact h.distinct g₁ g₂ o₁ o₂ hx₁ hx₂ hp₁ hp₂ he
  · intro ch hlt
    rw [hobjs]
    rw [hchans, List.length_append, List.length_singleton] at hlt
    rcases Nat.lt_or_eq_of_le (Nat.le_of_lt_succ hlt) with hlt | rfl
    · obtain ⟨g', x, hx, hp, hxch⟩ := h.owner ch hlt
      have hg : g' ≠ g := by
        rintro rfl
        rw [ho] at hx; cases hx
        omega
      exact ⟨g', x, (getElem?_set_iff ho).mpr (.inr ⟨hg, hx⟩), hp, hxch⟩
    · exact ⟨g, o', (getElem?_set_iff ho).mpr (.inl ⟨rfl, rfl⟩), by rw [hst]; decide, hch⟩

theorem call (h : s.Linked) (hi : s.Inv calls) {i : Nat} (hm : ObjMove s i t) : t.Linked := by
  cases hm with
  | keep hobjs hchans =>
    refine ⟨?_, ?_, ?_⟩ <;> rw [hobjs]
    · rw [hchans]; exact h.chan
    · exact h.distinct
    · rw [hchans]; exact h.owner
  | @create key hobjs hchans =>
    have hcases : ∀ (g : Nat) (x : GroupObj k), t.objs[g]? = some x → 0 < x.stage.phase → s.objs[g]? = some x := by
      intro g x hx hp
      rw [hobjs] at hx
      rcases getElem?_append_singleton_iff.mp hx with ⟨-, hx⟩ | ⟨-, rfl⟩
      · exact hx
      · cases hp
    refine ⟨fun g x hx hp => hchans ▸ h.chan g x (hcases g x hx hp) hp,
      fun g g' x x' hx hx' hp hp' => h.distinct g g' x x' (hcases g x hx hp) (hcases g' x' hx' hp') hp hp', ?_⟩
    intro ch hlt
    obtain ⟨g, x, hx, hp⟩ := h.owner ch (hchans ▸ hlt)
    exact ⟨g, x, hobjs ▸ getElem?_append_old hx, hp⟩
  | @set g st o o' hp ho hobjs hch hle h0 hshuts hchans =>
    obtain ⟨rfl, -⟩ := hi.known hp ho
    refine h.update ho hobjs (by omega) hch (by rw [hchans]) (fun _ _ => by rw [hchans]) ?_ fun _ => hchans
    intro c _ hc hs; exact ⟨c, hchans ▸ hc, hs.trans hshuts⟩
  | @close g st o o' c c' hp ho hobjs hch hle h0 hc hchans hshuts =>
    obtain ⟨rfl, -⟩ := hi.known hp ho
    refine h.update ho hobjs (by omega) hch (by rw [hchans, List.length_set]) ?_ ?_ (by omega)
    · intro ch hne; rw [hchans, List.getElem?_set_ne (Ne.symm hne)]
    · intro x _ hx hs
      rw [hc] at hx; cases hx
      exact ⟨c', hchans ▸ (getElem?_set_iff hc).mpr (.inl ⟨rfl, rfl⟩), hshuts hs⟩
  | @begin g r o o' hp ho hobjs hch hst hchans =>
    have hs := (hi.known hp ho).1
    exact h.begin ho (hs ▸ rfl) hobjs hch hst hchans

theorem worker (h : s.Linked) {ch : Nat} {c c' : GroupChan} (hc : s.chans[ch]? = some c) (hobjs : t.objs = s.objs)
    (hchans : t.chans = s.chans.set ch c') (hshuts : c'.shuts = c.shuts) : t.Linked := by
  refine ⟨?_, hobjs ▸ h.distinct, ?_⟩
  · intro g o ho hp
    obtain ⟨x, hx, hs⟩ := h.chan g o (hobjs ▸ ho) hp
    rw [hchans]
    by_cases hch : o.ch = ch
    · rw [hch, hc] at hx; cases hx
      exact ⟨c', (getElem?_set_iff hc).mpr (.inl ⟨hch, rfl⟩), hshuts.trans hs⟩
    · exact ⟨x, (getElem?_set_iff hc).mpr (.inr ⟨hch, hx⟩), hs⟩
  · rw [hchans, hobjs, List.length_set]; exact h.owner

theorem shuts_le_one (h : s.Linked) {ch : Nat} {c : GroupChan} (hc : s.chans[ch]? = some c) : c.shuts ≤ 1 := by
  obtain ⟨g, o, ho, hp, rfl⟩ := h.owner ch (List.getElem?_eq_some_iff.mp hc).1
  obtain ⟨x, hx, hs⟩ := h.chan g o ho hp
  rw [hc] at hx; cases hx
  rw [hs]; exact o.stage.shuts_le_one

end ListenWorld.Linked

theorem ListenStep.linked (hst : ListenStep calls s e t) (hi : s.Inv calls) (h : s.Linked) : t.Linked := by
  cases e with
  | call => exact h.call hi (hst.objMove hi)
  | worker =>
    cases hst with
    | accept c hc | acceptFails c hc | deliver c _ _ hc | panics c _ hc => exact h.worker hc rfl rfl rfl

/-! ## A cycle that is over -/

theorem ListenStep.phase (hst : ListenStep calls s e t) (hi : s.Inv calls) {g : Nat} {o : GroupObj k}
    (ho : s.objs[g]? = some o) : ∃ o', t.objs[g]? = some o' ∧ o.stage.phase ≤ o'.stage.phase ∧
      (o.stage = .dead → o' = o) := by
  have hkeep : t.objs = s.objs → ∃ o', t.objs[g]? = some o' ∧ o.stage.phase ≤ o'.stage.phase ∧
      (o.stage = .dead → o' = o) := fun h => ⟨o, h ▸ ho, Nat.le_refl _, fun _ => rfl⟩
  have hset : ∀ {i g' st} {x x' : GroupObj k}, (s.pc i).stage = some (g', st) → s.objs[g']? = some x →
      t.objs = s.objs.set g' x' → st.phase ≤ x'.stage.phase →
      ∃ o', t.objs[g]? = some o' ∧ o.stage.phase ≤ o'.stage.phase ∧ (o.stage = .dead → o' = o) := by
    intro i g' st x x' hp hx hobjs hle
    rw [hobjs]
    by_cases hg : g = g'
    · subst hg
      rw [ho] at hx; cases hx
      obtain ⟨rfl, -⟩ := hi.known hp ho
      refine ⟨x', (getElem?_set_iff ho).mpr (.inl ⟨rfl, rfl⟩), hle, fun hd => ?_⟩
      rw [hd] at hp
      cases hpc : s.pc i <;> rw [hpc] at hp <;> cases hp
    · exact ⟨o, (getElem?_set_iff hx).mpr (.inr ⟨hg, ho⟩), Nat.le_refl _, fun _ => rfl⟩
  cases e with
  | worker => cases hst <;> exact hkeep rfl
  | call =>
    cases hst.objMove hi with
    | keep hobjs => exact hkeep hobjs
    | create hobjs =>
      refine ⟨o, hobjs ▸ getElem?_append_singleton_iff.mpr (.inl ⟨?_, ho⟩), Nat.le_refl _, fun _ => rfl⟩
      exact (List.getElem?_eq_some_iff.mp ho).1
    | set hp hx hobjs _ hle | close hp hx hobjs _ hle => exact hset hp hx hobjs hle
    | begin hp hx hobjs => exact hset hp hx hobjs (Nat.zero_le _)

end

end Frp
