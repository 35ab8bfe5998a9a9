import Frp.Fair
import Frp.ListenGroupChans

/-!
# Listener groups under any interleaving

The object of a group lives through one cycle, in which its real listener is opened and
closed once and what was acquired for it is given back once.
-/

namespace Frp

/-! ## Agreement -/

def GroupKind.Agree : (k : GroupKind) → k.Params → k.Params → Prop
  | tcp, p, q => TCPGroupParams.addr p = TCPGroupParams.addr q ∧ TCPGroupParams.port p = TCPGroupParams.port q
  | https, p, q => VhostParams.domain p = VhostParams.domain q
  | tcpmux, p, q => VhostParams.domain p = VhostParams.domain q ∧
      VhostParams.routeByHTTPUser p = VhostParams.routeByHTTPUser q ∧
      VhostParams.username p = VhostParams.username q ∧ VhostParams.password p = VhostParams.password q

open ListenWorld

theorem GroupKind.agree_of_mismatch : ∀ {k : GroupKind} {p q r : k.Params}, k.mismatch p q = none →
    k.mismatch p r = none → k.Agree q r
  | .tcp, p, q, r, hq, hr => by
    simp only [mismatch, TCPGroupParams.mismatch] at hq hr
    split_ifs at hq hr with h1 h2 h3 h4
    exact ⟨(not_not.mp h1).symm.trans (not_not.mp h3), (not_not.mp h2).symm.trans (not_not.mp h4)⟩
  | .https, p, q, r, hq, hr => by
    simp only [mismatch, httpsMismatch] at hq hr
    split_ifs at hq hr with h1 h2
    exact (not_not.mp h1).symm.trans (not_not.mp h2)
  | .tcpmux, p, q, r, hq, hr => by
    simp only [mismatch, tcpMuxMismatch] at hq hr
    split_ifs at hq hr with h1 h2
    simp only [not_or, not_not] at h1 h2
    exact ⟨h1.1.symm.trans h2.1, h1.2.1.symm.trans h2.2.1, h1.2.2.1.symm.trans h2.2.2.1,
      h1.2.2.2.symm.trans h2.2.2.2⟩

structure ListenCall.Agrees {k : GroupKind} (c d : ListenCall k) : Prop where
  group : c.group = d.group
  groupKey : c.groupKey = d.groupKey
  params : k.Agree c.params d.params

section
variable {k : GroupKind} {calls : Nat → ListenCall k} {s t : ListenWorld k} {e : ListenEvent}

variable {o : GroupObj k}

theorem ListenCall.Fits.agrees {c d : ListenCall k} (hc : c.Fits o) (hd : d.Fits o) : c.Agrees d := by
  obtain ⟨p, hp, hpc⟩ := hc.params
  obtain ⟨q, hq, hqd⟩ := hd.params
  rw [hp] at hq; cases hq
  exact ⟨hc.group.symm.trans hd.group, hc.groupKey.symm.trans hd.groupKey, GroupKind.agree_of_mismatch hpc hqd⟩

/-! ## Reachable states -/

theorem ListenWorld.ledger_of_reach (h : Reach ListenWorld.Init (ListenStep calls) s) : s.Ledger :=
  h.invariant (fun _ h => .init h) fun _ _ _ _ hi hst => hst.ledger hi

theorem ListenWorld.linked_of_reach (h : Reach ListenWorld.Init (ListenStep calls) s) : s.Linked :=
  h.invariant (fun _ h => .init h) fun _ _ _ hr hi hst => hst.linked (inv_of_reach hr) hi

structure ListenWorld.Sound (calls : Nat → ListenCall k) (s : ListenWorld k) : Prop where
  cycle : ∀ (g : Nat) (o : GroupObj k), s.objs[g]? = some o → o.opens ≤ 1 ∧ o.closes ≤ o.opens
  nonempty : ∀ (g : Nat) (o : GroupObj k), s.objs[g]? = some o → o.lns ≠ [] →
    o.opens = 1 ∧ o.closes = 0 ∧ o.acquires = o.releases ++ [o.real]
  empty : ∀ (g : Nat) (o : GroupObj k), s.objs[g]? = some o → o.lns = [] → s.mu g = none →
    o.closes = o.opens ∧ o.releases = o.acquires
  members : ∀ (g : Nat) (o : GroupObj k) (i : Nat), s.objs[g]? = some o →
    (i ∈ o.lns ↔ ∃ ch, (s.pc i).member = some (g, ch))
  unique : ∀ (g g' : Nat) (o o' : GroupObj k) (i j : Nat), s.objs[g]? = some o → s.objs[g']? = some o' → i ∈ o.lns →
    j ∈ o'.lns → (calls i).group = (calls j).group → g = g'
  agree : ∀ (g : Nat) (o : GroupObj k) (i j : Nat), s.objs[g]? = some o → i ∈ o.lns → j ∈ o.lns →
    (calls i).Agrees (calls j)
  shuts : ∀ (ch : Nat) (c : GroupChan), s.chans[ch]? = some c → c.shuts ≤ 1
  delivered : ∀ d ∈ s.deliveries, ∃ ch, s.accepts[d.1]? = some ch ∧ (s.pc d.2).chan = some ch
  conns : (s.deliveries.map Prod.fst ++ s.closedConns ++ s.chans.filterMap GroupChan.hand).Perm
    (List.range s.accepts.length)

variable {g : Nat}

theorem ListenWorld.Inv.idle (hi : s.Inv calls) (ho : s.objs[g]? = some o)
    (hlns : o.lns = []) (hfree : s.mu g = none) : o.stage = .fresh ∨ o.stage = .dead := by
  have hquiet : o.stage.transient = false := by
    by_contra htr
    obtain ⟨i, hp⟩ := hi.busy g o ho (by simpa using htr)
    rw [hi.locks i g (ListenPc.gate_of_stage hp)] at hfree; cases hfree
  have hactive : o.stage ≠ .active := by
    intro hst
    have hg := hi.good g o ho
    rw [GroupObj.Good, hst] at hg; exact hg.1 hlns
  cases hst : o.stage <;> simp_all [GroupStage.transient]

theorem GroupObj.Good.opens_le (h : o.Good) : o.opens ≤ 1 ∧ o.closes ≤ o.opens := by
  unfold GroupObj.Good at h
  cases hst : o.stage <;> rw [hst] at h <;> simp only [GroupObj.GoodAt] at h
  case half =>
    split_ifs at h <;> omega
  all_goals omega

theorem ListenWorld.sound_of_reach (h : Reach ListenWorld.Init (ListenStep calls) s) : s.Sound calls := by
  have hi := inv_of_reach h
  have hl := ledger_of_reach h
  have hfits : ∀ (g : Nat) (o : GroupObj k) (i : Nat), s.objs[g]? = some o → i ∈ o.lns → (calls i).Fits o := by
    intro g o i ho hm
    obtain ⟨ch, hp⟩ := hi.caller g o i ho hm
    obtain ⟨x, hx, -, -, hf⟩ := hi.member i g ch hp
    rw [ho] at hx; cases hx
    exact hf
  refine ⟨fun g o ho => (hi.good g o ho).opens_le, ?_, ?_, ?_, ?_, ?_,
    fun ch c hc => (linked_of_reach h).shuts_le_one hc, hl.delivered, hl.conns⟩
  · intro g o ho hne
    have hg := hi.good g o ho
    rw [GroupObj.Good, (hi.good g o ho).active hne] at hg; exact ⟨hg.2.2.2.1, hg.2.2.2.2, hg.2.2.1⟩
  · intro g o ho hlns hfree
    have hg := hi.good g o ho
    rcases hi.idle ho hlns hfree with hst | hst <;> rw [GroupObj.Good, hst] at hg
    · exact ⟨hg.2.2.2.trans hg.2.2.1.symm, hg.2.1.symm⟩
    · exact ⟨hg.2.2.2.2.trans hg.2.2.2.1.symm, hg.2.2.1.symm⟩
  · intro g o i ho
    refine ⟨hi.caller g o i ho, ?_⟩
    rintro ⟨ch, hp⟩
    obtain ⟨x, hx, hm, -⟩ := hi.member i g ch hp
    rw [ho] at hx; cases hx
    exact hm
  · intro g g' o o' i j ho ho' hi' hj' heq
    -- an object with members is the one its name has in the registry
    have hreg : ∀ (g : Nat) (o : GroupObj k) (i : Nat), s.objs[g]? = some o → i ∈ o.lns →
        s.groups (calls i).group = some g := by
      intro g o i ho hm
      have hg := hi.good g o ho
      have hst := hg.active (List.ne_nil_of_mem hm)
      have hcur := hi.current g o ho (by simp [hst])
      rw [GroupObj.Good, hst] at hg
      rw [← (hfits g o i ho hm).group, hg.2.1]; exact hcur
    have h1 := hreg g o i ho hi'
    rw [heq, hreg g' o' j ho' hj'] at h1; exact (Option.some.inj h1).symm
  · exact fun g o i j ho hi' hj' => (hfits g o i ho hi').agrees (hfits g o j ho hj')

/-! ## A spent object -/

theorem ListenWorld.phase_mono (hi : s.Inv calls) (ho : s.objs[g]? = some o)
    (ht : Reach (· = s) (ListenStep calls) t) :
    t.Inv calls ∧ ∃ o', t.objs[g]? = some o' ∧ o.stage.phase ≤ o'.stage.phase ∧ (o.stage = .dead → o' = o) := by
  refine ht.invariant (I := fun t => t.Inv calls ∧ ∃ o', t.objs[g]? = some o' ∧ o.stage.phase ≤ o'.stage.phase ∧
    (o.stage = .dead → o' = o)) ?_ ?_
  · rintro _ rfl; exact ⟨hi, o, ho, Nat.le_refl _, fun _ => rfl⟩
  · rintro u e u' - ⟨hi, x, hx, hle, hsame⟩ hstep
    obtain ⟨x', hx', hle', hsame'⟩ := hstep.phase hi hx
    exact ⟨hstep.inv hi, x', hx', by omega, fun hd => (hsame' (hsame hd ▸ hd)).trans (hsame hd)⟩

theorem GroupObj.Good.lns_of_phase (h : o.Good) (hp : o.stage.phase ≠ 1) : o.lns = [] := by
  unfold GroupObj.Good at h
  cases hst : o.stage <;> rw [hst] at h hp
  case active => exact absurd rfl hp
  all_goals exact h.1

theorem ListenWorld.spent_of_empty (h : Reach ListenWorld.Init (ListenStep calls) s) {o' : GroupObj k}
    (ho : s.objs[g]? = some o) (hne : o.lns ≠ []) (ht : Reach (· = s) (ListenStep calls) t)
    (ho' : t.objs[g]? = some o') (hlns : o'.lns = []) {u : ListenWorld k} (hu : Reach (· = t) (ListenStep calls) u) :
    ∃ x, u.objs[g]? = some x ∧ x.lns = [] ∧ (t.mu g = none → x = o' ∧ ∀ key, u.groups key ≠ some g) := by
  have hi := inv_of_reach h
  have hactive := (hi.good g o ho).active hne
  obtain ⟨hit, y, hy, hle, -⟩ := phase_mono hi ho ht
  rw [ho'] at hy; cases hy
  rw [hactive] at hle
  have hover : 2 ≤ o'.stage.phase := by
    rcases Nat.lt_or_eq_of_le hle with hlt | heq
    · exact hlt
    · have hg := hit.good g o' ho'
      have hst : o'.stage = .active := by cases hs : o'.stage <;> rw [hs] at heq <;> first | rfl | cases heq
      rw [GroupObj.Good, hst] at hg; exact absurd hlns hg.1
  obtain ⟨hiu, x, hx, hlex, hdead⟩ := phase_mono hit ho' hu
  refine ⟨x, hx, (hiu.good g x hx).lns_of_phase (by omega), fun hfree => ?_⟩
  have hst : o'.stage = .dead := by
    rcases hit.idle ho' hlns hfree with hst | hst
    · rw [hst] at hover; cases hover
    · exact hst
  have hxo := hdead hst
  refine ⟨hxo, fun key hkey => ?_⟩
  obtain ⟨y, hy, -, hnd⟩ := hiu.registered key g hkey
  rw [hx] at hy; cases hy
  exact hnd (hxo ▸ hst)

/-! ## Progress of a worker -/

def ListenWorld.InHand (s : ListenWorld k) (ch conn : Nat) : Prop :=
  ∃ c, s.chans[ch]? = some c ∧ c.worker = .sending conn

def ListenWorld.Gone (s : ListenWorld k) (conn : Nat) : Prop :=
  conn ∈ s.deliveries.map Prod.fst ∨ conn ∈ s.closedConns

variable {ch : Nat}

theorem ListenStep.inHand (hst : ListenStep calls s e t) {conn : Nat} (h : s.InHand ch conn) :
    e = .worker ch ∧ t.Gone conn ∨ e ≠ .worker ch ∧ t.InHand ch conn := by
  obtain ⟨c, hc, hw⟩ := h
  cases e with
  | call =>
    obtain ⟨c', hc', hw'⟩ := hst.callMove.chans.worker hc
    exact .inr ⟨nofun, c', hc', hw'.trans hw⟩
  | worker ch' =>
    by_cases hch : ch' = ch
    · subst hch
      refine .inl ⟨rfl, ?_⟩
      cases hst with
      | accept x hx hacc | acceptFails x hx hacc =>
        rw [hc] at hx; cases hx
        rw [hw] at hacc; cases hacc
      | deliver x conn' i hx hs =>
        rw [hc] at hx; cases hx
        rw [hw] at hs; cases hs
        exact .inl (by simp)
      | panics x conn' hx hs =>
        rw [hc] at hx; cases hx
        rw [hw] at hs; cases hs
        exact .inr (by simp)
    · refine .inr ⟨fun h => hch (ListenEvent.worker.inj h), c, ?_, hw⟩
      cases hst with
      | accept x hx | acceptFails x hx | deliver x _ _ hx | panics x _ hx =>
        exact (getElem?_set_iff hx).mpr (.inr ⟨Ne.symm hch, hc⟩)

theorem ListenWorld.conn_goes (ρ : Run (ListenStep calls)) (h0 : (ρ.state 0).Init) {conn n : Nat}
    (hf : ρ.Fair (· = .worker ch)) (hn : (ρ.state n).InHand ch conn) : ∃ m, n ≤ m ∧ (ρ.state m).Gone conn := by
  refine hf.reaches (P := fun s => s.InHand ch conn ∧ s.Ledger) (G := fun s => s.Gone conn) (fun _ => 0) ?_ ?_ n
    ⟨hn, ledger_of_reach (ρ.reach h0 n)⟩
  · rintro s e t ⟨h, hl⟩ - hst
    rcases hst.inHand h with ⟨-, hg⟩ | ⟨hne, h⟩
    · exact .inl hg
    · exact .inr ⟨⟨h, hst.ledger hl⟩, Nat.le_refl 0, fun he => absurd he hne⟩
  · rintro s ⟨⟨c, hc, hw⟩, hl⟩ -
    rcases Nat.eq_zero_or_pos c.shuts with hs | hs
    · obtain ⟨i, hi⟩ := hl.served ch c hc
      exact ⟨_, _, rfl, .deliver c conn i hc hw hs hi⟩
    · exact ⟨_, _, rfl, .panics c conn hc hw hs⟩

/-! ## Progress of `Close` -/

def ListenPc.closeRank : ListenPc → Nat
  | leaving _ _ => 5
  | last _ _ => 4
  | shut _ _ => 3
  | half _ _ => 2
  | cleaned _ _ => 1
  | _ => 0

variable {i : Nat}

theorem ListenStep.pc_of_ne (hst : ListenStep calls s e t) (hne : e ≠ .call i) : t.pc i = s.pc i := by
  cases e with
  | worker => cases hst <;> rfl
  | call j =>
    have hij : i ≠ j := fun h => hne (h ▸ rfl)
    cases hst with
    | removeIf =>
      unfold ListenWorld.removeIf
      split <;> exact Function.update_of_ne hij ..
    | _ => exact Function.update_of_ne hij ..

theorem ListenStep.closeRank_lt (hst : ListenStep calls s (.call i) t) (hrank : 0 < (s.pc i).closeRank)
    (hch : (s.pc i).chan = some ch) :
    t.pc i = .left ch ∨ 0 < (t.pc i).closeRank ∧ (t.pc i).chan = some ch ∧ (t.pc i).closeRank < (s.pc i).closeRank := by
  cases hst with
  | leave g _ o hp | removeIf g _ o hp =>
    rw [hp] at hch; cases hch
    exact .inl (Function.update_self ..)
  | leaveLast g _ o hp | closeAccept g _ o c hp | closeReal g _ o c hp | release g _ o hp | del g _ o hp
  | closeMuxer g _ o c hp =>
    rw [hp] at hch; cases hch
    refine .inr ?_
    simp only [goto, Function.update_self, hp]; exact ⟨Nat.succ_pos _, rfl, Nat.lt_succ_self _⟩
  | get g hp | create hp | unknownMultiplexer g hp | enter g hp | stale g hp | first g o hp | join g o hp
  | acquireFails g err hp | acquire g o r hp | netListenFails g o r err hp | netListen g o r hp
  | muxerListenFails g err hp | muxerListen g o r hp | init g o r hp | joined g o hp | refused g o err hp
  | close g ch hp | enterClose g ch hp => rw [hp] at hrank; cases hrank

theorem ListenWorld.close_enabled (hi : s.Inv calls) (hl : s.Linked) (hrank : 0 < (s.pc i).closeRank) :
    ∃ t, ListenStep calls s (.call i) t := by
  have hobj : ∀ {g a}, (s.pc i).stage = some (g, a) → ∃ o, s.objs[g]? = some o ∧
      (0 < a.phase → ∃ c, s.chans[o.ch]? = some c) := by
    intro g a hp
    obtain ⟨o, ho, rfl⟩ := hi.staged i g a hp
    refine ⟨o, ho, fun hph => ?_⟩
    obtain ⟨c, hc, -⟩ := hl.chan g o ho hph
    exact ⟨c, hc⟩
  cases hp : s.pc i with
  | leaving g ch =>
    obtain ⟨o, ho, -⟩ := hobj (g := g) (a := .active) (hp ▸ rfl)
    by_cases hnil : o.lns.erase i = []
    · exact ⟨_, .leaveLast g ch o hp ho hnil⟩
    · exact ⟨_, .leave g ch o hp ho hnil⟩
  | last g ch =>
    obtain ⟨o, ho, hc⟩ := hobj (g := g) (a := .emptied) (hp ▸ rfl)
    obtain ⟨c, hc⟩ := hc (by decide)
    exact ⟨_, .closeAccept g ch o c hp ho hc⟩
  | shut g ch =>
    obtain ⟨o, ho, hc⟩ := hobj (g := g) (a := .shut) (hp ▸ rfl)
    obtain ⟨c, hc⟩ := hc (by decide)
    by_cases hk : k = .tcp
    · exact ⟨_, .closeReal g ch o c hp hk ho hc⟩
    · exact ⟨_, .del g ch o hp hk ho⟩
  | half g ch =>
    obtain ⟨o, ho, hc⟩ := hobj (g := g) (a := .half) (hp ▸ rfl)
    obtain ⟨c, hc⟩ := hc (by decide)
    by_cases hk : k = .tcp
    · exact ⟨_, .release g ch o hp hk ho⟩
    · exact ⟨_, .closeMuxer g ch o c hp hk ho hc⟩
  | cleaned g ch =>
    obtain ⟨o, ho, -⟩ := hobj (g := g) (a := .cleaned) (hp ▸ rfl)
    exact ⟨_, .removeIf g ch o hp ho⟩
  | _ => rw [hp] at hrank; cases hrank

theorem ListenWorld.close_ends (ρ : Run (ListenStep calls)) (h0 : (ρ.state 0).Init) {n : Nat}
    (hf : ρ.Fair (· = .call i)) (hrank : 0 < ((ρ.state n).pc i).closeRank) (hch : ((ρ.state n).pc i).chan = some ch) :
    ∃ m, n ≤ m ∧ (ρ.state m).pc i = .left ch := by
  refine hf.reaches (P := fun s => (s.Inv calls ∧ s.Linked) ∧ 0 < (s.pc i).closeRank ∧ (s.pc i).chan = some ch)
    (G := fun s => s.pc i = .left ch) (fun s => (s.pc i).closeRank) ?_ ?_ n
    ⟨⟨inv_of_reach (ρ.reach h0 n), linked_of_reach (ρ.reach h0 n)⟩, hrank, hch⟩
  · rintro s e t ⟨⟨hi, hl⟩, hrank, hch⟩ - hst
    by_cases he : e = .call i
    · subst he
      rcases hst.closeRank_lt hrank hch with hleft | ⟨hr, hc, hlt⟩
      · exact .inl hleft
      · exact .inr ⟨⟨⟨hst.inv hi, hst.linked hi hl⟩, hr, hc⟩, Nat.le_of_lt hlt, fun _ => hlt⟩
    · refine .inr ⟨⟨⟨hst.inv hi, hst.linked hi hl⟩, ?_⟩, ?_, fun h => absurd h he⟩ <;> rw [hst.pc_of_ne he]
      exact ⟨hrank, hch⟩
  · rintro s ⟨⟨hi, hl⟩, hrank, -⟩ -
    obtain ⟨t, hst⟩ := close_enabled hi hl hrank
    exact ⟨_, t, rfl, hst⟩

/-! ## The result -/

/-- The groups are sound in every state. A connection in the hands of a worker who is not starved is
received by one `Accept` or closed. -/
theorem listener_groups_sound (k : GroupKind) (calls : Nat → ListenCall k) :
    (∀ s, Reach ListenWorld.Init (ListenStep calls) s → s.Sound calls) ∧
    (∀ s t u (g : Nat) (o o' : GroupObj k), Reach ListenWorld.Init (ListenStep calls) s → s.objs[g]? = some o →
      o.lns ≠ [] → Reach (· = s) (ListenStep calls) t → t.objs[g]? = some o' → o'.lns = [] →
      Reach (· = t) (ListenStep calls) u →
      ∃ x, u.objs[g]? = some x ∧ x.lns = [] ∧ (t.mu g = none → x = o' ∧ ∀ key, u.groups key ≠ some g)) ∧
    ∀ ρ : Run (ListenStep calls), (ρ.state 0).Init →
      (∀ ch conn n, ρ.Fair (· = .worker ch) → (ρ.state n).InHand ch conn → ∃ m, n ≤ m ∧ (ρ.state m).Gone conn) ∧
      ∀ i ch n, ρ.Fair (· = .call i) → 0 < ((ρ.state n).pc i).closeRank → ((ρ.state n).pc i).chan = some ch →
        ∃ m, n ≤ m ∧ (ρ.state m).pc i = .left ch :=
  ⟨fun _ h => sound_of_reach h,
    fun _ _ _ _ _ _ h ho hne ht ho' hlns hu => spent_of_empty h ho hne ht ho' hlns hu,
    fun ρ h0 => ⟨fun _ _ _ hf hn => conn_goes ρ h0 hf hn,
      fun _ _ _ hf hr hc => close_ends ρ h0 hf hr hc⟩⟩

end

def webCalls (_ : Nat) : ListenCall .tcp := ⟨[], lit "web", lit "key", (⟨lit "0.0.0.0", 6000⟩ : TCPGroupParams)⟩

theorem listener_groups_sound_cycle : ∃ s t o o', Reach ListenWorld.Init (ListenStep webCalls) s ∧
    Reach (· = s) (ListenStep webCalls) t ∧ s.objs[0]? = some o ∧ t.objs[0]? = some o' ∧
    (o.opens = 1 ∧ o.closes = 0 ∧ o.acquires = o.releases ++ [o.real]) ∧ t.deliveries = [(0, 0)] ∧
    (o'.lns = [] ∧ o'.opens = 1 ∧ o'.closes = 1 ∧ o'.releases = o'.acquires) ∧
    ∀ u, Reach (· = t) (ListenStep webCalls) u → u.objs[0]? = some o' := by
  obtain ⟨s, t, o, o', h, h', ho, hlns, ho', hfree, hdel, hend⟩ : ∃ s t o o',
      Reach ListenWorld.Init (ListenStep webCalls) s ∧ Reach (· = s) (ListenStep webCalls) t ∧
      s.objs[0]? = some o ∧ o.lns = [0] ∧ t.objs[0]? = some o' ∧ t.mu 0 = none ∧ t.deliveries = [(0, 0)] ∧
      o'.lns = [] ∧ o'.opens = 1 ∧ o'.closes = 1 ∧ o'.releases = o'.acquires := by
    have h : Reach ListenWorld.Init (ListenStep webCalls)
      ⟨fun _ => none, [], fun _ => none, fun _ => .idle, [], [], [], []⟩ := .start rfl
    have h := h
      |>.next (.create (i := 0) rfl rfl)
      |>.next (.enter (i := 0) 0 rfl nofun rfl)
      |>.next (.first (i := 0) 0 _ rfl rfl rfl rfl)
      |>.next (.acquire (i := 0) 0 _ 6000 rfl rfl rfl)
      |>.next (.netListen (i := 0) 0 _ 6000 rfl rfl)
      |>.next (.init (i := 0) 0 _ 6000 rfl rfl)
    have h' := h.here
    have h' := h'
      |>.next (@ListenStep.accept _ _ _ 0 _ rfl rfl rfl)
      |>.next (@ListenStep.deliver _ _ _ 0 _ 0 0 rfl rfl rfl rfl)
      |>.next (.close (i := 0) 0 0 rfl)
      |>.next (.enterClose (i := 0) 0 0 rfl rfl)
      |>.next (.leaveLast (i := 0) 0 0 _ rfl rfl rfl)
      |>.next (.closeAccept (i := 0) 0 0 _ _ rfl rfl rfl)
      |>.next (.closeReal (i := 0) 0 0 _ _ rfl rfl rfl rfl)
      |>.next (.release (i := 0) 0 0 _ rfl rfl rfl)
      |>.next (.removeIf (i := 0) 0 0 _ rfl rfl)
    exact ⟨_, _, _, _, h, h', rfl, rfl, rfl, rfl, rfl, rfl, rfl, rfl, rfl⟩
  obtain ⟨hsound, hspent, -⟩ := listener_groups_sound .tcp webCalls
  have hne : o.lns ≠ [] := hlns ▸ List.cons_ne_nil 0 []
  refine ⟨s, t, o, o', h, h', ho, ho', (hsound s h).nonempty 0 o ho hne, hdel, hend, fun u hu => ?_⟩
  obtain ⟨x, hx, -, hsame⟩ := hspent s t u 0 o o' h ho hne h' ho' hend.1 hu
  rw [hx, (hsame hfree).1]

end Frp
