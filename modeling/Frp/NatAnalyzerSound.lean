import Frp.HoleRecordsSound
import Frp.NatAnalyzer
import Frp.Slots

/-!
# Ports, roles and times of a session

The ports guessed for a peer are read from its slice of addresses after `slices.Compact` has
moved and cleared it: an address that follows an equal one leaves no ports.
-/

namespace Frp

/-! ## Candidate ports -/

theorem slicesCompact_of_isChain {s : List Str} (h : s.IsChain (· ≠ ·)) : (slicesCompact s).2 = s := by
  simp [slicesCompact, (List.destutter_eq_self_iff (· ≠ ·) s).mpr h]

theorem getLast?_slicesCompact {s : List Str} (h : ¬ s.IsChain (· ≠ ·)) : (slicesCompact s).2.getLast? = some [] := by
  have hsub := s.destutter_sublist (· ≠ ·)
  have hne : s.destutter (· ≠ ·) ≠ s := fun heq => h ((List.destutter_eq_self_iff (· ≠ ·) s).mp heq)
  have hlt : (s.destutter (· ≠ ·)).length < s.length :=
    Nat.lt_of_le_of_ne hsub.length_le fun heq => hne (hsub.eq_of_length heq)
  obtain ⟨k, hk⟩ : ∃ k, s.length - (s.destutter (· ≠ ·)).length = k + 1 :=
    ⟨s.length - (s.destutter (· ≠ ·)).length - 1, by omega⟩
  simp only [slicesCompact, hk, List.replicate_succ', ← List.append_assoc, List.getLast?_concat]

theorem getRangePorts_empty_last {addrs : List Str} (h : addrs.getLast? = some []) (d n : Int) :
    getRangePorts addrs d n = [] := by
  unfold getRangePorts
  rw [h]
  split
  · rfl
  · rfl

section
variable {addrs : List Str} {addr host portStr : Str} {p d n : Int}

def portsAround (p d n : Int) : CandidateRange :=
  ⟨max (max (p - d - 5) (p - n)) 1, min (min (p + d + 5) (p + n)) 65535⟩

theorem portsAround_mem (hp : 1 ≤ p ∧ p ≤ 65535) (hd : 0 ≤ d) (hn : 0 < n) :
    (portsAround p d n).fromPort ≤ p ∧ p ≤ (portsAround p d n).toPort := by
  simp only [portsAround]; omega

theorem getRangePorts_last (hlast : addrs.getLast? = some addr) (hsplit : addr.splitHostPort = some (host, portStr))
    (hport : atoi portStr = some p) (hn : 0 < n) :
    getRangePorts addrs d n =
      [{ fromPort := max (max (wrapInt (wrapInt (p - d) - 5)) (wrapInt (p - n))) 1
         toPort := min (min (wrapInt (wrapInt (p + d) + 5)) (wrapInt (p + n))) 65535 }] := by
  unfold getRangePorts
  rw [if_neg (by omega), hlast]; simp only [hsplit, hport]

theorem getRangePorts_eq_iff (hlast : addrs.getLast? = some addr)
    (hsplit : addr.splitHostPort = some (host, portStr)) (hport : atoi portStr = some p) (hp : 1 ≤ p ∧ p ≤ 65535)
    (hd : 0 ≤ d ∧ d < 2 ^ 63) (hn : 0 < n ∧ n < 2 ^ 63) :
    getRangePorts addrs d n = [portsAround p d n] ↔ p + d + 5 < 2 ^ 63 ∧ p + n < 2 ^ 63 := by
  rw [getRangePorts_last hlast hsplit hport hn.1]
  constructor
  · intro h
    have hto := congrArg CandidateRange.toPort (List.cons.inj h).1
    simp only [portsAround] at hto
    by_contra hover
    by_cases hsum : p + n < 2 ^ 63
    · by_cases hfirst : p + d < 2 ^ 63
      · rw [wrapInt_eq (by omega) hfirst, wrapInt_over (by omega) (by omega)] at hto; omega
      · rw [wrapInt_over (x := p + d) (by omega) (by omega), wrapInt_eq (by omega) (by omega)]
          at hto
        omega
    · rw [wrapInt_over (x := p + n) (by omega) (by omega)] at hto; omega
  · intro h
    rw [wrapInt_eq (x := p - d) (by omega) (by omega), wrapInt_eq (by omega) (by omega),
      wrapInt_eq (by omega) (by omega), wrapInt_eq (x := p + d) (by omega) (by omega),
      wrapInt_eq (by omega) (by omega), wrapInt_eq (by omega) (by omega)]
    rfl

/-- The candidate ports of a response are those around the last port exactly if no two neighbours of
the list are equal, which `slices.Compact` would remove, and the sums do not overflow. -/
theorem candidate_ports_iff (transactionID : Str) (sid : Nat) (protocol : Str) (mode : Nat) (assistedAddrs : List Str)
    (behavior : RecommandBehavior) (readTimeoutMs : Int) (fingerprint : Str) (hlast : addrs.getLast? = some addr)
    (hsplit : addr.splitHostPort = some (host, portStr)) (hport : atoi portStr = some p) (hp : 1 ≤ p ∧ p ≤ 65535)
    (hd : 0 ≤ d ∧ d < 2 ^ 63) (hn : 0 < behavior.portsRangeNumber ∧ behavior.portsRangeNumber < 2 ^ 63) :
    ((newNatHoleResponse transactionID sid protocol mode addrs assistedAddrs behavior readTimeoutMs d
        fingerprint).detectBehavior.candidatePorts = [portsAround p d behavior.portsRangeNumber] ↔
      addrs.IsChain (· ≠ ·) ∧ p + d + 5 < 2 ^ 63 ∧ p + behavior.portsRangeNumber < 2 ^ 63) ∧
    (portsAround p d behavior.portsRangeNumber).fromPort ≤ p ∧ p ≤ (portsAround p d behavior.portsRangeNumber).toPort ∧
    (¬ addrs.IsChain (· ≠ ·) →
      (newNatHoleResponse transactionID sid protocol mode addrs assistedAddrs behavior readTimeoutMs d
        fingerprint).detectBehavior.candidatePorts = []) := by
  have hempty : ¬ addrs.IsChain (· ≠ ·) →
      getRangePorts (slicesCompact addrs).2 d behavior.portsRangeNumber = [] :=
    fun h => getRangePorts_empty_last (getLast?_slicesCompact h) _ _
  obtain ⟨hfrom, hto⟩ := portsAround_mem hp hd.1 hn.1
  refine ⟨?_, hfrom, hto, hempty⟩
  simp only [newNatHoleResponse]
  by_cases hchain : addrs.IsChain (· ≠ ·)
  · rw [slicesCompact_of_isChain hchain, getRangePorts_eq_iff hlast hsplit hport hp hd hn]
    simp only [hchain, true_and]
  · rw [hempty hchain]
    simp only [hchain, false_and, iff_false]; exact (List.cons_ne_nil _ _).symm

end

theorem candidate_ports_iff_two :
    (newNatHoleResponse [] 0 [] 1 [lit "1.2.3.4:8000", lit "1.2.3.4:8003"] [] { portsRangeNumber := 10 } 5000 3
      []).detectBehavior.candidatePorts = [⟨7995, 8011⟩] := by
  have hlast : [lit "1.2.3.4:8000", lit "1.2.3.4:8003"].getLast? = some (lit "1.2.3.4:8003") := rfl
  have hsplit : (lit "1.2.3.4:8003").splitHostPort = some (lit "1.2.3.4", lit "8003") := by decide
  have hport : atoi (lit "8003") = some 8003 := by decide
  have h := candidate_ports_iff [] 0 [] 1 [] { portsRangeNumber := 10 } 5000 [] hlast hsplit hport (d := 3) (by decide)
    (by decide) (by decide)
  exact h.1.mpr ⟨by decide, by decide, by decide⟩

theorem candidate_ports_lost :
    (newNatHoleResponse [] 0 [] 1 [lit "1.2.3.4:8000", lit "1.2.3.4:8000"] [] { portsRangeNumber := 10 } 5000 0
        []).detectBehavior.candidatePorts = [] ∧
      (newNatHoleResponse [] 0 [] 1 [lit "1.2.3.4:9223372036854775807", lit "1.2.3.4:8000"] []
        { portsRangeNumber := 10 } 5000 (9223372036854775807 - 8000) []).detectBehavior.candidatePorts =
        [⟨7990, -9223372036854775804⟩] := by
  decide

/-! ## Roles -/

structure Recommandation.Proper (x : Recommandation) (c v : NatFeature) : Prop where
  index : x.index < (getBehaviorByMode x.mode).length
  roles : x.cBehavior.role = .sender ∧ x.vBehavior.role = .receiver ∨
    x.cBehavior.role = .receiver ∧ x.vBehavior.role = .sender
  mode1 : x.mode = 1 → (c.natType = .hardNAT → v.natType = .easyNAT → x.cBehavior.role = .sender) ∧
    (v.natType = .hardNAT → c.natType = .easyNAT → x.vBehavior.role = .sender)
  mode2 : x.mode = 2 → (c.natType = .hardNAT → v.natType = .easyNAT → x.cBehavior.role = .receiver) ∧
    (v.natType = .hardNAT → c.natType = .easyNAT → x.vBehavior.role = .receiver)
  mode4 : x.mode = 4 → (c.regularPortsChange = true → v.regularPortsChange = false → x.cBehavior.role = .sender) ∧
    (v.regularPortsChange = true → c.regularPortsChange = false → x.vBehavior.role = .sender)

theorem getBehaviorByMode_roles (mode : Nat) : ∀ b ∈ getBehaviorByMode mode,
    b.1.role = .sender ∧ b.2.role = .receiver ∨ b.1.role = .receiver ∧ b.2.role = .sender := by
  have h0 : ∀ b ∈ mode0Behaviors, b.1.role = .sender ∧ b.2.role = .receiver ∨
      b.1.role = .receiver ∧ b.2.role = .sender := by decide
  unfold getBehaviorByMode
  split
  · exact h0
  · decide
  · decide
  · decide
  · decide
  · exact h0

attribute [local simp] swapsHalves

section
variable {mode index : Nat} (h : index < (getBehaviorByMode mode).length) (c v : NatFeature)
include h

theorem recommandation_index : (recommandation c mode index).index < (getBehaviorByMode mode).length := by
  unfold recommandation
  simp only
  split
  · exact h
  · exact h

theorem recommandation_roles : (recommandation c mode index).cBehavior.role = .sender ∧
      (recommandation c mode index).vBehavior.role = .receiver ∨
    (recommandation c mode index).cBehavior.role = .receiver ∧
      (recommandation c mode index).vBehavior.role = .sender := by
  obtain ⟨b, hb⟩ : ∃ b, (getBehaviorByMode mode)[index]? = some b := ⟨_, List.getElem?_eq_getElem h⟩
  have hroles := getBehaviorByMode_roles mode b (List.mem_of_getElem? hb)
  simp only [recommandation, getBehaviorByModeAndIndex, hb, Option.getD_some]
  split
  · rcases hroles with hr | hr
    · exact .inr hr.symm
    · exact .inl hr.symm
  · exact hroles

theorem recommandation_swapped (hm : mode = 1 ∨ mode = 2 ∨ mode = 4) :
    (recommandation c mode index).cBehavior.role = (if swapsHalves c mode then .receiver else .sender) ∧
      (recommandation c mode index).vBehavior.role = (if swapsHalves c mode then .sender else .receiver) := by
  obtain ⟨b, hb⟩ : ∃ b, (getBehaviorByMode mode)[index]? = some b := ⟨_, List.getElem?_eq_getElem h⟩
  have hfirst : b.1.role = .sender ∧ b.2.role = .receiver := by
    have hmem := List.mem_of_getElem? hb
    have htable : ∀ m, m = 1 ∨ m = 2 ∨ m = 4 → ∀ b ∈ getBehaviorByMode m,
        b.1.role = .sender ∧ b.2.role = .receiver := by
      intro m hm
      rcases hm with rfl | rfl | rfl <;> decide
    exact htable mode hm b hmem
  simp only [recommandation, getBehaviorByModeAndIndex, hb, Option.getD_some]
  split
  · exact hfirst.symm
  · exact hfirst

theorem recommandation_proper : (recommandation c mode index).Proper c v := by
  have hmode : (recommandation c mode index).mode = mode := by
    unfold recommandation
    simp only
    split <;> rfl
  refine ⟨?_, recommandation_roles h c, fun hm => ?_, fun hm => ?_, fun hm => ?_⟩
  · rw [hmode]; exact recommandation_index h c
  · obtain rfl := hmode.symm.trans hm
    obtain ⟨hc, hv⟩ := recommandation_swapped h c (.inl rfl)
    exact ⟨fun hard _ => by simp [hc, hard], fun _ easy => by simp [hv, easy]⟩
  · obtain rfl := hmode.symm.trans hm
    obtain ⟨hc, hv⟩ := recommandation_swapped h c (.inr (.inl rfl))
    exact ⟨fun hard _ => by simp [hc, hard], fun _ easy => by simp [hv, easy]⟩
  · obtain rfl := hmode.symm.trans hm
    obtain ⟨hc, hv⟩ := recommandation_swapped h c (.inr (.inr rfl))
    exact ⟨fun regular _ => by simp [hc, regular], fun _ other => by simp [hv, other]⟩

end

/-! ## Records over the life of the analyzer -/

def MakeHoleRecords.Listed (r : MakeHoleRecords) : Prop :=
  r.scores.map BehaviorScore.id ≠ [] ∧
    ∀ q ∈ r.scores.map BehaviorScore.id, q.2 < (getBehaviorByMode q.1).length

theorem newMakeHoleRecords_listed (c v : NatFeature) (now : Int) : (newMakeHoleRecords c v now).Listed := by
  refine ⟨fun h => initialScores_ne_nil c v (List.map_eq_nil_iff.mp h), fun q hq => ?_⟩
  obtain ⟨x, hx, rfl⟩ := List.mem_map.mp hq
  refine initialScores_forall (P := fun x => x.id.2 < (getBehaviorByMode x.id.1).length) c v ?_ x hx
  intro mode _ a b _ _ y hy
  obtain ⟨rfl, hindex, -⟩ := mem_getBehaviorScoresByMode2 hy
  exact hindex

namespace MakeHoleRecords.Listed

variable {r : MakeHoleRecords}

theorem call (h : r.Listed) (x : RecordCall) : (r.call x).Listed := by
  unfold Listed
  rw [r.call_ids x]; exact h

theorem recommand_index (h : r.Listed) (now : Int) :
    (r.recommand now).2.2 < (getBehaviorByMode (r.recommand now).2.1).length :=
  h.2 _ (recommand_mem (fun hnil => h.1 (hnil ▸ rfl)) now)

end MakeHoleRecords.Listed

namespace AnalyzerWorld

variable {w w' : AnalyzerWorld} {e : AnalyzerEvent}

structure Inv (w : AnalyzerWorld) : Prop where
  heap : ∀ r ∈ w.analyzer.heap, r.Listed
  records : ∀ key p, w.analyzer.records key = some p → p < w.analyzer.heap.length
  calls : ∀ call ∈ w.calls, call.records < w.analyzer.heap.length
  reports : ∀ x ∈ w.reports, x.records < w.analyzer.heap.length
  results : ∀ call ∈ w.calls, ∀ x ∈ call.result, x.Proper call.c call.v

theorem Inv.init (h : w.Init) : w.Inv := by
  obtain ⟨d, rfl⟩ := h
  refine ⟨fun r hr => ?_, fun key p hp => ?_, fun call hc => ?_, fun x hx => ?_, fun call hc => ?_⟩
  · exact absurd hr List.not_mem_nil
  · cases hp
  · exact absurd hc List.not_mem_nil
  · exact absurd hx List.not_mem_nil
  · exact absurd hc List.not_mem_nil

theorem Inv.setRecords (h : w.Inv) {p : Nat} {r : MakeHoleRecords} (hr : r.Listed) :
    ({ w with analyzer := w.analyzer.setRecords p r } : AnalyzerWorld).Inv := by
  have hlen : (w.analyzer.setRecords p r).heap.length = w.analyzer.heap.length := List.length_set
  refine ⟨fun x hx => ?_, fun key q hq => ?_, fun call hc => ?_, fun x hx => ?_, h.results⟩
  · rcases List.mem_or_eq_of_mem_set hx with hx | rfl
    · exact h.heap x hx
    · exact hr
  · rw [hlen]; exact h.records key q hq
  · rw [hlen]; exact h.calls call hc
  · rw [hlen]; exact h.reports x hx

theorem Inv.recordsOf (h : w.Inv) (key : Str) (c v : NatFeature) (now : Int) :
    ({ w with analyzer := (w.analyzer.recordsOf key c v now).1 } : AnalyzerWorld).Inv ∧
      (w.analyzer.recordsOf key c v now).2 < (w.analyzer.recordsOf key c v now).1.heap.length := by
  unfold Analyzer.recordsOf
  split
  · rename_i p hp
    exact ⟨h, h.records key p hp⟩
  · have hlen : (w.analyzer.heap ++ [newMakeHoleRecords c v now]).length = w.analyzer.heap.length + 1 := by simp
    refine ⟨⟨fun r hr => ?_, fun k q hq => ?_, fun call hc => ?_, fun x hx => ?_, h.results⟩, ?_⟩
    · rcases List.mem_append.mp hr with hr | hr
      · exact h.heap r hr
      · rw [List.mem_singleton.mp hr]; exact newMakeHoleRecords_listed c v now
    · rw [hlen]
      rcases update_cases (· = some q) hq with ⟨-, hq⟩ | ⟨-, hq⟩
      · cases hq; exact Nat.lt_succ_self _
      · exact Nat.lt_succ_of_lt (h.records k q hq)
    · simp only
      rw [hlen]; exact Nat.lt_succ_of_lt (h.calls call hc)
    · simp only
      rw [hlen]; exact Nat.lt_succ_of_lt (h.reports x hx)
    · simp only
      rw [hlen]; exact Nat.lt_succ_self _

theorem Inv.step (h : w.Inv) (hs : AnalyzerStep w e w') : w'.Inv := by
  cases hs with
  | find key c v now =>
    obtain ⟨hw, hp⟩ := h.recordsOf key c v now
    refine ⟨hw.heap, hw.records, fun call hc => ?_, hw.reports, fun call hc => ?_⟩
    · rcases List.mem_append.mp hc with hc | hc
      · exact hw.calls call hc
      · rw [List.mem_singleton.mp hc]; exact hp
    · rcases List.mem_append.mp hc with hc | hc
      · exact h.results call hc
      · rw [List.mem_singleton.mp hc]; exact fun x hx => absurd hx (Option.not_mem_none x)
  | @recommand k call r now hk _ hr =>
    have hlisted := h.heap r (List.mem_of_getElem? hr)
    have hw := h.setRecords (p := call.records) (hlisted.call (.recommand now))
    have hcall := List.mem_of_getElem? hk
    refine ⟨hw.heap, hw.records, fun y hy => ?_, hw.reports, fun y hy => ?_⟩
    · rcases List.mem_or_eq_of_mem_set hy with hy | rfl
      · exact hw.calls y hy
      · exact hw.calls call hcall
    · rcases List.mem_or_eq_of_mem_set hy with hy | rfl
      · exact h.results y hy
      · intro x hx
        rw [← Option.some.inj hx]
        exact recommandation_proper (hlisted.recommand_index now) call.c call.v
  | @report key p mode index hp =>
    refine { h with reports := fun x hx => ?_ }
    rcases List.mem_append.mp hx with hx | hx
    · exact h.reports x hx
    · rw [List.mem_singleton.mp hx]; exact h.records key p hp
  | noRecord => exact h
  | @reported x before after r now hx hr =>
    have hlisted := h.heap r (List.mem_of_getElem? hr)
    have hw := h.setRecords (p := x.records) (hlisted.call (.reportSuccess x.mode x.index now))
    exact { hw with reports := fun y hy => hw.reports y (mem_of_mem_taken hx hy) }
  | clean =>
    refine { h with records := fun key p hp => ?_ }
    exact h.records key p (Option.mem_filter_iff.mp hp).1

theorem Reachable.inv (h : w.Reachable) : w.Inv :=
  h.invariant (fun _ hi => .init hi) fun _ _ _ _ hi hs => hi.step hs

theorem Inv.recommand_enabled (h : w.Inv) {k : Nat} {call : RecommandCall} (hk : w.calls[k]? = some call)
    (hr : call.result = none) (now : Int) : ∃ w', AnalyzerStep w (.recommand k now) w' :=
  ⟨_, .recommand now hk hr (List.getElem?_eq_getElem (h.calls call (List.mem_of_getElem? hk)))⟩

/-! ### Calls stay -/

def Later (old new : RecommandCall) : Prop :=
  new.c = old.c ∧ new.v = old.v ∧ ∀ x, old.result = some x → new.result = some x

theorem Later.refl (call : RecommandCall) : Later call call := ⟨rfl, rfl, fun _ h => h⟩

def KeepsCalls (w w' : AnalyzerWorld) : Prop :=
  ∀ (j : Nat) (call), w.calls[j]? = some call → ∃ call', w'.calls[j]? = some call' ∧ Later call call'

theorem KeepsCalls.refl (w : AnalyzerWorld) : w.KeepsCalls w := fun _ call hj => ⟨call, hj, .refl call⟩

theorem KeepsCalls.step (hs : AnalyzerStep w e w') : w.KeepsCalls w' := by
  intro j call hj
  have hlt : j < w.calls.length := (List.getElem?_eq_some_iff.mp hj).1
  cases hs with
  | find => exact ⟨call, by simp [List.getElem?_append_left hlt, hj], Later.refl call⟩
  | @recommand k old r now hk hnone =>
    by_cases heq : k = j
    · subst heq
      cases Option.some.inj (hk.symm.trans hj)
      refine ⟨_, List.getElem?_set_self hlt, rfl, rfl, fun x hx => ?_⟩
      rw [hnone] at hx; cases hx
    · exact ⟨call, by simp [List.getElem?_set_ne heq, hj], Later.refl call⟩
  | report | noRecord | reported | clean => exact ⟨call, hj, Later.refl call⟩

theorem find_call {key : Str} {c f : NatFeature} {now : Int} (hs : AnalyzerStep w (.find key c f now) w') :
    ∃ call, w'.calls[w.calls.length]? = some call ∧ call.c = c ∧ call.v = f := by
  cases hs; exact ⟨_, List.getElem?_concat_length, rfl, rfl⟩

end AnalyzerWorld

/-! ## Times -/

theorem natHoleResponses_times (sid : Nat) (cm : NatHoleClientMsg) (vm : NatHoleVisitorMsg) (c v : NatFeature)
    (x : Recommandation) :
    (natHoleResponses sid cm vm c v x).1.detectBehavior.sendDelayMs +
        (natHoleResponses sid cm vm c v x).1.detectBehavior.readTimeoutMs =
      (natHoleResponses sid cm vm c v x).2.detectBehavior.sendDelayMs +
        (natHoleResponses sid cm vm c v x).2.detectBehavior.readTimeoutMs ∧
    5000 ≤ (natHoleResponses sid cm vm c v x).1.detectBehavior.readTimeoutMs ∧
    5000 ≤ (natHoleResponses sid cm vm c v x).2.detectBehavior.readTimeoutMs := by
  have hle : max x.cBehavior.sendDelayMs x.vBehavior.sendDelayMs + 5000 ≤ timeoutMs x.cBehavior x.vBehavior := by
    unfold timeoutMs
    simp only
    split <;> omega
  simp only [natHoleResponses, newNatHoleResponse]; omega

/-- The behaviors recommanded are of a sender and a receiver that fit the two NATs, and both peers are
given the same time in all, of which 5 s are for reading. -/
theorem hole_roles_and_times {w : AnalyzerWorld} (h : w.Reachable) {k : Nat} {call : RecommandCall}
    (hk : w.calls[k]? = some call) :
    (call.result = none → ∀ now, ∃ w', AnalyzerStep w (.recommand k now) w') ∧
      ∀ x, call.result = some x → x.Proper call.c call.v ∧
        ∀ (sid : Nat) (cm : NatHoleClientMsg) (vm : NatHoleVisitorMsg) (vResp cResp : NatHoleAnswer),
          natHoleResponses sid cm vm call.c call.v x = (vResp, cResp) →
          vResp.detectBehavior.sendDelayMs + vResp.detectBehavior.readTimeoutMs =
            cResp.detectBehavior.sendDelayMs + cResp.detectBehavior.readTimeoutMs ∧
          5000 ≤ vResp.detectBehavior.readTimeoutMs ∧ 5000 ≤ cResp.detectBehavior.readTimeoutMs := by
  refine ⟨fun hnone now => h.inv.recommand_enabled hk hnone now, fun x hx => ⟨?_, ?_⟩⟩
  · exact h.inv.results call (List.mem_of_getElem? hk) x hx
  · intro sid cm vm vResp cResp hresp
    have := natHoleResponses_times sid cm vm call.c call.v x
    rw [hresp] at this; exact this

theorem hole_roles_and_times_mode1 :
    ∃ w : AnalyzerWorld, w.Reachable ∧ ∃ call x, w.calls[0]? = some call ∧ call.result = some x ∧ x.mode = 1 ∧
      x.Proper call.c call.v := by
  have h0 : AnalyzerWorld.Reachable { analyzer := { dataReserveDuration := 0 } } := .start ⟨0, rfl⟩
  have h1 := h0.next (.find _ [] ⟨.hardNAT, .portChanged, 3, true, false⟩ ⟨.easyNAT, .noChange, 0, false, false⟩ 0)
  have h2 := h1.next (.recommand (k := 0) 0 rfl rfl rfl)
  exact ⟨_, h2, _, _, rfl, rfl, by decide, ((hole_roles_and_times h2 (k := 0) rfl).2 _ rfl).1⟩

end Frp
