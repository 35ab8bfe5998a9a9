import Frp.HoleRecords

/-!
# Scores over time

No call brings a score over ten. A recommendation lowers the greatest score, so a score
falls below minus ten exactly when a behaviour is asked for while none is above.
-/

namespace Frp

open BehaviorScore MakeHoleRecords

theorem mem_raiseScore {mode index : Nat} {l : List BehaviorScore} {x : BehaviorScore}
    (h : x ∈ raiseScore mode index l) : x ∈ l ∨ ∃ y ∈ l, x.score = min (y.score + 2) 10 := by
  induction l with
  | nil => cases h
  | cons y rest ih =>
    unfold raiseScore at h
    split at h
    · rcases List.mem_cons.mp h with rfl | h
      · exact .inl List.mem_cons_self
      · rcases ih h with hx | ⟨z, hz, hx⟩
        · exact .inl (List.mem_cons_of_mem _ hx)
        · exact .inr ⟨z, List.mem_cons_of_mem _ hz, hx⟩
    · rcases List.mem_cons.mp h with rfl | h
      · exact .inr ⟨y, List.mem_cons_self, rfl⟩
      · exact .inl (List.mem_cons_of_mem _ h)

/-! ## The range of the scores -/

namespace MakeHoleRecords

variable {r : MakeHoleRecords}

def InRange (r : MakeHoleRecords) : Prop := ∀ x ∈ r.scores, -10 ≤ x.score ∧ x.score ≤ 10

def HasRoom (r : MakeHoleRecords) : Prop := ∃ x ∈ r.scores, -10 < x.score

theorem mem_call_score {c : RecordCall} {x : BehaviorScore} (h : x ∈ (r.call c).scores) :
    x ∈ r.scores ∨ (∃ m ∈ r.scores, (∀ y ∈ r.scores, y.score ≤ m.score) ∧ x.score = m.score - 1 ∧
      ∃ now, c = .recommand now) ∨ ∃ y ∈ r.scores, x.score = min (y.score + 2) 10 := by
  cases c with
  | recommand now =>
    rw [call, recommand_scores] at h
    rcases mem_lower h with hx | ⟨m, hm, hmax, rfl⟩
    · exact .inl hx
    · exact .inr (.inl ⟨m, hm, hmax, rfl, now, rfl⟩)
  | reportSuccess =>
    rcases mem_raiseScore h with hx | hx
    · exact .inl hx
    · exact .inr (.inr hx)

theorem call_le_ten (h : ∀ x ∈ r.scores, x.score ≤ 10) (c : RecordCall) : ∀ x ∈ (r.call c).scores, x.score ≤ 10 := by
  intro x hx
  rcases mem_call_score hx with hx | ⟨m, hm, -, hx, -⟩ | ⟨y, -, hx⟩
  · exact h x hx
  · have := h m hm
    omega
  · omega

theorem run_le_ten (h : ∀ x ∈ r.scores, x.score ≤ 10) (calls : List RecordCall) :
    ∀ x ∈ (r.run calls).scores, x.score ≤ 10 := by
  induction calls generalizing r with
  | nil => exact h
  | cons c calls ih => exact ih (call_le_ten h c)

theorem InRange.call {c : RecordCall} (h : r.InRange) (hc : ∀ now, c = .recommand now → r.HasRoom) :
    (r.call c).InRange := by
  intro x hx
  rcases mem_call_score hx with hx | ⟨m, hm, hmax, hx, now, rfl⟩ | ⟨y, hy, hx⟩
  · exact h x hx
  · obtain ⟨y, hy, hroom⟩ := hc now rfl
    have := hmax y hy
    have := h m hm
    omega
  · have := h y hy
    omega

theorem not_inRange_recommand (hne : r.scores ≠ []) (hroom : ¬ r.HasRoom) (now : Int) :
    ¬ (r.call (.recommand now)).InRange := by
  intro h
  obtain ⟨i, hi⟩ := exists_firstMax score hne
  obtain ⟨m, -, hm, -⟩ := firstMax_eq_some hi
  have hget : (r.call (.recommand now)).scores[i]? = some m.lessOne := by
    rw [call, recommand_scores, lower_eq hi, List.getElem?_modify_eq, hm]; rfl
  have hlow := (h _ (List.mem_of_getElem? hget)).1
  rw [lessOne_score] at hlow; exact hroom ⟨m, List.mem_of_getElem? hm, by omega⟩

theorem run_append (r : MakeHoleRecords) (calls later : List RecordCall) :
    r.run (calls ++ later) = (r.run calls).run later := List.foldl_append

theorem run_ne_nil (hne : r.scores ≠ []) (calls : List RecordCall) : (r.run calls).scores ≠ [] := by
  intro h
  have hids := r.run_ids calls
  rw [h] at hids; exact hne (List.map_eq_nil_iff.mp hids.symm)

theorem inRange_run_iff (h : r.InRange) (hne : r.scores ≠ []) (calls : List RecordCall) :
    (∀ before after, calls = before ++ after → (r.run before).InRange) ↔
      ∀ before now after, calls = before ++ .recommand now :: after → (r.run before).HasRoom := by
  constructor
  · intro hrange before now after hcalls
    by_contra hroom
    refine not_inRange_recommand (run_ne_nil hne before) hroom now ?_
    have := hrange (before ++ [.recommand now]) after (by rw [hcalls, List.append_assoc]; rfl)
    rw [run_append] at this; exact this
  · intro hroom before
    -- the last of the calls made so far
    induction before using List.reverseRecOn with
    | nil => exact fun _ _ => h
    | append_singleton before c ih =>
      intro after hcalls
      rw [List.append_assoc] at hcalls
      have hbefore := ih _ hcalls
      rw [run_append]
      refine hbefore.call fun now hc => ?_
      subst hc; exact hroom before now after hcalls

end MakeHoleRecords

theorem initialScores_forall {P : BehaviorScore → Prop} (c v : NatFeature)
    (h : ∀ mode, mode ≤ 4 → ∀ a b : Int, 0 ≤ a ∧ a ≤ 1 → 0 ≤ b ∧ b ≤ 1 →
      ∀ x ∈ getBehaviorScoresByMode2 mode a b, P x) : ∀ x ∈ initialScores c v, P x := by
  have h0 : ∀ x ∈ mode0Scores c v, P x := by
    unfold mode0Scores getBehaviorScoresByMode
    split
    · exact h 0 (by omega) 0 1 (by omega) (by omega)
    · split
      · exact h 0 (by omega) 1 0 (by omega) (by omega)
      · exact h 0 (by omega) 0 0 (by omega) (by omega)
  have hz : ∀ mode, mode ≤ 4 → ∀ x ∈ getBehaviorScoresByMode mode 0, P x := fun mode hm =>
    h mode hm 0 0 (by omega) (by omega)
  have ho : ∀ mode, mode ≤ 4 → ∀ x ∈ getBehaviorScoresByMode mode 1, P x := fun mode hm =>
    h mode hm 1 1 (by omega) (by omega)
  have happend : ∀ {l l' : List BehaviorScore}, (∀ x ∈ l, P x) → (∀ x ∈ l', P x) → ∀ x ∈ l ++ l', P x :=
    fun h h' => List.forall_mem_append.mpr ⟨h, h'⟩
  unfold initialScores
  split
  · exact h0
  · exact happend (happend (hz 1 (by omega)) (hz 2 (by omega))) h0
  · exact happend (happend (hz 2 (by omega)) (hz 1 (by omega))) h0
  · exact happend (hz 3 (by omega)) (hz 4 (by omega))
  · exact hz 4 (by omega)
  · exact happend (happend (ho 0 (by omega)) (ho 1 (by omega))) (ho 3 (by omega))

theorem mem_getBehaviorScoresByMode2 {mode : Nat} {a b : Int} {x : BehaviorScore}
    (h : x ∈ getBehaviorScoresByMode2 mode a b) :
    x.mode = mode ∧ x.index < (getBehaviorByMode mode).length ∧ (x.score = a ∨ x.score = b) := by
  obtain ⟨i, hi, rfl⟩ := List.mem_mapIdx.mp h
  refine ⟨rfl, hi, ?_⟩
  simp only
  split
  · exact .inl rfl
  · exact .inr rfl

theorem newMakeHoleRecords_inRange (c v : NatFeature) (now : Int) : (newMakeHoleRecords c v now).InRange := by
  refine initialScores_forall c v fun mode _ a b ha hb x hx => ?_
  obtain ⟨-, -, hs | hs⟩ := mem_getBehaviorScoresByMode2 hx
  · omega
  · omega

theorem initialScores_ne_nil (c v : NatFeature) : initialScores c v ≠ [] := by
  have h0 : mode0Scores c v ≠ [] := by
    unfold mode0Scores
    split
    · decide
    · split <;> decide
  unfold initialScores
  split
  · exact h0
  · exact List.append_ne_nil_of_right_ne_nil _ h0
  · exact List.append_ne_nil_of_right_ne_nil _ h0
  · decide
  · decide
  · decide

/-- No score exceeds 10, and all stay in the range if and only if every call of `recommand` finds one
above -10. -/
theorem scores_in_range_iff (c v : NatFeature) (now : Int) (calls : List RecordCall) :
    (∀ x ∈ ((newMakeHoleRecords c v now).run calls).scores, x.score ≤ 10) ∧
      ((∀ before after, calls = before ++ after → ((newMakeHoleRecords c v now).run before).InRange) ↔
        ∀ before t after, calls = before ++ .recommand t :: after →
          ((newMakeHoleRecords c v now).run before).HasRoom) := by
  have h := newMakeHoleRecords_inRange c v now
  exact ⟨run_le_ten (fun x hx => (h x hx).2) calls,
    inRange_run_iff h (initialScores_ne_nil c v) calls⟩

theorem score_below_range :
    ∃ x ∈ ((newMakeHoleRecords ⟨.hardNAT, .portChanged, 3, true, false⟩ ⟨.hardNAT, .portChanged, 900, false, false⟩
      0).run (List.replicate 31 (.recommand 0))).scores, x.score < -10 := by
  decide

/-! ## Every behaviour has its turn -/

namespace MakeHoleRecords

variable {r : MakeHoleRecords}

theorem recommands_getElem? {nows : List Int} {j i : Nat} (hj : j < nows.length)
    (hi : firstMax BehaviorScore.score ((lower BehaviorScore.score BehaviorScore.lessOne)^[j] r.scores) = some i) :
    (r.recommands nows)[j]? = (r.scores.map BehaviorScore.id)[i]? := by
  induction nows generalizing r j with
  | nil => cases hj
  | cons now nows ih =>
    cases j with
    | zero =>
      obtain ⟨m, hm, hget, -⟩ := firstMax_eq_some hi
      rw [Function.iterate_zero, id_eq] at hm hget
      simp only [recommands, List.getElem?_cons_zero, recommand, hm, List.getElem?_map, hget]; rfl
    | succ =>
      have hids := r.call_ids (.recommand now)
      rw [Function.iterate_succ_apply, ← recommand_scores r now] at hi
      rw [recommands, List.getElem?_cons_succ, ih (Nat.lt_of_succ_lt_succ hj) hi]
      exact congrArg (·[i]?) hids

theorem mem_recommands {x : BehaviorScore} (hx : x ∈ r.scores) {nows : List Int}
    (hn : excess BehaviorScore.score x.score r.scores ≤ nows.length) : x.id ∈ r.recommands nows := by
  obtain ⟨i, hget⟩ := List.mem_iff_getElem?.mp hx
  obtain ⟨j, hj, hi⟩ := exists_round BehaviorScore.lessOne_score hget hn
  refine List.mem_of_getElem? (i := j) ?_
  rw [recommands_getElem? hj hi, List.getElem?_map, hget]; rfl

end MakeHoleRecords

theorem excess_score_eq {l : List BehaviorScore} {m : Int} (hm : ∀ x ∈ l, m ≤ x.score) :
    (excess score m l : Int) = (l.map fun x => x.score - m).sum + l.length := by
  induction l with
  | nil => rfl
  | cons x l ih =>
    have hx := hm x List.mem_cons_self
    have := ih fun y hy => hm y (List.mem_cons_of_mem _ hy)
    simp only [excess, List.map_cons, List.sum_cons, List.length_cons] at this ⊢; omega

/-- As many calls as the scores exceed their minimum, and one for each, recommand every behavior. -/
theorem every_behavior_recommanded (r : MakeHoleRecords) (m : Int) (hm : ∀ x ∈ r.scores, m ≤ x.score)
    (nows : List Int) (hn : (r.scores.map fun x => x.score - m).sum + r.scores.length ≤ nows.length) :
    ∀ x ∈ r.scores, (x.mode, x.index) ∈ r.recommands nows := by
  intro x hx
  refine mem_recommands hx ?_
  have hle := excess_mono score (l := r.scores) (hm x hx)
  have heq := excess_score_eq hm
  omega

theorem every_behavior_recommanded_six :
    let r : MakeHoleRecords := ⟨[⟨4, 0, 1⟩, ⟨4, 1, 2⟩, ⟨4, 2, 0⟩], 0⟩
    (∀ x ∈ r.scores, (0 : Int) ≤ x.score) ∧
      ∀ x ∈ r.scores, (x.mode, x.index) ∈ r.recommands (List.replicate 6 0) :=
  ⟨by decide, every_behavior_recommanded _ 0 (by decide) _ (by decide)⟩

theorem behavior_not_recommanded :
    let r := (newMakeHoleRecords ⟨.hardNAT, .portChanged, 3, true, false⟩ ⟨.hardNAT, .portChanged, 900, false, false⟩
      0).run (List.replicate 5 (.reportSuccess 4 0 0) ++ List.replicate 5 (.reportSuccess 4 1 0))
    r.scores = [⟨4, 0, 10⟩, ⟨4, 1, 10⟩, ⟨4, 2, 0⟩] ∧ (r.scores.map fun x => 10 - x.score).sum = 10 ∧
      (4, 2) ∉ r.recommands (List.replicate (10 + 3) 0) := by
  decide

end Frp
