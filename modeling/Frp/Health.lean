import Frp.NatClassify
import Mathlib.Data.List.Induction

/-!
# Health checks

The loop of `checkWorker` of `client/health/health.go` on the results of its checks. The
failed checks are counted and the counter is never set back, neither by a success nor when
the status changes.
-/

namespace Frp

inductive StatusCall
  | normal
  | failed
  deriving DecidableEq

/-- `maxFailedTimes` as `NewMonitor` leaves it, and whether the two callbacks are there. -/
structure MonitorCfg where
  maxFailedTimes : Int
  statusNormalFn : Bool
  statusFailedFn : Bool
  one_le : 1 ≤ maxFailedTimes

structure Monitor where
  failedTimes : UInt64 := 0
  statusOK : Bool := false

namespace MonitorCfg

def newMonitor (maxFailed : Int) (statusNormalFn statusFailedFn : Bool) : MonitorCfg where
  maxFailedTimes := if maxFailed ≤ 0 then 1 else maxFailed
  statusNormalFn := statusNormalFn
  statusFailedFn := statusFailedFn
  one_le := by split <;> omega

def recovers (cfg : MonitorCfg) (m : Monitor) : Bool := !m.statusOK && cfg.statusNormalFn

def exceeds (cfg : MonitorCfg) (m : Monitor) : Bool :=
  m.statusOK && cfg.maxFailedTimes ≤ wrapInt m.failedTimes.toNat && cfg.statusFailedFn

def check (cfg : MonitorCfg) (m : Monitor) (ok : Bool) : Monitor × Option StatusCall :=
  if ok then if cfg.recovers m then ({ m with statusOK := true }, some .normal) else (m, none)
  else if cfg.exceeds ⟨m.failedTimes + 1, m.statusOK⟩ then (⟨m.failedTimes + 1, false⟩, some .failed)
  else (⟨m.failedTimes + 1, m.statusOK⟩, none)

def after (cfg : MonitorCfg) (results : List Bool) : Monitor := results.foldl (fun m ok => (cfg.check m ok).1) {}

def calls (cfg : MonitorCfg) : Monitor → List Bool → List StatusCall
  | _, [] => []
  | m, ok :: rest => (cfg.check m ok).2.toList ++ cfg.calls (cfg.check m ok).1 rest

end MonitorCfg

def Monitor.lastCall (m : Monitor) : StatusCall := if m.statusOK then .normal else .failed

attribute [local simp] Monitor.lastCall

namespace MonitorCfg

variable {cfg : MonitorCfg} {m : Monitor} {ok : Bool} {c : StatusCall} {pre : List Bool}

theorem check_cases (cfg : MonitorCfg) (m : Monitor) (ok : Bool) :
    ok = true ∧ m.statusOK = false ∧ cfg.check m ok = (⟨m.failedTimes, true⟩, some .normal) ∨
      (ok = false ∧ m.statusOK = true ∧
        (cfg.statusFailedFn = true ∧ cfg.maxFailedTimes ≤ wrapInt (m.failedTimes + 1).toNat) ∧
        cfg.check m ok = (⟨m.failedTimes + 1, false⟩, some .failed)) ∨
      cfg.check m ok = (⟨if ok then m.failedTimes else m.failedTimes + 1, m.statusOK⟩, none) := by
  unfold check
  cases ok with
  | true =>
    by_cases hr : cfg.recovers m = true
    · have hr' := hr
      simp only [recovers, Bool.and_eq_true, Bool.not_eq_true'] at hr'
      exact .inl ⟨rfl, hr'.1, by rw [if_pos rfl, if_pos hr]⟩
    · simp [hr]
  | false =>
    by_cases he : cfg.exceeds ⟨m.failedTimes + 1, m.statusOK⟩ = true
    · have he' := he
      simp only [exceeds, Bool.and_eq_true, decide_eq_true_eq] at he'
      exact .inr (.inl ⟨rfl, he'.1.1, ⟨he'.2, he'.1.2⟩, by rw [if_neg (by decide), if_pos he]⟩)
    · simp [he]

theorem check_call (h : (cfg.check m ok).2 = some c) : (cfg.check m ok).1.lastCall = c ∧ m.lastCall ≠ c := by
  obtain ⟨-, hs, hc⟩ | ⟨-, hs, -, hc⟩ | hc := check_cases cfg m ok
  · rw [hc] at h ⊢; cases h
    simp [hs]
  · rw [hc] at h ⊢; cases h
    simp [hs]
  · simp [hc] at h

theorem check_quiet (h : (cfg.check m ok).2 = none) : (cfg.check m ok).1.lastCall = m.lastCall := by
  obtain ⟨-, -, hc⟩ | ⟨-, -, -, hc⟩ | hc := check_cases cfg m ok
  · simp [hc] at h
  · simp [hc] at h
  · simp [hc]

theorem check_failed (h : (cfg.check m ok).2 = some .failed) :
    m.statusOK = true ∧ ok = false ∧ cfg.statusFailedFn = true ∧
      cfg.maxFailedTimes ≤ wrapInt (m.failedTimes + 1).toNat := by
  obtain ⟨-, -, hc⟩ | ⟨hok, hs, hmax, -⟩ | hc := check_cases cfg m ok
  · simp [hc] at h
  · exact ⟨hs, hok, hmax⟩
  · simp [hc] at h

theorem calls_alternate (results : List Bool) :
    ∀ m : Monitor, (m.lastCall :: cfg.calls m results).IsChain (· ≠ ·) := by
  induction results with
  | nil => exact fun m => List.IsChain.singleton _
  | cons ok rest ih =>
    intro m
    have hrest := ih (cfg.check m ok).1
    unfold calls
    cases hc : (cfg.check m ok).2 with
    | none => rw [check_quiet hc] at hrest; exact hrest
    | some =>
      obtain ⟨hlast, hne⟩ := check_call hc
      rw [hlast] at hrest; exact List.IsChain.cons_cons hne hrest

/-! ## Counting -/

theorem check_failedTimes : (cfg.check m ok).1.failedTimes = if ok then m.failedTimes else m.failedTimes + 1 := by
  obtain ⟨rfl, -, hc⟩ | ⟨rfl, -, -, hc⟩ | hc := check_cases cfg m ok
  · simp [hc]
  · simp [hc]
  · rw [hc]

theorem after_append (ok : Bool) : cfg.after (pre ++ [ok]) = (cfg.check (cfg.after pre) ok).1 := by
  simp [after]

theorem after_failedTimes (pre : List Bool) : (cfg.after pre).failedTimes = UInt64.ofNat (pre.count false) := by
  induction pre using List.reverseRecOn with
  | nil => rfl
  | append_singleton pre ok ih =>
    rw [after_append, check_failedTimes, ih, List.count_append]
    cases ok with
    | true => simp
    | false => simp [UInt64.ofNat_add]

theorem wrapInt_toNat_le (n : UInt64) : wrapInt n.toNat ≤ n.toNat := by
  have hlt := n.toNat_lt
  by_cases h : (n.toNat : Int) < 2 ^ 63
  · exact Int.le_of_eq (wrapInt_eq (by omega) h)
  · rw [wrapInt_over (by omega) (by omega)]; omega

theorem failed_count (h : (cfg.check (cfg.after pre) ok).2 = some .failed) :
    cfg.maxFailedTimes ≤ (pre ++ [ok]).count false := by
  obtain ⟨-, rfl, -, hmax⟩ := check_failed h
  have hle := wrapInt_toNat_le ((cfg.after pre).failedTimes + 1)
  have hcount : ((cfg.after pre).failedTimes + 1).toNat ≤ (pre ++ [false]).count false := by
    rw [after_failedTimes, ← UInt64.ofNat_one, ← UInt64.ofNat_add, UInt64.toNat_ofNat', List.count_append]
    exact Nat.mod_le _ _
  omega

theorem exceeds_iff (h : cfg.statusFailedFn = true) (hok : (cfg.after pre).statusOK = true)
    (hlt : pre.count false + 1 < 2 ^ 63) :
    cfg.exceeds ⟨(cfg.after pre).failedTimes + 1, (cfg.after pre).statusOK⟩ = true ↔
      cfg.maxFailedTimes ≤ pre.count false + 1 := by
  have hn : ((cfg.after pre).failedTimes + 1).toNat = pre.count false + 1 := by
    rw [after_failedTimes, UInt64.toNat_add, UInt64.toNat_ofNat']
    simp only [UInt64.toNat_one]; omega
  simp only [exceeds, hok, h, hn, Bool.true_and, Bool.and_true, decide_eq_true_eq]
  rw [wrapInt_eq (by omega) (by omega)]; rfl

theorem count_lt_of_ok (h : cfg.statusFailedFn = true) (hok : (cfg.after (pre ++ [false])).statusOK = true)
    (hlt : pre.count false + 1 < 2 ^ 63) : pre.count false + 1 < cfg.maxFailedTimes := by
  rw [after_append, check, if_neg (by decide)] at hok
  by_cases he : cfg.exceeds ⟨(cfg.after pre).failedTimes + 1, (cfg.after pre).statusOK⟩ = true
  · rw [if_pos he] at hok; cases hok
  · rw [if_neg he] at hok
    rw [exceeds_iff h hok hlt] at he; omega

end MonitorCfg

def NoRecovery (results : List Bool) : Prop := results.Pairwise fun a b => b = true → a = true

theorem noRecovery_suffix {results : List Bool} (h : NoRecovery results) :
    List.replicate (results.count false) false <:+ results := by
  induction results with
  | nil => simp
  | cons a rest ih =>
    obtain ⟨ha, hrest⟩ := List.pairwise_cons.mp h
    cases a with
    | true =>
      rw [List.count_cons_of_ne (by decide)]; exact (ih hrest).trans (List.suffix_cons true rest)
    | false =>
      have hall : ∀ b ∈ false :: rest, b = false := by
        intro b hb
        cases hb with
        | head => rfl
        | tail _ hb =>
          cases b with
          | false => rfl
          | true => exact (ha true hb rfl).symm
      refine ⟨[], ?_⟩
      rw [List.nil_append, List.count_eq_length.mpr fun b hb => (hall b hb).symm]
      exact (List.eq_replicate_length.mpr hall).symm

theorem noRecovery_of_count {pre : List Bool} {n : Nat} (hsuffix : List.replicate n false <:+ pre)
    (hcount : pre.count false ≤ n) : NoRecovery pre := by
  obtain ⟨before, rfl⟩ := hsuffix
  rw [List.count_append, List.count_replicate_self] at hcount
  have hbefore : ∀ a ∈ before, a = true := by
    intro a ha
    by_contra hne
    have hpos := List.count_pos_iff.mpr (eq_false_of_ne_true hne ▸ ha)
    omega
  refine List.pairwise_append.mpr ⟨?_, List.pairwise_replicate.mpr (.inr id), fun a ha b _ _ => hbefore a ha⟩
  exact List.pairwise_of_forall_mem_list fun a ha b _ _ => hbefore a ha

namespace MonitorCfg

variable {cfg : MonitorCfg}

theorem suffix_of_noRecovery {pre : List Bool} (h : NoRecovery pre)
    (hcall : (cfg.check (cfg.after pre) false).2 = some .failed) :
    List.replicate cfg.maxFailedTimes.toNat false <:+ pre ++ [false] := by
  have hcount := failed_count hcall
  rw [List.count_append, List.count_singleton_self] at hcount
  have hlast : List.replicate (pre.count false + 1) false <:+ pre ++ [false] := by
    rw [List.replicate_succ']
    exact (List.suffix_append_inj_of_length_eq rfl).mpr ⟨noRecovery_suffix h, rfl⟩
  refine List.IsSuffix.trans ?_ hlast
  exact ⟨List.replicate (pre.count false + 1 - cfg.maxFailedTimes.toNat) false, by
    rw [List.replicate_append_replicate]; congr 1; omega⟩

theorem noRecovery_of_suffix {pre : List Bool} (hmax : cfg.maxFailedTimes ≠ 1)
    (hfn : cfg.statusFailedFn = true) (hok : (cfg.after pre).statusOK = true) (hlt : pre.count false < 2 ^ 63)
    (hsuffix : List.replicate cfg.maxFailedTimes.toNat false <:+ pre ++ [false]) : NoRecovery pre := by
  have hone := cfg.one_le
  obtain ⟨n, hn⟩ : ∃ n, cfg.maxFailedTimes.toNat = n + 1 + 1 := ⟨cfg.maxFailedTimes.toNat - 2, by omega⟩
  rw [hn, List.replicate_succ'] at hsuffix
  have hpre := ((List.suffix_append_inj_of_length_eq rfl).mp hsuffix).1
  -- the check before has not called, so that all the failures are among the last ones
  refine noRecovery_of_count hpre ?_
  obtain ⟨before, rfl⟩ := hpre
  rw [List.replicate_succ', ← List.append_assoc] at hok hlt ⊢
  rw [List.count_append, List.count_singleton_self] at hlt ⊢
  have := count_lt_of_ok hfn hok hlt
  omega

end MonitorCfg

/-- The callbacks alternate. When one reports a failure, the last `maxFailedTimes` checks have failed
if and only if that is one check, or none before has succeeded after a failed one. -/
theorem status_failed_consecutive (cfg : MonitorCfg) (results : List Bool) :
    (StatusCall.failed :: cfg.calls {} results).IsChain (· ≠ ·) ∧
      ∀ pre ok, (cfg.check (cfg.after pre) ok).2 = some .failed → (cfg.after pre).statusOK = true ∧
        (cfg.maxFailedTimes = 1 ∨ NoRecovery pre → List.replicate cfg.maxFailedTimes.toNat false <:+ pre ++ [ok]) ∧
        (pre.count false < 2 ^ 63 → List.replicate cfg.maxFailedTimes.toNat false <:+ pre ++ [ok] →
          cfg.maxFailedTimes = 1 ∨ NoRecovery pre) := by
  refine ⟨cfg.calls_alternate results {}, fun pre ok hcall => ?_⟩
  obtain ⟨hok, rfl, hfn, -⟩ := MonitorCfg.check_failed hcall
  refine ⟨hok, fun h => ?_, fun hlt hsuffix => ?_⟩
  · rcases h with h | h
    · rw [h]; exact List.suffix_append pre [false]
    · exact MonitorCfg.suffix_of_noRecovery h hcall
  · by_cases hmax : cfg.maxFailedTimes = 1
    · exact .inl hmax
    · exact .inr (MonitorCfg.noRecovery_of_suffix hmax hfn hok hlt hsuffix)

theorem status_failed_consecutive_outage :
    (MonitorCfg.newMonitor 3 true true).maxFailedTimes.toNat = 3 ∧
      List.replicate 3 false <:+ [true, false, false] ++ [false] :=
  ⟨rfl, ((status_failed_consecutive (.newMonitor 3 true true) []).2 [true, false, false] false (by decide)).2.1
    (.inr (by simp [NoRecovery]))⟩

theorem status_failed_after_recovery :
    ((MonitorCfg.newMonitor 3 true true).check
        ((MonitorCfg.newMonitor 3 true true).after [true, false, true, false, true]) false).2 = some .failed ∧
      ¬ List.replicate 3 false <:+ [true, false, true, false, true] ++ [false] := by
  decide

end Frp
