import Frp.Backoff
import Mathlib.Data.List.Pairwise

/-!
# The budget of fast retries

A stretch of calls without a reset has as many fast retries as the counter has left at its
beginning, and a stretch of time as long as the window has room for one reset only.
-/

namespace Frp

open BackoffOutcome

namespace BackoffOutcome

variable {delay : Int} {reset : Bool}

@[simp] theorem isFast_fast : (fast delay).isFast = true := rfl
@[simp] theorem isReset_fast : (fast delay).isReset = false := rfl
@[simp] theorem isFast_slow : (slow delay reset).isFast = false := rfl
@[simp] theorem isReset_slow : (slow delay reset).isReset = reset := rfl

end BackoffOutcome

namespace BackoffOptions

variable {o : BackoffOptions} {f : FastBackoff} {c : BackoffCall} {calls : List BackoffCall} {N : Nat}

inductive WindowStep (o : BackoffOptions) (N : Nat) (f : FastBackoff) (c : BackoffCall) (f' : FastBackoff) :
    BackoffOutcome → Prop
  | keep {x} : x.isFast = false → x.isReset = false → f'.fastRetryCutoffTime = f.fastRetryCutoffTime →
      f.countsInFastRetryWindow ≤ f'.countsInFastRetryWindow → WindowStep o N f c f' x
  | fast {delay} : f'.fastRetryCutoffTime = f.fastRetryCutoffTime →
      f'.countsInFastRetryWindow = f.countsInFastRetryWindow + 1 → f.countsInFastRetryWindow < N →
      WindowStep o N f c f' (.fast delay)
  | reset {delay} : f.fastRetryCutoffTime < c.now → f'.fastRetryCutoffTime = c.now + o.fastRetryWindow →
      f'.countsInFastRetryWindow = 0 → WindowStep o N f c f' (.slow delay true)

theorem backoff_windowStep (hN : o.fastRetryCount = N) (hpos : 0 < N) (f : FastBackoff) (c : BackoffCall) :
    WindowStep o N f c (o.backoff f c).1 (o.backoff f c).2 := by
  unfold backoff
  by_cases hfirst : f.lastCalledTime = 0
  · rw [if_pos hfirst]; exact .keep rfl rfl rfl (Nat.le_refl _)
  · rw [if_neg hfirst]
    by_cases herr : c.previousConditionError = true
    · rw [if_pos herr, if_pos (by omega)]
      unfold retry
      split
      · exact .fast rfl rfl (by simp only at *; omega)
      · split
        · exact .reset (by assumption) rfl rfl
        · exact .keep rfl rfl rfl (Nat.le_succ _)
    · rw [if_neg herr]; exact .keep rfl rfl rfl (Nat.le_refl _)

theorem mem_of_mem_run {e : BackoffCall × BackoffOutcome} (calls : List BackoffCall) :
    ∀ f : FastBackoff, e ∈ o.run f calls → e.1 ∈ calls := by
  induction calls with
  | nil => exact fun f he => absurd he List.not_mem_nil
  | cons c rest ih =>
    intro f he
    cases he with
    | head => exact List.mem_cons_self
    | tail _ he => exact List.mem_cons_of_mem _ (ih _ he)

section
variable (hN : o.fastRetryCount = N) (hpos : 0 < N)
include hN hpos

theorem run_resets (calls : List BackoffCall) (hclock : calls.Pairwise fun x y => x.now ≤ y.now) : ∀ f : FastBackoff,
    (∀ e ∈ o.run f calls, e.2.isReset = true → f.fastRetryCutoffTime < e.1.now) ∧
      (o.run f calls).Pairwise fun x y =>
        x.2.isReset = true → y.2.isReset = true → x.1.now + o.fastRetryWindow < y.1.now := by
  induction calls with
  | nil => exact fun f => ⟨fun e he => absurd he List.not_mem_nil, List.Pairwise.nil⟩
  | cons c rest ih =>
    intro f
    obtain ⟨hlater, hclock⟩ := List.pairwise_cons.mp hclock
    obtain ⟨hcut, hpair⟩ := ih hclock (o.backoff f c).1
    have hw := backoff_windowStep hN hpos f c
    unfold run
    rw [List.forall_mem_cons, List.pairwise_cons]
    generalize (o.backoff f c).2 = x at hw ⊢
    cases hw with
    | keep _ hreset hkept =>
      rw [hkept] at hcut; exact ⟨⟨by simp [hreset], hcut⟩, by simp [hreset], hpair⟩
    | fast hkept => rw [hkept] at hcut; exact ⟨⟨by simp, hcut⟩, by simp, hpair⟩
    | reset hnow hset =>
      rw [hset] at hcut
      exact ⟨⟨fun _ => hnow, fun e he _ => Int.lt_of_lt_of_le hnow (hlater e.1 (mem_of_mem_run rest _ he))⟩,
        fun y hy _ => hcut y hy, hpair⟩

theorem run_fast (calls : List BackoffCall) : ∀ (f : FastBackoff) (mid late : List (BackoffCall × BackoffOutcome)),
    o.run f calls = mid ++ late → (∀ e ∈ mid, e.2.isReset = false) →
      mid.countP (·.2.isFast) ≤ N - f.countsInFastRetryWindow := by
  induction calls with
  | nil =>
    intro f mid late heq _
    have hnil := (List.append_eq_nil_iff.mp heq.symm).1
    simp [hnil]
  | cons c rest ih =>
    intro f mid late heq hmid
    cases mid with
    | nil => simp
    | cons e mid =>
      simp only [run, List.cons_append, List.cons.injEq] at heq
      obtain ⟨rfl, heq⟩ := heq
      obtain ⟨hreset, hmid⟩ := List.forall_mem_cons.mp hmid
      have hrest := ih _ mid late heq hmid
      have hw := backoff_windowStep hN hpos f c
      rw [List.countP_cons]
      generalize (o.backoff f c).2 = x at hw hreset ⊢
      cases hw with
      | keep hfast => simp only [hfast, Bool.false_eq_true, if_false]; omega
      | fast => simp only [isFast_fast, if_true]; omega
      | reset => simp at hreset

theorem run_fast_after (calls : List BackoffCall) :
    ∀ (f : FastBackoff) (early : List (BackoffCall × BackoffOutcome)) (x : BackoffCall × BackoffOutcome)
      (mid late : List (BackoffCall × BackoffOutcome)), o.run f calls = early ++ x :: (mid ++ late) →
      x.2.isReset = true → (∀ e ∈ mid, e.2.isReset = false) → mid.countP (·.2.isFast) ≤ N := by
  induction calls with
  | nil => intro f early x mid late heq; simp [run] at heq
  | cons c rest ih =>
    intro f early x mid late heq hx hmid
    cases early with
    | nil =>
      simp only [run, List.nil_append, List.cons.injEq] at heq
      obtain ⟨rfl, heq⟩ := heq
      exact Nat.le_trans (run_fast hN hpos rest _ mid late heq hmid) (Nat.sub_le _ _)
    | cons e early =>
      simp only [run, List.cons_append, List.cons.injEq] at heq
      exact ih _ early x mid late heq.2 hx hmid

end

/-! ## Stretches of time -/

def fastWithin (u v : Int) (log : List (BackoffCall × BackoffOutcome)) : Nat :=
  log.countP fun e => e.2.isFast && decide (u ≤ e.1.now ∧ e.1.now ≤ v)

theorem fastWithin_eq_zero {u v : Int} {log : List (BackoffCall × BackoffOutcome)} (h : ∀ e ∈ log, v < e.1.now) :
    fastWithin u v log = 0 := by
  unfold fastWithin
  rw [List.countP_eq_zero]
  intro e he
  have := h e he
  simp only [Bool.and_eq_true, decide_eq_true_eq]; omega

section
variable (hN : o.fastRetryCount = N) (hpos : 0 < N) {u : Int}
include hN hpos

theorem fastWithin_run_inside (calls : List BackoffCall) (hclock : calls.Pairwise fun x y => x.now ≤ y.now) :
    ∀ f : FastBackoff, (∀ c ∈ calls, u ≤ c.now) →
      fastWithin u (u + o.fastRetryWindow) (o.run f calls) ≤ N - f.countsInFastRetryWindow +
        if u + o.fastRetryWindow ≤ f.fastRetryCutoffTime then 0 else N := by
  induction calls with
  | nil => exact fun f _ => Nat.zero_le _
  | cons c rest ih =>
    intro f hinside
    obtain ⟨hlater, hclock⟩ := List.pairwise_cons.mp hclock
    obtain ⟨hc, hinside⟩ := List.forall_mem_cons.mp hinside
    have hrest := ih hclock (o.backoff f c).1 hinside
    have hmem := fun e => mem_of_mem_run (o := o) (e := e) rest (o.backoff f c).1
    have hw := backoff_windowStep hN hpos f c
    unfold run
    generalize (o.backoff f c).2 = x at hw ⊢
    cases hw with
    | keep hfast _ hkept =>
      rw [hkept] at hrest
      simp only [fastWithin, List.countP_cons, hfast, Bool.false_and, Bool.false_eq_true, if_false] at hrest ⊢
      omega
    | fast hkept =>
      rw [hkept] at hrest
      simp only [fastWithin, List.countP_cons, isFast_fast, Bool.true_and] at hrest ⊢
      split <;> omega
    | reset hnow hset hcount =>
      rw [hset, if_pos (by omega), hcount] at hrest
      by_cases hcut : u + o.fastRetryWindow ≤ f.fastRetryCutoffTime
      · rw [fastWithin_eq_zero]
        · exact Nat.zero_le _
        · refine List.forall_mem_cons.mpr ⟨Int.lt_of_le_of_lt hcut hnow, fun e he => ?_⟩
          exact Int.lt_of_lt_of_le (Int.lt_of_le_of_lt hcut hnow) (hlater e.1 (hmem e he))
      · rw [if_neg hcut]
        simp only [fastWithin, List.countP_cons, isFast_slow, Bool.false_and, Bool.false_eq_true,
          if_false] at hrest ⊢
        omega

theorem fastWithin_run (calls : List BackoffCall) (hclock : calls.Pairwise fun x y => x.now ≤ y.now) :
    ∀ f : FastBackoff, fastWithin u (u + o.fastRetryWindow) (o.run f calls) ≤ 2 * N := by
  induction calls with
  | nil => exact fun f => Nat.zero_le _
  | cons c rest ih =>
    intro f
    obtain ⟨hlater, hrest⟩ := List.pairwise_cons.mp hclock
    by_cases hc : u ≤ c.now
    · have hinside : ∀ x ∈ c :: rest, u ≤ x.now :=
        List.forall_mem_cons.mpr ⟨hc, fun x hx => Int.le_trans hc (hlater x hx)⟩
      have := fastWithin_run_inside hN hpos (c :: rest) hclock f hinside
      split at this <;> omega
    · have := ih hrest (o.backoff f c).1
      unfold run
      have hout : (u ≤ c.now ∧ c.now ≤ u + o.fastRetryWindow) = False := by simp [hc]
      simp only [fastWithin, List.countP_cons, hout, decide_false, Bool.and_false, Bool.false_eq_true,
        if_false] at this ⊢
      omega

end

/-! ## Other delays -/

theorem slowDelay_le (h : 0 < o.maxDuration) (n : Nat) (c : BackoffCall) : o.slowDelay n c ≤ o.maxDuration := by
  unfold slowDelay
  split
  · exact Int.le_refl _
  · rename_i hnot
    exact Int.not_lt.mp fun hlt => hnot ⟨h, hlt⟩

theorem retry_slow (h : 0 < o.maxDuration) (hslow : (o.retry f c).2.isFast = false) :
    (o.retry f c).2.delay ≤ o.maxDuration := by
  unfold retry at hslow ⊢
  split at hslow
  · cases hslow
  · rename_i hcount
    rw [if_neg hcount]
    split
    · exact slowDelay_le h _ c
    · exact slowDelay_le h _ c

theorem backoff_error (hstarted : f.lastCalledTime ≠ 0) (herr : c.previousConditionError = true)
    (h : 0 < o.maxDuration) (hslow : (o.backoff f c).2.isFast = false) : (o.backoff f c).2.delay ≤ o.maxDuration := by
  unfold backoff at hslow ⊢
  rw [if_neg hstarted, if_pos herr] at hslow ⊢
  by_cases hcount : o.fastRetryCount > 0
  · rw [if_pos hcount] at hslow ⊢; exact retry_slow h hslow
  · rw [if_neg hcount]; exact slowDelay_le h _ c

theorem lastCalledTime_retry : (o.retry f c).1.lastCalledTime = f.lastCalledTime := by
  unfold retry
  split
  · rfl
  · split <;> rfl

theorem lastCalledTime_backoff : (o.backoff f c).1.lastCalledTime = c.now := by
  unfold backoff
  split
  · rfl
  · split
    · split
      · exact lastCalledTime_retry
      · rfl
    · rfl

theorem run_error (h : 0 < o.maxDuration) (calls : List BackoffCall) :
    ∀ f : FastBackoff, f.lastCalledTime ≠ 0 → ∀ e ∈ o.run f calls, e.1.previousConditionError = true →
      e.2.isFast = false → e.2.delay ≤ o.maxDuration := by
  induction calls with
  | nil => exact fun f _ e he => absurd he List.not_mem_nil
  | cons c rest ih =>
    intro f hstarted e he herr hslow
    cases he with
    | head => exact backoff_error hstarted herr h hslow
    | tail _ he =>
      refine ih _ ?_ e he herr hslow
      rw [lastCalledTime_backoff]; exact Int.ne_of_gt c.now_pos

/-- Resets are more than a window apart, with at most `N` fast delays between two of them and at most
`2 * N` in a window; the other delays after an error are capped. -/
theorem fast_retry_budget (o : BackoffOptions) (N : Nat) (hN : o.fastRetryCount = N) (hpos : 0 < N)
    (first : BackoffCall) (rest : List BackoffCall) (hclock : (first :: rest).Pairwise fun x y => x.now ≤ y.now) :
    ((o.run {} (first :: rest)).Pairwise fun x y =>
        x.2.isReset = true → y.2.isReset = true → x.1.now + o.fastRetryWindow < y.1.now) ∧
      (∀ early x mid late, o.run {} (first :: rest) = early ++ x :: (mid ++ late) → x.2.isReset = true →
        (∀ e ∈ mid, e.2.isReset = false) → mid.countP (·.2.isFast) ≤ N) ∧
      (∀ mid late, o.run {} (first :: rest) = mid ++ late → (∀ e ∈ mid, e.2.isReset = false) →
        mid.countP (·.2.isFast) ≤ N - 1) ∧
      (∀ u, fastWithin u (u + o.fastRetryWindow) (o.run {} (first :: rest)) ≤ 2 * N) ∧
      (0 < o.maxDuration → ∀ e ∈ o.run (o.backoff {} first).1 rest, e.1.previousConditionError = true →
        e.2.isFast = false → e.2.delay ≤ o.maxDuration) := by
  refine ⟨(run_resets hN hpos _ hclock {}).2, run_fast_after hN hpos _ {}, run_fast hN hpos _ {}, fun u =>
    fastWithin_run hN hpos _ hclock {}, fun h => run_error h rest _ ?_⟩
  rw [lastCalledTime_backoff]; exact Int.ne_of_gt first.now_pos

def twoFast : BackoffOptions := ⟨1000, id, 5000, 0, 2, 10, 100⟩

def errorAt (t : Nat) : BackoffCall := ⟨1000, true, t + 1, id, by omega⟩

theorem fast_retry_budget_two_fast :
    fastWithin 2 102 (twoFast.run {} [errorAt 0, errorAt 1, errorAt 2, errorAt 3, errorAt 4]) ≤ 2 * 2 :=
  (fast_retry_budget twoFast 2 rfl (by decide) (errorAt 0) [errorAt 1, errorAt 2, errorAt 3, errorAt 4]
    (by simp [errorAt])).2.2.2.1 2

end BackoffOptions

end Frp
