import Frp.DateCounter
import Mathlib.Algebra.BigOperators.Group.List.Basic
import Mathlib.Data.List.Induction

/-!
# Counts and calendar days

The counts are the net amounts of the last calendar days as long as the days that are
counted by elapsed time are those of the calendar. A day of 23 hours is not noticed.
-/

namespace Frp

open Calendar.Instant

namespace DateCounter

variable {cal : Calendar} {c : DateCounter} {ops : List (cal.Instant × DateOp)} {t0 now t : cal.Instant}
  {a b last day k d : Nat}

/-! ## Rotation -/

variable {counts : List Int}

theorem getElem?_rotated (hk : k < counts.length) :
    (rotated d counts)[k]? = if k < d then some 0 else counts[k - d]? := by
  unfold rotated
  by_cases hd : counts.length ≤ d
  · rw [if_pos hd, if_pos (Nat.lt_of_lt_of_le hk hd), List.getElem?_replicate, if_pos hk]
  · rw [if_neg hd]
    by_cases hkd : k < d
    · rw [if_pos hkd, List.getElem?_append_left (by simpa using hkd), List.getElem?_replicate, if_pos hkd]
    · rw [if_neg hkd, List.getElem?_append_right (by simpa using hkd), List.length_replicate, List.getElem?_take,
        if_pos (by omega)]

theorem daysSince_midnight {i j : Nat} (hs : cal.Steady a b) (hspan : cal.midnight b - cal.midnight a < 2 ^ 63)
    (hi : a ≤ i) (hij : i ≤ j) (hj : j ≤ b) : daysSince (cal.midnight j) (cal.midnight i) = (j - i : Nat) := by
  have hai : cal.midnight a ≤ cal.midnight i := Calendar.midnight_mono hi
  have hmono : cal.midnight i ≤ cal.midnight j := Calendar.midnight_mono hij
  have hjb : cal.midnight j ≤ cal.midnight b := Calendar.midnight_mono hj
  have hsub : timeSub (cal.midnight j) (cal.midnight i) = (cal.midnight j - cal.midnight i : Nat) := by
    unfold timeSub
    omega
  unfold daysSince
  rw [hsub, Int.tdiv_eq_ediv_of_nonneg (Int.natCast_nonneg _), ← hs.elapsed hi hij hj]; rfl

theorem rotate_same (h : daysSince (cal.midnight now.day) c.lastUpdateDate ≤ 0) : c.rotate now = c := if_pos h

theorem lastUpdateDate_rotate (h : 0 < daysSince (cal.midnight now.day) c.lastUpdateDate) :
    (c.rotate now).lastUpdateDate = cal.midnight now.day := by
  unfold rotate; rw [if_neg (by omega)]

theorem counts_rotate (h : 0 < daysSince (cal.midnight now.day) c.lastUpdateDate) :
    (c.rotate now).counts = rotated (daysSince (cal.midnight now.day) c.lastUpdateDate).toNat c.counts := by
  unfold rotate; rw [if_neg (by omega)]

@[simp] theorem reserveDays_rotate : (c.rotate now).reserveDays = c.reserveDays := by
  unfold rotate
  split <;> rfl

variable {op : DateOp}

@[simp] theorem reserveDays_run : (op.run c now).reserveDays = c.reserveDays := by
  cases op with
  | inc | dec | todayCount => exact reserveDays_rotate
  | getLastDaysCount =>
    simp only [DateOp.run, getLastDaysCount]
    split
    · rfl
    · exact reserveDays_rotate
  | snapshot => rfl
  | clear => rfl

/-! ## Net amounts -/

variable {o : cal.Instant × DateOp}

theorem netBefore_append :
    netBefore (ops ++ [o]) day k = netBefore ops day k + if o.1.day + k = day then o.2.amount else 0 := by
  unfold netBefore
  by_cases h : o.1.day + k = day
  · simp [List.filter_append, h]
  · simp [List.filter_append, h]

theorem wrapInt_add_wrapInt {x y : Int} : wrapInt (wrapInt x + y) = wrapInt (x + y) := Int.bmod_add_bmod

/-! ## The counts over a history -/

def passed (cal : Calendar) (last day : Nat) : Nat := (daysSince (cal.midnight day) (cal.midnight last)).toNat

/-- A counter whose last rotation was on day `last` is rotated on the days of the list. Each time what
is within `n` days of `today` moves by the days that have passed in the calendar. -/
def OnTime (cal : Calendar) (n today : Nat) : Nat → List Nat → Prop
  | _, [] => True
  | last, day :: rest => min (passed cal last day + (today - day)) n = min (today - last) n ∧
      OnTime cal n today (if passed cal last day = 0 then last else day) rest

/-- Without a day of 23 hours, and with less than a day over in the longer ones, all rotations are on time. -/
theorem onTime_of_steady {n today : Nat} (hs : cal.Steady a today)
    (hspan : cal.midnight today - cal.midnight a < 2 ^ 63) (days : List Nat) :
    ∀ last, a ≤ last → (last :: days ++ [today]).Pairwise (· ≤ ·) → OnTime cal n today last (days ++ [today]) := by
  have hpassed : ∀ {i j}, a ≤ i → i ≤ j → j ≤ today → passed cal i j = j - i := fun hi hij hj => by
    rw [passed, daysSince_midnight hs hspan hi hij hj, Int.toNat_natCast]
  induction days with
  | nil =>
    intro last hlast hord
    have hle := (List.pairwise_cons.mp hord).1 today (by simp)
    exact ⟨by rw [hpassed hlast hle (Nat.le_refl _), Nat.sub_self, Nat.add_zero], trivial⟩
  | cons day rest ih =>
    intro last hlast hord
    obtain ⟨hle, hrest⟩ := List.pairwise_cons.mp hord
    have hday := hle day List.mem_cons_self
    have htoday := (List.pairwise_cons.mp hrest).1 today (by simp)
    rw [List.cons_append, OnTime, hpassed hlast hday htoday]
    refine ⟨by rw [show day - last + (today - day) = today - last by omega], ?_⟩
    have hnext : (if day - last = 0 then last else day) = day := by split <;> omega
    rw [hnext]; exact ih day (Nat.le_trans hlast hday) hrest

/-- The counts of the days that are within the window on day `today`. -/
structure Kept (today : Nat) (ops : List (cal.Instant × DateOp)) (c : DateCounter) (last : Nat) : Prop where
  date : c.lastUpdateDate = cal.midnight last
  quiet : ∀ j < c.reserveDays, j < today - last → netBefore ops today j = 0
  counts : ∀ k, k + (today - last) < c.reserveDays →
    c.counts[k]? = some (wrapInt (netBefore ops today (k + (today - last))))

variable {today : Nat}

theorem Kept.new {reserveDays : Nat} {h : 0 < reserveDays} :
    Kept today ([] : List (cal.Instant × DateOp)) (DateCounter.new reserveDays h t0) t0.day := by
  refine ⟨rfl, fun _ _ _ => rfl, fun k hk => ?_⟩
  change k + (today - t0.day) < reserveDays at hk
  simp [DateCounter.new, netBefore, wrapInt, show k < reserveDays by omega]

theorem getElem?_add {n : Int} {x : Int} (h : c.counts[k]? = some (wrapInt x)) :
    (c.add n).counts[k]? = some (wrapInt (if k = 0 then x + n else x)) := by
  by_cases hk : k = 0
  · subst hk; simp [add, h, wrapInt_add_wrapInt]
  · simp [add, h, hk, Ne.symm hk]

namespace Kept

variable (h : Kept today ops c last)
include h

theorem rotate (hle : last ≤ now.day)
    (hpassed : min (passed cal last now.day + (today - now.day)) c.reserveDays = min (today - last) c.reserveDays) :
    Kept today ops (c.rotate now) (if passed cal last now.day = 0 then last else now.day) := by
  unfold passed at hpassed ⊢
  rw [← h.date] at hpassed ⊢
  by_cases hd : daysSince (cal.midnight now.day) c.lastUpdateDate ≤ 0
  · rw [rotate_same hd, if_pos (by omega)]; exact h
  · have hpos : 0 < daysSince (cal.midnight now.day) c.lastUpdateDate := by omega
    rw [if_neg (by omega)]
    refine ⟨lastUpdateDate_rotate hpos, fun j hj hlt => ?_, fun k hk => ?_⟩
    · rw [reserveDays_rotate] at hj; exact h.quiet j hj (by omega)
    · rw [reserveDays_rotate] at hk
      rw [counts_rotate hpos, getElem?_rotated (by rw [c.length_counts]; omega)]
      -- what was not there moves in from outside the window, and what was there by the right number of days
      split
      next hlt => rw [h.quiet _ hk (by omega)]; rfl
      next hge =>
        rw [h.counts _ (by omega)]
        congr 3
        omega

theorem add (hday : now.day ≤ today)
    (hsame : now.day = last ∨ c.reserveDays ≤ today - now.day ∧ c.reserveDays ≤ today - last) :
    Kept today (ops ++ [(now, op)]) (c.add op.amount) last := by
  refine ⟨h.date, fun j hj hlt => ?_, fun k hk => ?_⟩
  · change j < c.reserveDays at hj
    rw [netBefore_append, h.quiet j hj hlt, if_neg (show ¬ now.day + j = today by omega), Int.add_zero]
  · change k + (today - last) < c.reserveDays at hk
    rw [getElem?_add (h.counts k hk), netBefore_append]
    have hk0 : now.day + (k + (today - last)) = today ↔ k = 0 := by omega
    simp only [hk0]
    split <;> simp

theorem idle (hop : op.amount = 0) : Kept today (ops ++ [(now, op)]) c last := by
  have hnet : ∀ j, netBefore (ops ++ [(now, op)]) today j = netBefore ops today j := fun j => by
    rw [netBefore_append, hop]; simp
  exact ⟨h.date, fun j hj hlt => (hnet j).trans (h.quiet j hj hlt), fun k hk => hnet _ ▸ h.counts k hk⟩

theorem use (hle : last ≤ now.day) (hday : now.day ≤ today) (hop : op ≠ .clear) (hrot : op.rotates = true)
    (hpassed : min (passed cal last now.day + (today - now.day)) c.reserveDays = min (today - last) c.reserveDays) :
    Kept today (ops ++ [(now, op)]) (op.run c now) (if passed cal last now.day = 0 then last else now.day) := by
  have hr := h.rotate hle hpassed
  have hadd : ∀ op : DateOp, Kept today (ops ++ [(now, op)]) ((c.rotate now).add op.amount)
      (if passed cal last now.day = 0 then last else now.day) := by
    intro op
    refine hr.add hday ?_
    rw [reserveDays_rotate]
    split <;> omega
  cases op with
  | inc count => exact hadd (.inc count)
  | dec count => exact hadd (.dec count)
  | todayCount => exact hr.idle rfl
  | getLastDaysCount lastdays =>
    have hneg : ¬ lastdays < 0 := Int.not_lt.mpr (of_decide_eq_true hrot)
    simp only [DateOp.run, getLastDaysCount, hneg, if_false]; exact hr.idle rfl
  | snapshot => cases hrot
  | clear => exact absurd rfl hop

end Kept

theorem run_idle (hop : op ≠ .clear) (hrot : op.rotates = false) : op.run c now = c ∧ op.amount = 0 := by
  cases op with
  | inc | dec | todayCount => cases hrot
  | getLastDaysCount lastdays =>
    have hneg : lastdays < 0 := Int.not_le.mp (of_decide_eq_false hrot)
    simp [DateOp.run, getLastDaysCount, hneg, DateOp.amount]
  | snapshot => exact ⟨rfl, rfl⟩
  | clear => exact absurd rfl hop

theorem rotationDays_cons :
    rotationDays (o :: ops) = if o.2.rotates then o.1.day :: rotationDays ops else rotationDays ops := by
  cases h : o.2.rotates <;> simp [rotationDays, h]

theorem Kept.runAll (ops : List (cal.Instant × DateOp)) : ∀ {done : List (cal.Instant × DateOp)} {c : DateCounter}
    {last : Nat}, Kept today done c last → (last :: ops.map (·.1.day) ++ [today]).Pairwise (· ≤ ·) →
      (∀ o ∈ ops, o.2 ≠ .clear) → OnTime cal c.reserveDays today last (rotationDays ops ++ [today]) →
      ∃ last' ≤ today, Kept today (done ++ ops) (c.runAll ops) last' ∧
        OnTime cal c.reserveDays today last' [today] := by
  induction ops with
  | nil =>
    intro done c last h hord _ hon
    exact ⟨last, (List.pairwise_cons.mp hord).1 today (by simp), by simpa [DateCounter.runAll] using h, hon⟩
  | cons o rest ih =>
    intro done c last h hord hops hon
    obtain ⟨hle, hord'⟩ := List.pairwise_cons.mp hord
    obtain ⟨hle', hord''⟩ := List.pairwise_cons.mp hord'
    have hnext : ∀ {last'}, last' = last ∨ last' = o.1.day →
        (last' :: rest.map (·.1.day) ++ [today]).Pairwise (· ≤ ·) := by
      rintro _ (rfl | rfl)
      · exact List.pairwise_cons.mpr ⟨fun d hd => hle d (List.mem_cons_of_mem _ hd), hord''⟩
      · exact hord'
    have hop := hops o List.mem_cons_self
    have hrest : ∀ x ∈ rest, x.2 ≠ .clear := fun x hx => hops x (List.mem_cons_of_mem _ hx)
    have hres : (o.2.run c o.1).reserveDays = c.reserveDays := reserveDays_run
    rw [List.append_cons, DateCounter.runAll, List.foldl_cons]
    cases hrot : o.2.rotates with
    | true =>
      simp only [rotationDays_cons, hrot, if_true, List.cons_append, OnTime] at hon
      have h' := h.use (hle _ List.mem_cons_self) (hle' _ (by simp)) hop hrot hon.1
      rw [← hres] at hon ⊢
      refine ih h' (hnext ?_) hrest hon.2
      split <;> simp
    | false =>
      simp only [rotationDays_cons, hrot, Bool.false_eq_true, if_false] at hon
      obtain ⟨hsame, hamount⟩ : o.2.run c o.1 = c ∧ o.2.amount = 0 := run_idle hop hrot
      rw [hsame]; exact ih (h.idle hamount) (hnext (.inl rfl)) hrest hon

/-- Day 1 has 23 hours and day 3 has 25. -/
def changes : Calendar where
  hours d := if d = 1 then 23 else if d = 3 then 25 else 24
  regular d := by split <;> [skip; split] <;> simp

def noon (d : Nat) : changes.Instant where
  day := d
  clock := 12 * hour
  clock_lt := by
    simp only [changes, hour]
    split <;> [skip; split] <;> omega

def readAt (c : DateCounter) (reads : List cal.Instant) : DateCounter := reads.foldl (fun c now => c.rotate now) c

theorem snapshot_eq (h : c.lastUpdateDate = cal.midnight t.day) : c.snapshot t = c := by
  cases c
  cases h; rfl

theorem rotated_zeros (n : Nat) : rotated d (List.replicate n 0) = List.replicate n 0 := by
  unfold rotated
  split
  · rw [List.length_replicate]
  · rename_i h
    rw [List.length_replicate] at h ⊢
    rw [List.take_replicate, List.replicate_append_replicate]
    congr 1
    omega

theorem counts_readAt_zeros (reads : List cal.Instant) :
    ∀ c : DateCounter, c.counts = List.replicate c.reserveDays 0 →
      (c.readAt reads).counts = List.replicate c.reserveDays 0 ∧ (c.readAt reads).reserveDays = c.reserveDays := by
  induction reads with
  | nil => exact fun c h => ⟨h, rfl⟩
  | cons now rest ih =>
    intro c h
    have hrot : (c.rotate now).counts = List.replicate (c.rotate now).reserveDays 0 := by
      rw [reserveDays_rotate]
      by_cases hd : daysSince (cal.midnight now.day) c.lastUpdateDate ≤ 0
      · rw [rotate_same hd, h]
      · rw [counts_rotate (by omega), h, rotated_zeros]
    have hrest := ih (c.rotate now) hrot
    rw [reserveDays_rotate] at hrest; exact hrest

theorem readAt_append (reads : List cal.Instant) : (c.readAt reads).rotate now = c.readAt (reads ++ [now]) := by
  simp [readAt]

/-- A snapshot reads as its counter if that was rotated on the same day or is empty. -/
theorem snapshot_faithful (reserveDays : Nat) (hpos : 0 < reserveDays) (t0 : cal.Instant)
    (ops : List (cal.Instant × DateOp)) (t : cal.Instant)
    (h : ((new reserveDays hpos t0).runAll ops).lastUpdateDate = cal.midnight t.day ∨
      ∀ n ∈ ((new reserveDays hpos t0).runAll ops).counts, n = 0)
    (reads : List cal.Instant) (t' : cal.Instant) (lastdays : Int) :
    ((((new reserveDays hpos t0).runAll ops).snapshot t).readAt reads |>.todayCount t').2 =
        (((new reserveDays hpos t0).runAll ops).readAt reads |>.todayCount t').2 ∧
      ((((new reserveDays hpos t0).runAll ops).snapshot t).readAt reads |>.getLastDaysCount t' lastdays).2 =
        (((new reserveDays hpos t0).runAll ops).readAt reads |>.getLastDaysCount t' lastdays).2 := by
  generalize (new reserveDays hpos t0).runAll ops = c at h ⊢
  cases h with
  | inl h => rw [snapshot_eq h]; exact ⟨rfl, rfl⟩
  | inr h =>
    have hzero : c.counts = List.replicate c.reserveDays 0 := by
      rw [← c.length_counts]; exact List.eq_replicate_length.mpr h
    have hc := fun l : List cal.Instant => counts_readAt_zeros l c hzero
    have hs := fun l : List cal.Instant => counts_readAt_zeros l (c.snapshot t) hzero
    unfold todayCount getLastDaysCount
    rw [readAt_append, readAt_append, (hc _).1, (hs _).1, (hc _).2, (hs _).2]
    refine ⟨rfl, ?_⟩
    split <;> rfl

theorem snapshot_faithful_same_day :
    ((((new 2 (by decide) (noon 2)).runAll [(noon 3, .inc 5)]).snapshot (noon 3)).readAt [noon 4] |>.todayCount
        (noon 5)).2 =
      (((new 2 (by decide) (noon 2)).runAll [(noon 3, .inc 5)]).readAt [noon 4] |>.todayCount (noon 5)).2 :=
  (snapshot_faithful 2 (by decide) (noon 2) [(noon 3, .inc 5)] (noon 3) (.inl (by decide)) [noon 4] (noon 5) 2).1

theorem snapshot_shows_yesterday :
    Calendar.InOrder (noon 2) [(noon 2, .inc 5)] (noon 3) ∧
      (((new 2 (by decide) (noon 2)).runAll [(noon 2, .inc 5)]).snapshot (noon 3) |>.todayCount (noon 3)).2 = some 5 ∧
      ((new 2 (by decide) (noon 2)).runAll [(noon 2, .inc 5)] |>.todayCount (noon 3)).2 = some 0 := by
  decide

theorem eq_zero_of_rotated (hd : 0 < d) (h : rotated d counts = counts) (k : Nat) :
    ∀ n, counts[k]? = some n → n = 0 := by
  induction k using Nat.strongRecOn with
  | ind k ih =>
    intro n hn
    have hk : k < counts.length := (List.getElem?_eq_some_iff.mp hn).1
    have hr := getElem?_rotated (d := d) hk
    rw [h, hn] at hr
    split at hr
    · exact Option.some.inj hr
    · exact ih (k - d) (by omega) n hr.symm

/-- A snapshot of a counter that is due for a rotation and not empty differs from it at once. -/
theorem snapshot_differs (hdays : 0 < daysSince (cal.midnight t.day) c.lastUpdateDate) {n : Int} (hn : n ∈ c.counts)
    (hne : n ≠ 0) : ((c.snapshot t).getLastDaysCount t c.reserveDays).2 ≠ (c.getLastDaysCount t c.reserveDays).2 := by
  intro heq
  have hsame : daysSince (cal.midnight t.day) (c.snapshot t).lastUpdateDate ≤ 0 := by
    change daysSince (cal.midnight t.day) (cal.midnight t.day) ≤ 0
    simp [daysSince, timeSub]
  unfold getLastDaysCount at heq
  rw [if_neg (by omega), if_neg (by omega), rotate_same hsame, counts_rotate hdays] at heq
  have heq := Option.some.inj heq
  change c.counts.take (min (c.reserveDays : Int) c.reserveDays).toNat = List.take _ _ at heq
  have hlen := c.length_counts
  rw [min_self, Int.toNat_natCast, List.take_of_length_le (Nat.le_of_eq hlen),
    List.take_of_length_le (Nat.le_of_eq (length_rotated.trans hlen))] at heq
  obtain ⟨k, hk⟩ := List.mem_iff_getElem?.mp hn
  exact hne (eq_zero_of_rotated (by omega) heq.symm k n hk)

end DateCounter

end Frp
