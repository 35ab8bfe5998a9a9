import Frp.MakeHole

/-!
# How long `waitDetectMessage` waits

The loop of `waitDetectMessage` on a logical clock. The read deadline is set before every
read, so a message that is skipped starts the wait again.
-/

namespace Frp

structure Arrival where
  time : Nat
  buf : Str
  raddr : Str

namespace Arrival

def read (a : Arrival) : ReadResult := .datagram a.buf a.raddr

def Ordered (arrivals : List Arrival) : Prop := arrivals.Pairwise fun a b => a.time ≤ b.time

end Arrival

namespace HoleCfg

/-- `waitDetectMessage` called at `now`: the address of the peer or an error, and the time of the return. -/
def waitDetectMessageFrom (cfg : HoleCfg) (timeout now : Nat) : List Arrival → Option Str × Nat
  | [] => (none, now + timeout)
  | a :: rest =>
    if a.time ≤ now + timeout then
      match cfg.detect a.read with
      | .again => cfg.waitDetectMessageFrom timeout (max now a.time) rest
      | .failed => (none, max now a.time)
      | .found raddr _ => (some raddr, max now a.time)
    else (none, now + timeout)

variable {cfg : HoleCfg} {timeout now t : Nat} {a : Arrival} {rest arrivals : List Arrival}

attribute [local simp] waitDetectMessageFrom

theorem waitDetectMessageFrom_again (h : a.time ≤ now + timeout) (ha : cfg.detect a.read = .again) :
    cfg.waitDetectMessageFrom timeout now (a :: rest) = cfg.waitDetectMessageFrom timeout (max now a.time) rest := by
  simp [h, ha]

theorem waitDetectMessageFrom_ends (h : a.time ≤ now + timeout) (ha : cfg.detect a.read ≠ .again) :
    (cfg.waitDetectMessageFrom timeout now (a :: rest)).2 = max now a.time := by
  unfold waitDetectMessageFrom
  rw [if_pos h]
  cases hd : cfg.detect a.read with
  | again => exact absurd hd ha
  | failed => rfl
  | found => rfl

theorem waitDetectMessageFrom_late (h : now + timeout < a.time) :
    cfg.waitDetectMessageFrom timeout now (a :: rest) = (none, now + timeout) := by
  simp [h]

theorem waitDetectMessageFrom_reads (arrivals : List Arrival) : ∀ now, ∃ reads : List ReadResult,
    cfg.waitDetectMessage reads = some (cfg.waitDetectMessageFrom timeout now arrivals).1 := by
  induction arrivals with
  | nil => intro now; exact ⟨[.error], by simp [waitDetectMessage, detect]⟩
  | cons a rest ih =>
    intro now
    by_cases h : a.time ≤ now + timeout
    · cases ha : cfg.detect a.read with
      | again =>
        obtain ⟨reads, hr⟩ := ih (max now a.time)
        refine ⟨a.read :: reads, ?_⟩
        rw [waitDetectMessageFrom_again h ha, ← hr]; simp [waitDetectMessage, ha]
      | failed | found => exact ⟨[a.read], by simp [waitDetectMessage, h, ha]⟩
    · refine ⟨[.error], ?_⟩
      rw [waitDetectMessageFrom_late (Nat.lt_of_not_le h)]; simp [waitDetectMessage, detect]

theorem le_waitDetectMessageFrom (arrivals : List Arrival) :
    ∀ now, now ≤ (cfg.waitDetectMessageFrom timeout now arrivals).2 := by
  induction arrivals with
  | nil => exact fun now => Nat.le_add_right now timeout
  | cons a rest ih =>
    intro now
    by_cases h : a.time ≤ now + timeout
    · by_cases ha : cfg.detect a.read = .again
      · rw [waitDetectMessageFrom_again h ha]; exact le_trans (le_max_left now a.time) (ih _)
      · rw [waitDetectMessageFrom_ends h ha]; exact le_max_left now a.time
    · rw [waitDetectMessageFrom_late (Nat.lt_of_not_le h)]; exact Nat.le_add_right now timeout

def EndsBy (cfg : HoleCfg) (limit : Nat) (arrivals : List Arrival) : Prop :=
  ∃ a ∈ arrivals, a.time ≤ limit ∧ cfg.detect a.read ≠ .again

theorem not_endsBy {limit : Nat} (h : ∀ a ∈ arrivals, limit < a.time) : ¬ cfg.EndsBy limit arrivals := by
  rintro ⟨a, ha, hle, -⟩
  exact absurd (h a ha) (Nat.not_lt.mpr hle)

theorem endsBy_cons {limit : Nat} :
    cfg.EndsBy limit (a :: rest) ↔ (a.time ≤ limit ∧ cfg.detect a.read ≠ .again) ∨ cfg.EndsBy limit rest := by
  simp [EndsBy]

theorem waitDetectMessageFrom_le_iff (arrivals : List Arrival) (hord : Arrival.Ordered arrivals) :
    ∀ now, t ≤ now → now ≤ t + timeout →
      ((cfg.waitDetectMessageFrom timeout now arrivals).2 ≤ t + timeout ↔
        cfg.EndsBy (t + timeout) arrivals ∨ now = t ∧ ∀ a ∈ arrivals, a.time ≤ t ∨ t + timeout < a.time) := by
  induction arrivals with
  | nil =>
    intro now hle hlt
    simp only [waitDetectMessageFrom, EndsBy, List.not_mem_nil, false_and, exists_false, false_or, false_imp_iff,
      implies_true, and_true]
    omega
  | cons a rest ih =>
    intro now hle hlt
    obtain ⟨hrest, hord⟩ := List.pairwise_cons.mp hord
    -- once a datagram comes after the limit, so do those behind it
    have hafter : t + timeout < a.time → ∀ b ∈ a :: rest, t + timeout < b.time := by
      intro h b hb
      cases hb with
      | head => exact h
      | tail _ hb => exact Nat.lt_of_lt_of_le h (hrest b hb)
    by_cases h : a.time ≤ now + timeout
    · by_cases hin : a.time ≤ t + timeout
      · by_cases ha : cfg.detect a.read = .again
        · rw [waitDetectMessageFrom_again h ha, ih hord _ (le_trans hle (le_max_left _ _)) (max_le hlt hin),
            endsBy_cons]
          simp only [ha, ne_eq, not_true_eq_false, and_false, false_or, List.forall_mem_cons]
          have hmax : max now a.time = t ↔ now = t ∧ (a.time ≤ t ∨ t + timeout < a.time) := by omega
          rw [hmax, and_assoc]
        · rw [waitDetectMessageFrom_ends h ha, endsBy_cons]
          exact iff_of_true (max_le hlt hin) (.inl (.inl ⟨hin, ha⟩))
      · have hlate := hafter (Nat.lt_of_not_le hin)
        have hge : a.time ≤ (cfg.waitDetectMessageFrom timeout now (a :: rest)).2 := by
          by_cases ha : cfg.detect a.read = .again
          · rw [waitDetectMessageFrom_again h ha]
            exact le_trans (le_max_right now a.time) (le_waitDetectMessageFrom rest _)
          · rw [waitDetectMessageFrom_ends h ha]; exact le_max_right now a.time
        refine iff_of_false (by omega) fun hr => ?_
        cases hr with
        | inl he => exact not_endsBy hlate he
        | inr => omega
    · have hlate := hafter (by omega)
      rw [waitDetectMessageFrom_late (Nat.lt_of_not_le h)]
      constructor
      · intro hn; exact .inr ⟨by omega, fun b hb => .inr (hlate b hb)⟩
      · intro hr
        cases hr with
        | inl he => exact absurd he (not_endsBy hlate)
        | inr hn => exact Nat.add_le_add_right (Nat.le_of_eq hn.1) timeout

theorem waitDetectMessageFrom_held {buf raddr : Str} (hd : cfg.detect (.datagram buf raddr) = .again) (n : Nat) :
    ∀ now, ∃ arrivals, Arrival.Ordered arrivals ∧ (∀ a ∈ arrivals, now ≤ a.time) ∧
      cfg.waitDetectMessageFrom timeout now arrivals = (none, now + (n + 1) * timeout) := by
  induction n with
  | zero =>
    intro now
    refine ⟨[], List.Pairwise.nil, by simp, ?_⟩
    simp
  | succ n ih =>
    intro now
    obtain ⟨arrivals, hord, hge, heq⟩ := ih (now + timeout)
    refine ⟨⟨now + timeout, buf, raddr⟩ :: arrivals, List.pairwise_cons.mpr ⟨hge, hord⟩, ?_, ?_⟩
    · intro a ha
      cases ha with
      | head => exact Nat.le_add_right now timeout
      | tail _ ha => exact le_trans (Nat.le_add_right now timeout) (hge a ha)
    · rw [waitDetectMessageFrom_again (Nat.le_refl _) hd, max_eq_right (Nat.le_add_right now timeout), heq]
      rw [Nat.succ_mul (n + 1), Nat.add_assoc, Nat.add_comm timeout]

/-- The wait is in time if and only if a datagram ends it by then, or none arrives by then at all. -/
theorem wait_in_time_iff (cfg : HoleCfg) (timeout t : Nat) (arrivals : List Arrival)
    (hord : Arrival.Ordered arrivals) :
    (cfg.waitDetectMessageFrom timeout t arrivals).2 ≤ t + timeout ↔
      cfg.EndsBy (t + timeout) arrivals ∨ ∀ a ∈ arrivals, a.time ≤ t ∨ t + timeout < a.time := by
  rw [waitDetectMessageFrom_le_iff arrivals hord t (Nat.le_refl t) (Nat.le_add_right t timeout)]
  simp

def plainReceiver : HoleCfg where
  conns := 1
  sid := lit "s1"
  role := .receiver
  decode buf := if buf = lit "sid" then some ⟨[], lit "s1", false, []⟩ else none
  encode _ := some (lit "resp")

theorem wait_in_time_iff_answered :
    (plainReceiver.waitDetectMessageFrom 5000 0 [⟨4000, lit "junk", []⟩, ⟨4500, lit "sid", lit "peer"⟩]).2 ≤ 0 + 5000 :=
  (wait_in_time_iff plainReceiver 5000 0 _ (by simp [Arrival.Ordered])).mpr
    (.inl ⟨⟨4500, lit "sid", lit "peer"⟩, by simp, by decide, by decide⟩)

theorem wait_past_timeout :
    Arrival.Ordered [⟨4000, lit "junk", []⟩] ∧
      plainReceiver.waitDetectMessageFrom 5000 0 [⟨4000, lit "junk", []⟩] = (none, 9000) := by
  refine ⟨List.pairwise_singleton _ _, ?_⟩
  decide

end HoleCfg

end Frp
