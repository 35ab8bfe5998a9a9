import Frp.Calendar
import Frp.NatClassify

/-!
# Counters by day

`pkg/util/metric/date_counter.go`: the counts of the last days, today first. A counter is
rotated before it is used, by the time since the midnight of its last rotation over 24
hours, cut to an integer.
-/

namespace Frp

def timeSub (t u : Nat) : Int := max (-2 ^ 63) (min ((t : Int) - u) (2 ^ 63 - 1))

def daysSince (t u : Nat) : Int := (timeSub t u).tdiv (24 * hour)

structure DateCounter where
  reserveDays : Nat
  counts : List Int
  lastUpdateDate : Nat
  length_counts : counts.length = reserveDays
  reserve_pos : 0 < reserveDays

namespace DateCounter

variable {cal : Calendar}

def new (reserveDays : Nat) (h : 0 < reserveDays) (now : cal.Instant) : DateCounter where
  reserveDays := reserveDays
  counts := List.replicate reserveDays 0
  lastUpdateDate := cal.midnight now.day
  length_counts := List.length_replicate
  reserve_pos := h

def rotated (days : Nat) (counts : List Int) : List Int :=
  if counts.length ≤ days then List.replicate counts.length 0
  else List.replicate days 0 ++ counts.take (counts.length - days)

theorem length_rotated {days : Nat} {counts : List Int} : (rotated days counts).length = counts.length := by
  unfold rotated
  split
  · exact List.length_replicate
  · rw [List.length_append, List.length_replicate, List.length_take]; omega

def rotate (c : DateCounter) (now : cal.Instant) : DateCounter :=
  if daysSince (cal.midnight now.day) c.lastUpdateDate ≤ 0 then c
  else
    { c with
      counts := rotated (daysSince (cal.midnight now.day) c.lastUpdateDate).toNat c.counts
      lastUpdateDate := cal.midnight now.day
      length_counts := length_rotated.trans c.length_counts }

def add (c : DateCounter) (count : Int) : DateCounter :=
  { c with
    counts := c.counts.modify 0 fun n => wrapInt (n + count)
    length_counts := (List.length_modify _ _ _).trans c.length_counts }

def todayCount (c : DateCounter) (now : cal.Instant) : DateCounter × Option Int :=
  (c.rotate now, (c.rotate now).counts[0]?)

def getLastDaysCount (c : DateCounter) (now : cal.Instant) (lastdays : Int) : DateCounter × Option (List Int) :=
  if lastdays < 0 then (c, none)
  else (c.rotate now, some ((c.rotate now).counts.take (min lastdays c.reserveDays).toNat))

def inc (c : DateCounter) (now : cal.Instant) (count : Int) : DateCounter := (c.rotate now).add count

def dec (c : DateCounter) (now : cal.Instant) (count : Int) : DateCounter := (c.rotate now).add (-count)

def snapshot (c : DateCounter) (now : cal.Instant) : DateCounter :=
  { new c.reserveDays c.reserve_pos now with counts := c.counts, length_counts := c.length_counts }

def clear (c : DateCounter) : DateCounter :=
  { c with
    counts := List.replicate c.counts.length 0
    length_counts := List.length_replicate.trans c.length_counts }

end DateCounter

inductive DateOp
  | inc (count : Int)
  | dec (count : Int)
  | todayCount
  | getLastDaysCount (lastdays : Int)
  | snapshot
  | clear

namespace DateOp

variable {cal : Calendar}

def run (c : DateCounter) (now : cal.Instant) : DateOp → DateCounter
  | inc count => c.inc now count
  | dec count => c.dec now count
  | todayCount => (c.todayCount now).1
  | getLastDaysCount lastdays => (c.getLastDaysCount now lastdays).1
  | snapshot => c
  | clear => c.clear

def amount : DateOp → Int
  | inc count => count
  | dec count => -count
  | todayCount | getLastDaysCount _ | snapshot | clear => 0

def rotates : DateOp → Bool
  | inc _ | dec _ | todayCount => true
  | getLastDaysCount lastdays => 0 ≤ lastdays
  | snapshot | clear => false

end DateOp

namespace DateCounter

variable {cal : Calendar}

def rotationDays (ops : List (cal.Instant × DateOp)) : List Nat := (ops.filter (·.2.rotates)).map (·.1.day)

def runAll (c : DateCounter) (ops : List (cal.Instant × DateOp)) : DateCounter :=
  ops.foldl (fun c o => o.2.run c o.1) c

def netBefore (ops : List (cal.Instant × DateOp)) (day k : Nat) : Int :=
  ((ops.filter fun o => o.1.day + k = day).map fun o => o.2.amount).sum

end DateCounter

def Calendar.InOrder {cal : Calendar} (t0 : cal.Instant) (ops : List (cal.Instant × DateOp)) (t : cal.Instant) : Prop :=
  (t0 :: ops.map (·.1) ++ [t]).Pairwise fun i j => i.time ≤ j.time

instance {cal : Calendar} (t0 : cal.Instant) (ops : List (cal.Instant × DateOp)) (t : cal.Instant) :
    Decidable (Calendar.InOrder t0 ops t) :=
  inferInstanceAs (Decidable (List.Pairwise _ _))

end Frp
