import Frp.Levelling
import Frp.NatClassify

/-!
# Hole-punching behaviours and their scores

The tables of `pkg/nathole/analysis.go` and the records kept for a pair of peers:
`recommand` lowers the score of what it recommends by one; `reportSuccess` raises a score by
two, up to ten.
-/

namespace Frp

inductive DetectRole
  | unset
  | sender
  | receiver
  deriving DecidableEq

structure RecommandBehavior where
  role : DetectRole := .unset
  ttl : Int := 0
  sendDelayMs : Int := 0
  portsRangeNumber : Int := 0
  portsRandomNumber : Int := 0
  listenRandomPorts : Int := 0
  deriving DecidableEq

def mode0Behaviors : List (RecommandBehavior × RecommandBehavior) := [
  ({ role := .sender }, { role := .receiver, ttl := 7 }),
  ({ role := .receiver, ttl := 7 }, { role := .sender }),
  ({ role := .sender }, { role := .receiver, ttl := 4 }),
  ({ role := .receiver, ttl := 4 }, { role := .sender }),
  ({ role := .sender }, { role := .receiver }),
  ({ role := .receiver }, { role := .sender }),
  ({ role := .sender, sendDelayMs := 5000 }, { role := .receiver }),
  ({ role := .sender, sendDelayMs := 10000 }, { role := .receiver }),
  ({ role := .receiver }, { role := .sender, sendDelayMs := 5000 }),
  ({ role := .receiver }, { role := .sender, sendDelayMs := 10000 })]

def mode1Behaviors : List (RecommandBehavior × RecommandBehavior) := [
  ({ role := .sender }, { role := .receiver, ttl := 7, portsRangeNumber := 10 }),
  ({ role := .sender, sendDelayMs := 2000 }, { role := .receiver, ttl := 7, portsRangeNumber := 10 }),
  ({ role := .sender }, { role := .receiver, ttl := 4, portsRangeNumber := 10 }),
  ({ role := .sender, sendDelayMs := 2000 }, { role := .receiver, ttl := 4, portsRangeNumber := 10 }),
  ({ role := .sender }, { role := .receiver, portsRangeNumber := 10 }),
  ({ role := .sender, sendDelayMs := 2000 }, { role := .receiver, portsRangeNumber := 10 })]

def mode2Behaviors : List (RecommandBehavior × RecommandBehavior) := [
  ({ role := .sender, portsRandomNumber := 1000, sendDelayMs := 3000 },
    { role := .receiver, listenRandomPorts := 256, ttl := 7 }),
  ({ role := .sender, portsRandomNumber := 1000, sendDelayMs := 3000 },
    { role := .receiver, listenRandomPorts := 256, ttl := 4 }),
  ({ role := .sender, portsRandomNumber := 1000, sendDelayMs := 3000 },
    { role := .receiver, listenRandomPorts := 256 })]

def mode3Behaviors : List (RecommandBehavior × RecommandBehavior) := [
  ({ role := .sender, portsRangeNumber := 10 }, { role := .receiver, ttl := 7, portsRangeNumber := 10 }),
  ({ role := .sender, portsRangeNumber := 10 }, { role := .receiver, ttl := 4, portsRangeNumber := 10 }),
  ({ role := .sender, portsRangeNumber := 10 }, { role := .receiver, portsRangeNumber := 10 }),
  ({ role := .receiver, ttl := 7, portsRangeNumber := 10 }, { role := .sender, portsRangeNumber := 10 }),
  ({ role := .receiver, ttl := 4, portsRangeNumber := 10 }, { role := .sender, portsRangeNumber := 10 }),
  ({ role := .receiver, portsRangeNumber := 10 }, { role := .sender, portsRangeNumber := 10 })]

def mode4Behaviors : List (RecommandBehavior × RecommandBehavior) := [
  ({ role := .sender, portsRandomNumber := 1000, sendDelayMs := 3000 },
    { role := .receiver, listenRandomPorts := 256, ttl := 7, portsRangeNumber := 2 }),
  ({ role := .sender, portsRandomNumber := 1000, sendDelayMs := 3000 },
    { role := .receiver, listenRandomPorts := 256, ttl := 4, portsRangeNumber := 2 }),
  ({ role := .sender, portsRandomNumber := 1000, sendDelayMs := 3000 },
    { role := .receiver, listenRandomPorts := 256, portsRangeNumber := 2 })]

def getBehaviorByMode : Nat → List (RecommandBehavior × RecommandBehavior)
  | 0 => mode0Behaviors
  | 1 => mode1Behaviors
  | 2 => mode2Behaviors
  | 3 => mode3Behaviors
  | 4 => mode4Behaviors
  | _ => mode0Behaviors

def getBehaviorByModeAndIndex (mode index : Nat) : RecommandBehavior × RecommandBehavior :=
  (getBehaviorByMode mode)[index]?.getD ({}, {})

structure BehaviorScore where
  mode : Nat
  index : Nat
  score : Int
  deriving DecidableEq

def BehaviorScore.lessOne (x : BehaviorScore) : BehaviorScore := { x with score := x.score - 1 }

def BehaviorScore.id (x : BehaviorScore) : Nat × Nat := (x.mode, x.index)

def getBehaviorScoresByMode2 (mode : Nat) (senderScore receiverScore : Int) : List BehaviorScore :=
  (getBehaviorByMode mode).mapIdx fun i b => ⟨mode, i, if b.1.role = .sender then senderScore else receiverScore⟩

def getBehaviorScoresByMode (mode : Nat) (defaultScore : Int) : List BehaviorScore :=
  getBehaviorScoresByMode2 mode defaultScore defaultScore

def classifyFeatureCount : List NatFeature → Nat × Nat × Nat
  | [] => (0, 0, 0)
  | f :: rest =>
    let (easy, hard, regular) := classifyFeatureCount rest
    if f.natType = .easyNAT then (easy + 1, hard, regular)
    else (easy, hard + 1, if f.regularPortsChange then regular + 1 else regular)

structure MakeHoleRecords where
  scores : List BehaviorScore
  lastUpdateTime : Int

def mode0Scores (c v : NatFeature) : List BehaviorScore :=
  if c.publicNetwork then getBehaviorScoresByMode2 0 0 1
  else if v.publicNetwork then getBehaviorScoresByMode2 0 1 0
  else getBehaviorScoresByMode 0 0

def initialScores (c v : NatFeature) : List BehaviorScore :=
  match classifyFeatureCount [c, v] with
  | (2, _, _) => mode0Scores c v
  | (_, 1, 1) => getBehaviorScoresByMode 1 0 ++ getBehaviorScoresByMode 2 0 ++ mode0Scores c v
  | (_, 1, 0) => getBehaviorScoresByMode 2 0 ++ getBehaviorScoresByMode 1 0 ++ mode0Scores c v
  | (_, 2, 2) => getBehaviorScoresByMode 3 0 ++ getBehaviorScoresByMode 4 0
  | (_, 2, 1) => getBehaviorScoresByMode 4 0
  -- hard to make a hole
  | _ => getBehaviorScoresByMode 0 1 ++ getBehaviorScoresByMode 1 1 ++ getBehaviorScoresByMode 3 1

def newMakeHoleRecords (c v : NatFeature) (now : Int) : MakeHoleRecords := ⟨initialScores c v, now⟩

def raiseScore (mode index : Nat) : List BehaviorScore → List BehaviorScore
  | [] => []
  | x :: rest =>
    if x.mode ≠ mode ∨ x.index ≠ index then x :: raiseScore mode index rest
    else { x with score := min (x.score + 2) 10 } :: rest

namespace MakeHoleRecords

def reportSuccess (r : MakeHoleRecords) (mode index : Nat) (now : Int) : MakeHoleRecords :=
  ⟨raiseScore mode index r.scores, now⟩

def recommand (r : MakeHoleRecords) (now : Int) : MakeHoleRecords × Nat × Nat :=
  match greatest BehaviorScore.score r.scores with
  | none => (r, 0, 0)
  | some maxScore => (⟨lower BehaviorScore.score BehaviorScore.lessOne r.scores, now⟩, maxScore.mode, maxScore.index)

def recommands (r : MakeHoleRecords) : List Int → List (Nat × Nat)
  | [] => []
  | now :: nows => (r.recommand now).2 :: (r.recommand now).1.recommands nows

end MakeHoleRecords

inductive RecordCall
  | recommand (now : Int)
  | reportSuccess (mode index : Nat) (now : Int)

def MakeHoleRecords.call (r : MakeHoleRecords) : RecordCall → MakeHoleRecords
  | .recommand now => (r.recommand now).1
  | .reportSuccess mode index now => r.reportSuccess mode index now

def MakeHoleRecords.run (r : MakeHoleRecords) (calls : List RecordCall) : MakeHoleRecords :=
  calls.foldl MakeHoleRecords.call r

open BehaviorScore

/-! ## The entries -/

theorem BehaviorScore.lessOne_score (x : BehaviorScore) : x.lessOne.score = x.score - 1 := rfl

theorem lower_ids (l : List BehaviorScore) :
    (lower BehaviorScore.score BehaviorScore.lessOne l).map BehaviorScore.id = l.map BehaviorScore.id := by
  unfold lower
  split
  · rfl
  · rename_i i _
    refine List.ext_getElem? fun j => ?_
    rw [List.getElem?_map, List.getElem?_map]
    by_cases hij : i = j
    · subst hij
      rw [List.getElem?_modify_eq]
      cases l[i]? <;> rfl
    · rw [List.getElem?_modify_ne _ _ hij]

theorem raiseScore_ids (mode index : Nat) (l : List BehaviorScore) :
    (raiseScore mode index l).map BehaviorScore.id = l.map BehaviorScore.id := by
  induction l with
  | nil => rfl
  | cons x rest ih =>
    unfold raiseScore
    split
    · rw [List.map_cons, ih, List.map_cons]
    · rfl

namespace MakeHoleRecords

variable {r : MakeHoleRecords}

theorem recommand_scores (r : MakeHoleRecords) (now : Int) :
    (r.recommand now).1.scores = lower score lessOne r.scores := by
  cases hm : greatest score r.scores with
  | none => simp [recommand, lower, firstMax, hm]
  | some => simp [recommand, hm]

theorem call_ids (r : MakeHoleRecords) (c : RecordCall) :
    (r.call c).scores.map BehaviorScore.id = r.scores.map BehaviorScore.id := by
  cases c with
  | recommand => rw [call, recommand_scores]; exact lower_ids r.scores
  | reportSuccess mode index => exact raiseScore_ids mode index r.scores

theorem run_ids (r : MakeHoleRecords) (calls : List RecordCall) :
    (r.run calls).scores.map BehaviorScore.id = r.scores.map BehaviorScore.id := by
  induction calls generalizing r with
  | nil => rfl
  | cons c calls ih => exact (ih (r.call c)).trans (r.call_ids c)

theorem recommand_mem (hne : r.scores ≠ []) (now : Int) : (r.recommand now).2 ∈ r.scores.map BehaviorScore.id := by
  cases hm : greatest BehaviorScore.score r.scores with
  | none => exact absurd (List.argmax_eq_none.mp hm) hne
  | some => simp only [recommand, hm]; exact List.mem_map_of_mem (List.argmax_mem hm)

end MakeHoleRecords

end Frp
