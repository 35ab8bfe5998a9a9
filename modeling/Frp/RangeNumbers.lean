import Frp.NatClassify
import Frp.Ports
import Frp.TrimSpace

/-!
# The two parsers of number ranges

`ParseRangeNumbers` of `pkg/util/util/util.go` and `NewPortsRangeSliceFromString` of
`pkg/config/types/types.go`. The first has a loop over an `int64`, which is given fuel:
`none` is a loop that has used it up.
-/

namespace Frp

/-- `number` is an error of `strconv.ParseInt` on the text. -/
inductive RangeError
  | number (text : Str)
  | invalid
  deriving DecidableEq

inductive NumRange
  | single (singleNum : Int)
  | range (minValue maxValue : Int)
  deriving DecidableEq

/-- One part of the text, `1000-2000` or `2001`; the same lines are in both functions. -/
def parseNumRange (numRangeStr : Str) : Except RangeError NumRange :=
  match numRangeStr.split 45 with
  | [a] =>
    match atoi a.trimSpace with
    | none => .error (.number a.trimSpace)
    | some singleNum => .ok (.single singleNum)
  | [a, b] =>
    match atoi a.trimSpace with
    | none => .error (.number a.trimSpace)
    | some minValue =>
      match atoi b.trimSpace with
      | none => .error (.number b.trimSpace)
      | some maxValue => if maxValue < minValue then .error .invalid else .ok (.range minValue maxValue)
  | _ => .error .invalid

def NumRange.portsRange : NumRange → PortsRange
  | single singleNum => ⟨0, 0, singleNum⟩
  | range minValue maxValue => ⟨minValue, maxValue, 0⟩

def portsRangesLoop (out : List PortsRange) : List Str → Except RangeError (List PortsRange)
  | [] => .ok out
  | numRangeStr :: rest =>
    match parseNumRange numRangeStr with
    | .error e => .error e
    | .ok r => portsRangesLoop (out ++ [r.portsRange]) rest

def newPortsRangeSliceFromString (str : Str) : Except RangeError (List PortsRange) :=
  portsRangesLoop [] (str.trimSpace.split 44)

def countUp : Nat → Int → Int → List Int → Option (List Int)
  | 0, _, _, _ => none
  | fuel + 1, i, maxValue, numbers =>
    if i ≤ maxValue then countUp fuel (wrapInt (i + 1)) maxValue (numbers ++ [i]) else some numbers

def rangeNumbersLoop (fuel : Nat) (numbers : List Int) : List Str → Option (List Int × Option RangeError)
  | [] => some (numbers, none)
  | numRangeStr :: rest =>
    match parseNumRange numRangeStr with
    | .error e => some (numbers, some e)
    | .ok (.single singleNum) => rangeNumbersLoop fuel (numbers ++ [singleNum]) rest
    | .ok (.range minValue maxValue) =>
      match countUp fuel minValue maxValue numbers with
      | none => none
      | some numbers => rangeNumbersLoop fuel numbers rest

/-- The numbers read so far are returned together with the error. -/
def parseRangeNumbers (fuel : Nat) (rangeStr : Str) : Option (List Int × Option RangeError) :=
  rangeNumbersLoop fuel [] (rangeStr.trimSpace.split 44)

def inclusive (a b : Int) : List Int := (List.range (b - a + 1).toNat).map fun n : Nat => a + n

def PortsRange.numbers (r : PortsRange) : List Int := if r.single > 0 then [r.single] else inclusive r.start r.stop

def maxInt64 : Int := 2 ^ 63 - 1

/-- No part that is read, up to the first one that is refused, is a range up to the greatest `int64`. -/
def Ends (parts : List Str) : Prop :=
  ∀ w ∈ parts.takeWhile fun w => (parseNumRange w).isOk, ∀ lo, parseNumRange w ≠ .ok (.range lo maxInt64)

open NumRange

/-! ## Reading one part -/

theorem atoi_nonneg {s : Str} {n : Int} (hs : 45 ∉ s) (h : atoi s = some n) : 0 ≤ n := by
  have hsign : (cutSign s).1 = false := by
    cases s with
    | nil => rfl
    | cons b =>
      have hb : b ≠ 45 := fun h => hs (h ▸ List.mem_cons_self)
      simp only [cutSign, if_neg hb]
      split <;> rfl
  unfold atoi at h
  split at h
  · cases h
  · obtain ⟨m, -, h⟩ := Option.bind_eq_some_iff.mp h
    simp only [hsign, Bool.false_eq_true, if_false, intRange] at h
    split at h
    · rw [← Option.some.inj h]; exact Int.natCast_nonneg m
    · cases h

variable {w : Str} {r : NumRange}

def NumRange.Valid : NumRange → Prop
  | single n => 0 ≤ n ∧ n < 2 ^ 63
  | range a b => 0 ≤ a ∧ a ≤ b ∧ b < 2 ^ 63

theorem atoi_field {a : Str} {n : Int} (ha : a ∈ w.split 45) (h : atoi a.trimSpace = some n) : 0 ≤ n ∧ n < 2 ^ 63 :=
  ⟨atoi_nonneg (fun hm => not_mem_split a ha (Str.mem_of_mem_trimSpace hm)) h, (atoi_bounds h).2⟩

theorem parseNumRange_valid (h : parseNumRange w = .ok r) : r.Valid := by
  unfold parseNumRange at h
  split at h
  · rename_i a hsplit
    cases hn : atoi a.trimSpace with
    | none => rw [hn] at h; cases h
    | some =>
      rw [hn] at h; cases h
      exact atoi_field (hsplit ▸ List.mem_singleton_self a) hn
  · rename_i a b hsplit
    cases ha : atoi a.trimSpace with
    | none => rw [ha] at h; cases h
    | some x =>
      cases hb : atoi b.trimSpace with
      | none => rw [ha, hb] at h; cases h
      | some y =>
        rw [ha, hb] at h
        by_cases hlt : y < x
        · simp only [hlt, if_true] at h; cases h
        · simp only [hlt, if_false] at h
          cases h
          have hx := atoi_field (w := w) (by simp [hsplit]) ha
          have hy := atoi_field (w := w) (by simp [hsplit]) hb
          exact ⟨hx.1, Int.not_lt.mp hlt, hy.2⟩
  · cases h

def NumRange.numbers : NumRange → List Int
  | single n => [n]
  | range a b => inclusive a b

theorem numbers_portsRange (h : parseNumRange w = .ok r) : r.portsRange.numbers = r.numbers := by
  cases r with
  | single n =>
    have hn := (parseNumRange_valid h).1
    unfold portsRange PortsRange.numbers numbers
    by_cases hpos : n > 0
    · simp [hpos]
    · have : n = 0 := by omega
      subst this
      decide
  | range => simp [portsRange, PortsRange.numbers, numbers]

/-! ## The loops -/

variable {a b : Int}

theorem inclusive_nil (h : b < a) : inclusive a b = [] := by
  have : (b - a + 1).toNat = 0 := by omega
  simp [inclusive, this]

theorem inclusive_cons (h : a ≤ b) : inclusive a b = a :: inclusive (a + 1) b := by
  have hn : (b - a + 1).toNat = (b - (a + 1) + 1).toNat + 1 := by omega
  unfold inclusive
  rw [hn, List.range_succ_eq_map, List.map_cons, List.map_map]
  simp only [Int.ofNat_zero, Int.add_zero, List.cons.injEq, true_and]
  apply List.map_congr_left
  intro n _
  simp only [Function.comp_apply, Nat.succ_eq_add_one, Int.natCast_add]; omega

theorem countUp_inclusive (hb : b < maxInt64) (n : Nat) :
    ∀ (i : Int) (numbers : List Int) (fuel : Nat), (b + 1 - i).toNat = n → -2 ^ 63 ≤ i → n < fuel →
      countUp fuel i b numbers = some (numbers ++ inclusive i b) := by
  unfold maxInt64 at hb
  induction n with
  | zero =>
    intro i numbers fuel hn hi hfuel
    obtain ⟨fuel, rfl⟩ := Nat.exists_eq_add_of_lt hfuel
    have hlt : b < i := by omega
    simp [countUp, inclusive_nil hlt, Int.not_le.mpr hlt]
  | succ n ih =>
    intro i numbers fuel hn hi hfuel
    obtain ⟨fuel, rfl⟩ : ∃ m, fuel = m + 1 := ⟨fuel - 1, by omega⟩
    have hle : i ≤ b := by omega
    unfold countUp
    rw [if_pos hle, wrapInt_eq (by omega) (by omega), ih (i + 1) _ fuel (by omega) (by omega) (by omega),
      inclusive_cons hle, List.append_assoc, List.singleton_append]

theorem countUp_endless (fuel : Nat) : ∀ (i : Int) (numbers : List Int), i < 2 ^ 63 →
    countUp fuel i maxInt64 numbers = none := by
  induction fuel with
  | zero => exact fun _ _ _ => rfl
  | succ fuel ih =>
    intro i numbers hi
    unfold countUp
    rw [if_pos (by unfold maxInt64; omega)]
    exact ih _ _ (Int.bmod_lt (by decide))

variable {rest : List Str}

theorem Ends.tail (hr : parseNumRange w = .ok r) (h : Ends (w :: rest)) : Ends rest := by
  intro v hv
  apply h v
  rw [List.takeWhile_cons, hr]; exact List.mem_cons_of_mem _ hv

theorem Ends.head (hr : parseNumRange w = .ok (.range a b)) (h : Ends (w :: rest)) : b < maxInt64 := by
  have hne : b ≠ maxInt64 := by
    intro hb
    refine h w ?_ a (hb ▸ hr)
    rw [List.takeWhile_cons, hr]; exact List.mem_cons_self
  have := (parseNumRange_valid hr).2.2
  unfold maxInt64 at hne ⊢
  omega

attribute [local simp] rangeNumbersLoop

theorem rangeNumbersLoop_part (hr : parseNumRange w = .ok r)
    (h : Ends (w :: rest)) : ∃ least, ∀ fuel, least ≤ fuel → ∀ numbers,
      rangeNumbersLoop fuel numbers (w :: rest) = rangeNumbersLoop fuel (numbers ++ r.numbers) rest := by
  cases r with
  | single =>
    refine ⟨0, fun fuel _ numbers => ?_⟩
    simp [hr, NumRange.numbers]
  | range a b =>
    have hb := h.head hr
    have hbounds := parseNumRange_valid hr
    refine ⟨(b + 1 - a).toNat + 1, fun fuel hfuel numbers => ?_⟩
    rw [rangeNumbersLoop, hr]
    have hlow : -2 ^ 63 ≤ a := Int.le_trans (by decide) hbounds.1
    simp only [countUp_inclusive hb _ a numbers fuel rfl hlow (by omega), NumRange.numbers]

theorem portsRangesLoop_part {out : List PortsRange}
    (hr : parseNumRange w = .ok r) :
    portsRangesLoop out (w :: rest) = portsRangesLoop (out ++ [r.portsRange]) rest := by
  rw [portsRangesLoop, hr]

theorem loops_agree (parts : List Str) : ∀ numbers out, Ends parts → ∃ least, ∀ fuel, least ≤ fuel →
    (∃ added e, rangeNumbersLoop fuel numbers parts = some (numbers ++ added, some e) ∧
      portsRangesLoop out parts = .error e) ∨
    ∃ ranges, rangeNumbersLoop fuel numbers parts = some (numbers ++ ranges.flatMap PortsRange.numbers, none) ∧
      portsRangesLoop out parts = .ok (out ++ ranges) := by
  induction parts with
  | nil =>
    intro numbers out _; exact ⟨0, fun fuel _ => .inr ⟨[], by simp, by simp [portsRangesLoop]⟩⟩
  | cons w rest ih =>
    intro numbers out h
    cases hr : parseNumRange w with
    | error e => exact ⟨0, fun fuel _ => .inl ⟨[], e, by simp [hr], by simp [portsRangesLoop, hr]⟩⟩
    | ok r =>
      obtain ⟨n, hn⟩ := rangeNumbersLoop_part hr h
      obtain ⟨m, hm⟩ := ih (numbers ++ r.numbers) (out ++ [r.portsRange]) (h.tail hr)
      refine ⟨max n m, fun fuel hfuel => ?_⟩
      rw [hn fuel (by omega) numbers, portsRangesLoop_part hr]
      cases hm fuel (by omega) with
      | inl hm =>
        obtain ⟨added, e, hadded, herr⟩ := hm
        exact .inl ⟨r.numbers ++ added, e, by rw [hadded, List.append_assoc], herr⟩
      | inr hm =>
        obtain ⟨ranges, hadded, hok⟩ := hm
        refine .inr ⟨r.portsRange :: ranges, ?_, ?_⟩
        · rw [hadded, List.flatMap_cons, numbers_portsRange hr, List.append_assoc]
        · rw [hok, List.append_assoc, List.singleton_append]

theorem rangeNumbersLoop_endless {parts : List Str} (h : ¬ Ends parts) (fuel : Nat) :
    ∀ numbers, rangeNumbersLoop fuel numbers parts = none := by
  induction parts with
  | nil => exact absurd (fun w hw => absurd hw List.not_mem_nil) h
  | cons w rest ih =>
    intro numbers
    cases hr : parseNumRange w with
    | error =>
      refine absurd (fun v hv => ?_) h
      rw [List.takeWhile_cons, hr] at hv; exact absurd hv List.not_mem_nil
    | ok r =>
      by_cases hrest : Ends rest
      · obtain ⟨lo, rfl⟩ : ∃ lo, r = .range lo maxInt64 := by
          refine Classical.byContradiction fun hne => h fun v hv lo hlo => ?_
          rw [List.takeWhile_cons, hr] at hv
          cases hv with
          | head => exact hne ⟨lo, Except.ok.inj (hr.symm.trans hlo)⟩
          | tail _ hv => exact hrest v hv lo hlo
        have hbounds := parseNumRange_valid hr
        simp only [rangeNumbersLoop, hr]
        rw [countUp_endless fuel lo numbers (Int.lt_of_le_of_lt hbounds.2.1 hbounds.2.2)]
      · cases r with
        | single => simp only [rangeNumbersLoop, hr]; exact ih hrest _
        | range a b =>
          simp only [rangeNumbersLoop, hr]
          cases countUp fuel a b numbers with
          | none => rfl
          | some numbers => exact ih hrest numbers

/-- `ParseRangeNumbers` ends, and then agrees with the other parser, exactly if no range that it reads
goes up to the greatest `int64`. -/
theorem range_parsers_agree (s : Str) : Ends (s.trimSpace.split 44) ↔
    ∃ least, ∀ fuel, least ≤ fuel → ∃ numbers err, parseRangeNumbers fuel s = some (numbers, err) ∧
      (err = none ↔ ∃ ranges, newPortsRangeSliceFromString s = .ok ranges) ∧
      ∀ ranges, newPortsRangeSliceFromString s = .ok ranges → numbers = ranges.flatMap PortsRange.numbers := by
  refine ⟨fun hends => ?_, fun ⟨least, h⟩ => ?_⟩
  rotate_left
  · by_contra hends
    obtain ⟨numbers, err, hsome, -⟩ := h least (Nat.le_refl least)
    cases (rangeNumbersLoop_endless hends least []).symm.trans hsome
  obtain ⟨least, h⟩ := loops_agree (s.trimSpace.split 44) [] [] hends
  refine ⟨least, fun fuel hfuel => ?_⟩
  unfold parseRangeNumbers newPortsRangeSliceFromString
  cases h fuel hfuel with
  | inl h =>
    obtain ⟨added, e, hnum, hports⟩ := h
    exact ⟨added, some e, hnum, by simp [hports], by simp [hports]⟩
  | inr h =>
    obtain ⟨ranges, hnum, hports⟩ := h
    exact ⟨_, none, hnum, by simp [hports], by simp [hports]⟩

theorem range_parsers_agree_text :
    ∃ least, ∀ fuel, least ≤ fuel → ∃ numbers err, parseRangeNumbers fuel (lit " 1000-1002,7") = some (numbers, err) ∧
      (err = none ↔ ∃ ranges, newPortsRangeSliceFromString (lit " 1000-1002,7") = .ok ranges) ∧
      ∀ ranges, newPortsRangeSliceFromString (lit " 1000-1002,7") = .ok ranges →
        numbers = ranges.flatMap PortsRange.numbers :=
  (range_parsers_agree (lit " 1000-1002,7")).mp fun w hw lo hlo => by
    rw [show (Str.trimSpace (lit " 1000-1002,7")).split 44 = [lit "1000-1002", lit "7"] by decide] at hw
    have hw := (List.takeWhile_sublist _).subset hw
    simp only [List.mem_cons, List.not_mem_nil, or_false] at hw
    rcases hw with rfl | rfl
    · rw [show parseNumRange (lit "1000-1002") = .ok (.range 1000 1002) by decide] at hlo
      simp [maxInt64] at hlo
    · rw [show parseNumRange (lit "7") = .ok (.single 7) by decide] at hlo; simp at hlo

theorem range_up_to_max_endless :
    newPortsRangeSliceFromString (lit "9223372036854775807-9223372036854775807") = .ok [⟨maxInt64, maxInt64, 0⟩] ∧
      ∀ fuel, parseRangeNumbers fuel (lit "9223372036854775807-9223372036854775807") = none := by
  refine ⟨by decide, fun fuel => rangeNumbersLoop_endless (fun h => ?_) fuel []⟩
  exact h (lit "9223372036854775807-9223372036854775807") (by decide) maxInt64 (by decide)

end Frp
