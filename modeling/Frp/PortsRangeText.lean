import Frp.NatHole
import Frp.RangeNumbers

/-!
# The text of port ranges

`PortsRangeSlice.String` of `pkg/config/types/types.go` prints what
`NewPortsRangeSliceFromString` reads. A single port 0 is printed as the range `0-0`, which is
read as the same value.
-/

namespace Frp

def PortsRange.string (v : PortsRange) : Str :=
  if v.single > 0 then formatInt v.single else formatInt v.start ++ 45 :: formatInt v.stop

def portsRangeSliceString (p : List PortsRange) : Str :=
  if p = [] then [] else Str.join (p.map PortsRange.string) 44

/-! ## Numbers -/

abbrev Digit (b : UInt8) : Prop := 48 ≤ b ∧ b ≤ 57

open PortsRange

theorem decimal_digits (cs : List Char) (h : ∀ c ∈ cs, c.isDigit = true) : ∀ n,
    (∀ b ∈ cs.map fun c => UInt8.ofNat c.toNat, Digit b) ∧
      (cs.map fun c => UInt8.ofNat c.toNat).foldlM decimal n = some (Nat.ofDigitChars 10 cs n) := by
  induction cs with
  | nil => exact fun n => ⟨by simp, rfl⟩
  | cons c cs ih =>
    obtain ⟨hc, hcs⟩ := List.forall_mem_cons.mp h
    intro n
    have hrange : 48 ≤ c.toNat ∧ c.toNat ≤ 57 := by
      simp only [Char.isDigit, Bool.and_eq_true, decide_eq_true_eq] at hc; exact hc
    have hnat : (UInt8.ofNat c.toNat).toNat = c.toNat := by rw [UInt8.toNat_ofNat']; omega
    have hdigit : Digit (UInt8.ofNat c.toNat) := by
      refine ⟨UInt8.le_iff_toNat_le.mpr ?_, UInt8.le_iff_toNat_le.mpr ?_⟩ <;> rw [hnat]
      · exact hrange.1
      · exact hrange.2
    obtain ⟨hall, hfold⟩ := ih hcs (10 * n + (c.toNat - 48))
    refine ⟨List.forall_mem_cons.mpr ⟨hdigit, hall⟩, ?_⟩
    have hstep : decimal n (UInt8.ofNat c.toNat) = some (10 * n + (c.toNat - 48)) := by
      rw [decimal, if_pos hdigit, hnat, Nat.mul_comm]
    rw [List.map_cons, List.foldlM_cons, hstep]; exact hfold

theorem formatInt_digits (n : Nat) :
    formatInt n ≠ [] ∧ (∀ b ∈ formatInt n, Digit b) ∧ (formatInt n).foldlM decimal 0 = some n := by
  have htext : formatInt n = (Nat.toDigits 10 n).map fun c => UInt8.ofNat c.toNat := by
    show (n.repr.toList).map _ = _
    rw [Nat.toList_repr]
  obtain ⟨hall, hfold⟩ := decimal_digits (Nat.toDigits 10 n)
    (fun c hc => Nat.isDigit_of_mem_toDigits (by decide) (by decide) hc) 0
  rw [Nat.ofDigitChars_ten_toDigits] at hfold
  rw [htext]; exact ⟨by simp [Nat.toDigits_ne_nil], hall, hfold⟩

variable {n a b : Int}

theorem formatInt_natural (h : 0 ≤ n) : formatInt n ≠ [] ∧ ∀ b ∈ formatInt n, Digit b := by
  obtain ⟨m, rfl⟩ := Int.eq_ofNat_of_zero_le h
  exact ⟨(formatInt_digits m).1, (formatInt_digits m).2.1⟩

theorem atoi_formatInt (h : 0 ≤ n) (hlt : n < 2 ^ 63) : atoi (formatInt n) = some n := by
  obtain ⟨m, rfl⟩ := Int.eq_ofNat_of_zero_le h
  obtain ⟨hne, hall, hfold⟩ := formatInt_digits m
  have hsign : cutSign (formatInt m) = (false, formatInt m) := by
    obtain ⟨b, s, hs⟩ := List.exists_cons_of_ne_nil hne
    have hb := hall b (hs ▸ List.mem_cons_self)
    have hminus : b ≠ 45 := fun e => absurd (e ▸ hb) (by decide)
    have hplus : b ≠ 43 := fun e => absurd (e ▸ hb) (by decide)
    rw [hs, cutSign, if_neg hminus, if_neg hplus]
  have hrange : intRange m = some (m : Int) := if_pos ⟨by omega, hlt⟩
  unfold atoi; rw [hsign, if_neg hne, hfold, Option.bind_some, if_neg Bool.false_ne_true, hrange]

/-! ## Texts that begin and end with a digit -/

structure Tight (s : Str) : Prop where
  head : ∃ b, s.head? = some b ∧ Digit b
  last : ∃ b, s.getLast? = some b ∧ Digit b

variable {s : Str}

theorem Tight.of_digits (hne : s ≠ []) (h : ∀ b ∈ s, Digit b) : Tight s :=
  ⟨⟨s.head hne, List.head?_eq_some_head hne, h _ (List.head_mem hne)⟩,
    ⟨s.getLast hne, List.getLast?_eq_some_getLast hne, h _ (List.getLast_mem hne)⟩⟩

theorem Tight.append {s t : Str} (hs : Tight s) (ht : Tight t) (sep : UInt8) : Tight (s ++ sep :: t) := by
  obtain ⟨b, hb, hdigit⟩ := hs.head
  obtain ⟨c, hc, hlast⟩ := ht.last
  refine ⟨⟨b, by rw [List.head?_append, hb]; rfl, hdigit⟩, ⟨c, ?_, hlast⟩⟩
  rw [List.getLast?_append, List.getLast?_cons, hc]; rfl

theorem Tight.join {sep : UInt8} : ∀ {ws : List Str}, ws ≠ [] → (∀ w ∈ ws, Tight w) → Tight (Str.join ws sep)
  | [], h, _ => absurd rfl h
  | [w], _, hw => hw w List.mem_cons_self
  | w :: v :: ws, _, hw => by
    obtain ⟨hfirst, hrest⟩ := List.forall_mem_cons.mp hw
    exact hfirst.append (Tight.join (List.cons_ne_nil v ws) hrest) sep

theorem no_word_at_digit {words : List Str} (hw : ∀ w ∈ words, ∃ b r, w = b :: r ∧ ¬ Digit b) {b : UInt8}
    (hb : s.head? = some b) (hdigit : Digit b) : ∀ w ∈ words, ¬ w <+: s := by
  intro w hmem hp
  obtain ⟨c, r, rfl, hc⟩ := hw w hmem
  obtain ⟨t, rfl⟩ := hp
  cases hb; exact hc hdigit

theorem Tight.trimSpace (h : Tight s) : s.trimSpace = s := by
  obtain ⟨b, hb, hfirst⟩ := h.head
  obtain ⟨c, hc, hlast⟩ := h.last
  have hleft : s.trimLeft = s := dropWords_eq_self (no_word_at_digit (by simp [spaces]) hb hfirst) _
  have hright : s.trimRight = s := by
    unfold Str.trimRight
    rw [dropWords_eq_self (no_word_at_digit (by simp [spaces]) (List.head?_reverse.trans hc) hlast),
      List.reverse_reverse]
  rw [Str.trimSpace, hleft, hright]

/-! ## Printing and reading again -/

theorem not_mem_formatInt {c : UInt8} (hc : ¬ Digit c) (h : 0 ≤ n) : c ∉ formatInt n :=
  fun hm => hc ((formatInt_natural h).2 c hm)

theorem tight_formatInt (h : 0 ≤ n) : Tight (formatInt n) := .of_digits (formatInt_natural h).1 (formatInt_natural h).2

theorem parseNumRange_number (h : 0 ≤ n) (hlt : n < 2 ^ 63) : parseNumRange (formatInt n) = .ok (.single n) := by
  have hfree : 45 ∉ formatInt n := not_mem_formatInt (by decide) h
  simp only [parseNumRange, split_of_free hfree, (tight_formatInt h).trimSpace, atoi_formatInt h hlt]

theorem parseNumRange_pair (ha : 0 ≤ a) (hab : a ≤ b) (hb : b < 2 ^ 63) :
    parseNumRange (formatInt a ++ 45 :: formatInt b) = .ok (.range a b) := by
  have hb0 : 0 ≤ b := Int.le_trans ha hab
  have hsplit : (formatInt a ++ 45 :: formatInt b).split 45 = [formatInt a, formatInt b] := by
    rw [split_append, split_of_free (not_mem_formatInt (by decide) ha),
      split_of_free (not_mem_formatInt (by decide) hb0)]
    rfl
  simp only [parseNumRange, hsplit, (tight_formatInt ha).trimSpace, (tight_formatInt hb0).trimSpace,
    atoi_formatInt ha (Int.lt_of_le_of_lt hab hb), atoi_formatInt hb0 hb, Int.not_lt.mpr hab, if_false]

structure Printed (v : PortsRange) : Prop where
  tight : Tight v.string
  free : 44 ∉ v.string
  read : ∃ r, parseNumRange v.string = .ok r ∧ r.portsRange = v

theorem Printed.pair (ha : 0 ≤ a) (hab : a ≤ b) (hb : b < 2 ^ 63) : Printed ⟨a, b, 0⟩ where
  tight := (tight_formatInt ha).append (tight_formatInt (Int.le_trans ha hab)) 45
  free := by
    intro hm
    rcases List.mem_append.mp hm with hm | hm
    · exact not_mem_formatInt (by decide) ha hm
    · rcases List.mem_cons.mp hm with hm | hm
      · cases hm
      · exact not_mem_formatInt (by decide) (Int.le_trans ha hab) hm
  read := ⟨.range a b, parseNumRange_pair ha hab hb, rfl⟩

theorem NumRange.Valid.printed {r : NumRange} (h : r.Valid) : Printed r.portsRange := by
  cases r with
  | single n =>
    by_cases hpos : n > 0
    · have hstring : string ⟨0, 0, n⟩ = formatInt n := if_pos hpos
      refine ⟨?_, ?_, .single n, ?_, rfl⟩
      · exact hstring ▸ tight_formatInt h.1
      · exact hstring ▸ not_mem_formatInt (by decide) h.1
      · exact hstring ▸ parseNumRange_number h.1 h.2
    · -- zero is printed as a range
      have hzero : n = 0 := Int.le_antisymm (Int.not_lt.mp hpos) h.1
      subst hzero; exact .pair (Int.le_refl 0) (Int.le_refl 0) h.2
  | range => exact .pair h.1 h.2.1 h.2.2

theorem portsRangesLoop_printed {parts : List Str} : ∀ {out ranges}, portsRangesLoop out parts = .ok ranges →
    ∃ rs, ranges = out ++ rs ∧ rs.length = parts.length ∧ ∀ v ∈ rs, Printed v := by
  induction parts with
  | nil =>
    intro out ranges h
    cases h; exact ⟨[], (List.append_nil out).symm, rfl, by simp⟩
  | cons w parts ih =>
    intro out ranges h
    cases hr : parseNumRange w with
    | error => rw [portsRangesLoop, hr] at h; cases h
    | ok r =>
      rw [portsRangesLoop_part hr] at h
      obtain ⟨rs, hranges, hlen, hall⟩ := ih h
      refine ⟨r.portsRange :: rs, ?_, congrArg (· + 1) hlen, ?_⟩
      · rw [hranges, List.append_assoc, List.singleton_append]
      · exact List.forall_mem_cons.mpr ⟨(parseNumRange_valid hr).printed, hall⟩

theorem portsRangesLoop_strings {ranges : List PortsRange} (h : ∀ v ∈ ranges, Printed v) : ∀ out,
    portsRangesLoop out (ranges.map string) = .ok (out ++ ranges) := by
  induction ranges with
  | nil => exact fun out => congrArg _ (List.append_nil out).symm
  | cons v ranges ih =>
    obtain ⟨hv, hrest⟩ := List.forall_mem_cons.mp h
    obtain ⟨r, hr, rfl⟩ := hv.read
    intro out
    rw [List.map_cons, portsRangesLoop_part hr, ih hrest, List.append_assoc, List.singleton_append]

/-- The text of ranges that were read is read as the same ranges. -/
theorem ports_ranges_round_trip (s : Str) (ranges : List PortsRange) (h : newPortsRangeSliceFromString s = .ok ranges) :
    newPortsRangeSliceFromString (portsRangeSliceString ranges) = .ok ranges := by
  obtain ⟨rs, hranges, hlen, hall⟩ := portsRangesLoop_printed h
  rw [List.nil_append] at hranges
  subst hranges
  have hne : ranges ≠ [] := by
    intro hnil
    rw [hnil] at hlen; exact split_ne_nil s.trimSpace 44 (List.length_eq_zero_iff.mp hlen.symm)
  have hstrings : ranges.map string ≠ [] := fun hnil => hne (List.map_eq_nil_iff.mp hnil)
  have htight : Tight (Str.join (ranges.map string) 44) :=
    .join hstrings (List.forall_mem_map.mpr fun v hv => (hall v hv).tight)
  have hsplit := split_join hstrings (List.forall_mem_map.mpr fun v hv => (hall v hv).free)
  unfold newPortsRangeSliceFromString portsRangeSliceString
  rw [if_neg hne, htight.trimSpace, hsplit]; exact portsRangesLoop_strings hall []

theorem ports_ranges_round_trip_zero :
    newPortsRangeSliceFromString (lit " +7,0 , 1000 - 2000") = .ok [⟨0, 0, 7⟩, ⟨0, 0, 0⟩, ⟨1000, 2000, 0⟩] ∧
      portsRangeSliceString [⟨0, 0, 7⟩, ⟨0, 0, 0⟩, ⟨1000, 2000, 0⟩] = lit "7,0-0,1000-2000" ∧
      newPortsRangeSliceFromString (portsRangeSliceString [⟨0, 0, 7⟩, ⟨0, 0, 0⟩, ⟨1000, 2000, 0⟩]) =
        .ok [⟨0, 0, 7⟩, ⟨0, 0, 0⟩, ⟨1000, 2000, 0⟩] :=
  ⟨by decide, by decide, ports_ranges_round_trip (lit " +7,0 , 1000 - 2000") _ (by decide)⟩

end Frp
