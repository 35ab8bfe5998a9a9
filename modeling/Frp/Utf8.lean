import Frp.Str

/-!
# UTF-8

Code points and bytes, as in `unicode/utf8`, and `strings.Map`, which decodes a string, maps
its code points and encodes them again. A byte that begins no code point is `RuneError`, of
one byte.
-/

namespace Frp

/-- The ranges the bytes after the first byte `b` of a code point must lie in; `none` if no
code point starts with `b`. -/
def utf8First (b : UInt8) : Option (List (UInt8 × UInt8)) :=
  if b < 0x80 then some []
  else if b < 0xC2 then none
  else if b ≤ 0xDF then some [(0x80, 0xBF)]
  else if b = 0xE0 then some [(0xA0, 0xBF), (0x80, 0xBF)]
  else if b = 0xED then some [(0x80, 0x9F), (0x80, 0xBF)]
  else if b ≤ 0xEF then some [(0x80, 0xBF), (0x80, 0xBF)]
  else if b = 0xF0 then some [(0x90, 0xBF), (0x80, 0xBF), (0x80, 0xBF)]
  else if b ≤ 0xF3 then some [(0x80, 0xBF), (0x80, 0xBF), (0x80, 0xBF)]
  else if b = 0xF4 then some [(0x80, 0x8F), (0x80, 0xBF), (0x80, 0xBF)]
  else none

def utf8Rest : List (UInt8 × UInt8) → Str → Bool
  | [], [] => true
  | _ :: _, [] => false
  | [], b :: s =>
    match utf8First b with
    | none => false
    | some todo => utf8Rest todo s
  | (lo, hi) :: todo, b :: s => lo ≤ b && b ≤ hi && utf8Rest todo s

def Str.validUTF8 (s : Str) : Bool := utf8Rest [] s

def utf8Tail : List (UInt8 × UInt8) → Str → Bool
  | [], _ => true
  | _ :: _, [] => false
  | (lo, hi) :: todo, b :: s => lo ≤ b && b ≤ hi && utf8Tail todo s

def runeError : Nat := 0xFFFD

/-- The value of a first byte with these bytes after it; the first byte also tells their number. -/
def runeValue (b : UInt8) (tail : Str) : Nat :=
  tail.foldl (fun n c => n * 64 + (c.toNat - 0x80)) (b.toNat - [0, 0xC0, 0xE0, 0xF0].getD tail.length 0)

def decodeRune (b : UInt8) (s : Str) : Nat × Nat :=
  match utf8First b with
  | none => (runeError, 0)
  | some todo => if utf8Tail todo s then (runeValue b (s.take todo.length), todo.length) else (runeError, 0)

def encodeRune (r : Nat) : Str :=
  if r < 0x80 then [UInt8.ofNat r]
  else if r < 0x800 then [UInt8.ofNat (0xC0 + r / 64), UInt8.ofNat (0x80 + r % 64)]
  else if 0x10FFFF < r ∨ 0xD800 ≤ r ∧ r ≤ 0xDFFF then [0xEF, 0xBF, 0xBD]
  else if r < 0x10000 then
    [UInt8.ofNat (0xE0 + r / 64 / 64), UInt8.ofNat (0x80 + r / 64 % 64), UInt8.ofNat (0x80 + r % 64)]
  else
    [UInt8.ofNat (0xF0 + r / 64 / 64 / 64), UInt8.ofNat (0x80 + r / 64 / 64 % 64), UInt8.ofNat (0x80 + r / 64 % 64),
      UInt8.ofNat (0x80 + r % 64)]

/-- `skip` bytes belong to the code point before. -/
def mapRunes (f : Nat → Nat) (skip : Nat) : Str → Str
  | [] => []
  | b :: s =>
    match skip with
    | 0 => encodeRune (f (decodeRune b s).1) ++ mapRunes f (decodeRune b s).2 s
    | skip + 1 => mapRunes f skip s

/-! ## An ASCII byte ends what is before it -/

variable {todo : List (UInt8 × UInt8)}

theorem utf8First_ranges {b : UInt8} (h : utf8First b = some todo) : ∀ r ∈ todo, 0x80 ≤ r.1 := by
  unfold utf8First at h
  repeat' split at h
  all_goals cases h
  all_goals simp

variable {c : UInt8}

theorem utf8Tail_append (hc : c < 0x80) (htodo : ∀ r ∈ todo, 0x80 ≤ r.1)
    (t : Str) : ∀ s : Str, utf8Tail todo (s ++ c :: t) = utf8Tail todo s := by
  induction todo with
  | nil =>
    intro s
    cases s <;> rfl
  | cons r todo ih =>
    obtain ⟨hr, htodo⟩ := List.forall_mem_cons.mp htodo
    intro s
    cases s with
    | nil =>
      have hlt : ¬ r.1 ≤ c := UInt8.not_le.mpr (UInt8.lt_of_lt_of_le hc hr)
      simp [utf8Tail, hlt]
    | cons => simp only [List.cons_append, utf8Tail, ih htodo]

theorem length_of_utf8Tail : ∀ {s : Str}, utf8Tail todo s = true → todo.length ≤ s.length := by
  induction todo with
  | nil => exact fun _ => Nat.zero_le _
  | cons r todo ih =>
    intro s h
    cases s with
    | nil => cases h
    | cons => simp only [utf8Tail, Bool.and_eq_true] at h; exact Nat.succ_le_succ (ih h.2)

theorem decodeRune_le (b : UInt8) (s : Str) : (decodeRune b s).2 ≤ s.length := by
  unfold decodeRune
  split
  · exact Nat.zero_le _
  · split
    · rename_i h
      exact length_of_utf8Tail h
    · exact Nat.zero_le _

theorem decodeRune_append (hc : c < 0x80) (b : UInt8) (s t : Str) :
    decodeRune b (s ++ c :: t) = decodeRune b s := by
  unfold decodeRune
  cases hfirst : utf8First b with
  | none => rfl
  | some =>
    simp only [utf8Tail_append hc (utf8First_ranges hfirst)]
    split
    · rename_i h
      rw [List.take_append_of_le_length (length_of_utf8Tail h)]
    · rfl

theorem mapRunes_append (hc : c < 0x80) (f : Nat → Nat) (t s : Str) : ∀ skip, skip ≤ s.length →
    mapRunes f skip (s ++ c :: t) = mapRunes f skip s ++ mapRunes f 0 (c :: t) := by
  induction s with
  | nil =>
    intro skip h
    rw [Nat.le_zero.mp h]; rfl
  | cons b s ih =>
    intro skip h
    cases skip with
    | zero =>
      simp only [List.cons_append, mapRunes, decodeRune_append hc]
      rw [ih _ (decodeRune_le b s), List.append_assoc]; rfl
    | succ skip => exact ih skip (Nat.le_of_succ_le_succ h)

-- the first byte of a code point without its second one is lost, the dot after it is not
example : mapRunes (· + 32) 0 [0xC3, 0x89, 0x2E] = [0xC3, 0xA9, 0x4E] ∧
    mapRunes id 0 [0xC3, 0x2E] = [0xEF, 0xBF, 0xBD, 0x2E] := by decide

theorem decodeRune_ascii {b : UInt8} (hb : b < 0x80) (s : Str) : decodeRune b s = (b.toNat, 0) := by
  simp [decodeRune, utf8First, hb, utf8Tail, runeValue]

theorem encodeRune_ne_nil (r : Nat) : encodeRune r ≠ [] := by
  unfold encodeRune
  repeat' split
  all_goals exact List.cons_ne_nil _ _

/-! ## Lower case -/

/-- `unicode.ToLower` of the code points outside of ASCII. -/
class UnicodeTables where
  toLower : Nat → Nat

section
variable [UnicodeTables]

def lowerRune (r : Nat) : Nat :=
  if r < 0x80 then (if 65 ≤ r ∧ r ≤ 90 then r + 32 else r) else UnicodeTables.toLower r

instance UnicodeCase.ofTables : UnicodeCase := ⟨mapRunes lowerRune 0⟩

theorem mapRunes_lower_cons {b : UInt8} (hb : b < 0x80) (s : Str) :
    mapRunes lowerRune 0 (b :: s) = Str.lowerByte b :: mapRunes lowerRune 0 s := by
  have hbyte : encodeRune (lowerRune b.toNat) = [Str.lowerByte b] := by
    have hlt : b.toNat < 0x80 := UInt8.lt_iff_toNat_lt.mp hb
    unfold lowerRune Str.lowerByte
    by_cases hup : 65 ≤ b ∧ b ≤ 90
    · have hnat : 65 ≤ b.toNat ∧ b.toNat ≤ 90 := hup.imp UInt8.le_iff_toNat_le.mp UInt8.le_iff_toNat_le.mp
      rw [if_pos hlt, if_pos hnat, if_pos hup, encodeRune, if_pos (by omega), UInt8.ofNat_add, UInt8.ofNat_toNat]
      rfl
    · have hnat : ¬ (65 ≤ b.toNat ∧ b.toNat ≤ 90) :=
        fun h => hup (h.imp UInt8.le_iff_toNat_le.mpr UInt8.le_iff_toNat_le.mpr)
      rw [if_pos hlt, if_neg hnat, if_neg hup, encodeRune, if_pos hlt, UInt8.ofNat_toNat]
  rw [mapRunes, decodeRune_ascii hb, hbyte]; rfl

theorem toLower_eq_mapRunes (s : Str) : s.toLower = mapRunes lowerRune 0 s := by
  unfold Str.toLower
  split
  · rename_i h
    induction s with
    | nil => rfl
    | cons b s ih =>
      simp only [Str.isASCII, List.all_cons, Bool.and_eq_true, decide_eq_true_eq] at h
      rw [mapRunes_lower_cons h.1, List.map_cons, ih h.2]
  · rfl

theorem toLower_append {c : UInt8} (hc : c < 0x80) (s t : Str) :
    Str.toLower (s ++ c :: t) = s.toLower ++ Str.lowerByte c :: t.toLower := by
  simp only [toLower_eq_mapRunes]
  rw [mapRunes_append hc lowerRune t s 0 (Nat.zero_le _), mapRunes_lower_cons hc]

theorem toLower_ne_nil {s : Str} (h : s ≠ []) : s.toLower ≠ [] := by
  obtain ⟨b, s, rfl⟩ := List.exists_cons_of_ne_nil h
  rw [toLower_eq_mapRunes, mapRunes]
  exact fun hnil => encodeRune_ne_nil _ (List.append_eq_nil_iff.mp hnil).1

end

end Frp
