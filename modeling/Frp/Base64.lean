import Frp.Str

/-!
# Base64, standard alphabet with padding

`encode` and `decode` of `base64.StdEncoding`. Decoding skips line breaks and does not look
at the bits the padding leaves over.
-/

namespace Frp.Base64

def pad : UInt8 := 61

def char (n : Nat) : UInt8 :=
  if n < 26 then UInt8.ofNat (65 + n)
  else if n < 52 then UInt8.ofNat (97 + (n - 26))
  else if n < 62 then UInt8.ofNat (48 + (n - 52))
  else if n = 62 then 43
  else 47

def sextet (c : UInt8) : Option Nat :=
  if 65 ≤ c ∧ c ≤ 90 then some (c.toNat - 65)
  else if 97 ≤ c ∧ c ≤ 122 then some (c.toNat - 97 + 26)
  else if 48 ≤ c ∧ c ≤ 57 then some (c.toNat - 48 + 52)
  else if c = 43 then some 62
  else if c = 47 then some 63
  else none

def encode : List UInt8 → Str
  | [] => []
  | [a] => [char (a.toNat / 4), char (a.toNat % 4 * 16), pad, pad]
  | [a, b] => [char (a.toNat / 4), char (a.toNat % 4 * 16 + b.toNat / 16), char (b.toNat % 16 * 4), pad]
  | a :: b :: c :: rest =>
    char (a.toNat / 4) :: char (a.toNat % 4 * 16 + b.toNat / 16) ::
      char (b.toNat % 16 * 4 + c.toNat / 64) :: char (c.toNat % 64) :: encode rest

def byte1 (x y : Nat) : UInt8 := UInt8.ofNat (x * 4 + y / 16)
def byte2 (y z : Nat) : UInt8 := UInt8.ofNat (y % 16 * 16 + z / 4)
def byte3 (z w : Nat) : UInt8 := UInt8.ofNat (z % 4 * 64 + w)

def decodeGroups : Str → Option (List UInt8)
  | [] => some []
  | a :: b :: c :: d :: rest =>
    match sextet a, sextet b with
    | some x, some y =>
      if d = pad then
        if rest ≠ [] then none
        else if c = pad then some [byte1 x y]
        else (sextet c).map fun z => [byte1 x y, byte2 y z]
      else
        match sextet c, sextet d with
        | some z, some w => (decodeGroups rest).map fun r => byte1 x y :: byte2 y z :: byte3 z w :: r
        | _, _ => none
    | _, _ => none
  | _ => none

def decode (s : Str) : Option (List UInt8) := decodeGroups (s.filter fun c => c ≠ 10 ∧ c ≠ 13)

theorem sextet_char : ∀ n < 64, sextet (char n) = some n := by decide

theorem char_ne : ∀ n < 64, char n ≠ Str.dot ∧ char n ≠ pad ∧ char n ≠ 10 ∧ char n ≠ 13 := by decide

theorem toNat_lt (a : UInt8) : a.toNat < 256 := UInt8.toNat_lt a

theorem ofNat_toNat {a : UInt8} {n : Nat} (h : n = a.toNat) : UInt8.ofNat n = a := by
  subst h; exact UInt8.ofNat_toNat

theorem byte1_eq (a : UInt8) (k : Nat) (hk : k < 16) : byte1 (a.toNat / 4) (a.toNat % 4 * 16 + k) = a :=
  ofNat_toNat (by have := toNat_lt a; omega)

theorem byte2_eq (a : Nat) (b : UInt8) (k : Nat) (hk : k < 4) :
    byte2 (a % 4 * 16 + b.toNat / 16) (b.toNat % 16 * 4 + k) = b :=
  ofNat_toNat (by have := toNat_lt b; omega)

theorem byte3_eq (b : Nat) (c : UInt8) : byte3 (b % 16 * 4 + c.toNat / 64) (c.toNat % 64) = c :=
  ofNat_toNat (by have := toNat_lt c; omega)

theorem mem_encode : ∀ (l : List UInt8) {c : UInt8}, c ∈ encode l → c = pad ∨ ∃ n < 64, c = char n
  | [], _, h => by simp [encode] at h
  | [a], c, h => by
    have := toNat_lt a
    simp only [encode, List.mem_cons, List.not_mem_nil, or_false] at h
    rcases h with h | h | h | h
    · exact .inr ⟨_, by omega, h⟩
    · exact .inr ⟨_, by omega, h⟩
    · exact .inl h
    · exact .inl h
  | [a, b], c, h => by
    have := toNat_lt a
    have := toNat_lt b
    simp only [encode, List.mem_cons, List.not_mem_nil, or_false] at h
    rcases h with h | h | h | h
    · exact .inr ⟨_, by omega, h⟩
    · exact .inr ⟨_, by omega, h⟩
    · exact .inr ⟨_, by omega, h⟩
    · exact .inl h
  | a :: b :: d :: rest, c, h => by
    have := toNat_lt a
    have := toNat_lt b
    have := toNat_lt d
    simp only [encode, List.mem_cons] at h
    rcases h with h | h | h | h | h
    · exact .inr ⟨_, by omega, h⟩
    · exact .inr ⟨_, by omega, h⟩
    · exact .inr ⟨_, by omega, h⟩
    · exact .inr ⟨_, by omega, h⟩
    · exact mem_encode rest h

theorem dot_not_mem_encode (l : List UInt8) : Str.dot ∉ encode l := by
  intro h
  rcases mem_encode l h with h | ⟨n, hn, h⟩
  · exact absurd h (by decide)
  · exact (char_ne n hn).1 h.symm

attribute [local simp] decodeGroups

theorem decodeGroups_encode : ∀ l : List UInt8, decodeGroups (encode l) = some l
  | [] => rfl
  | [a] => by
    have ha := toNat_lt a
    have h1 := byte1_eq a 0 (by omega)
    rw [Nat.add_zero] at h1
    simp [encode, sextet_char _ (show a.toNat / 4 < 64 by omega),
      sextet_char _ (show a.toNat % 4 * 16 < 64 by omega), h1]
  | [a, b] => by
    have ha := toNat_lt a
    have hb := toNat_lt b
    have h1 := byte1_eq a (b.toNat / 16) (by omega)
    have h2 := byte2_eq a.toNat b 0 (by omega)
    rw [Nat.add_zero] at h2
    have hp := (char_ne _ (show b.toNat % 16 * 4 < 64 by omega)).2.1
    simp [encode, sextet_char _ (show a.toNat / 4 < 64 by omega),
      sextet_char _ (show a.toNat % 4 * 16 + b.toNat / 16 < 64 by omega),
      sextet_char _ (show b.toNat % 16 * 4 < 64 by omega), hp, h1, h2]
  | a :: b :: c :: rest => by
    have ha := toNat_lt a
    have hb := toNat_lt b
    have hc := toNat_lt c
    have h1 := byte1_eq a (b.toNat / 16) (by omega)
    have h2 := byte2_eq a.toNat b (c.toNat / 64) (by omega)
    have h3 := byte3_eq b.toNat c
    have hp := (char_ne _ (show c.toNat % 64 < 64 by omega)).2.1
    simp [encode, sextet_char _ (show a.toNat / 4 < 64 by omega),
      sextet_char _ (show a.toNat % 4 * 16 + b.toNat / 16 < 64 by omega),
      sextet_char _ (show b.toNat % 16 * 4 + c.toNat / 64 < 64 by omega),
      sextet_char _ (show c.toNat % 64 < 64 by omega), hp, h1, h2, h3, decodeGroups_encode rest]

theorem decode_encode (l : List UInt8) : decode (encode l) = some l := by
  unfold decode
  rw [List.filter_eq_self.mpr, decodeGroups_encode]
  intro c hc
  rcases mem_encode l hc with rfl | ⟨n, hn, rfl⟩
  · decide
  · have := (char_ne n hn).2.2
    simpa using this

theorem encode_injective {a b : List UInt8} (h : encode a = encode b) : a = b := by
  have := decode_encode a
  rw [h, decode_encode b] at this; exact (Option.some.inj this).symm

end Frp.Base64
