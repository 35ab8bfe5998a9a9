import Frp.Str

/-!
# White space

`strings.TrimSpace` on bytes. A leading rune is white space exactly if one of the encodings
of white space stands at the front, a trailing one if it stands at the end.
-/

namespace Frp

section
variable {α : Type} [DecidableEq α]

def dropWords (words : List (List α)) : Nat → List α → List α
  | 0, s => s
  | n + 1, s =>
    match words.find? (·.isPrefixOf s) with
    | none => s
    | some w => dropWords words n (s.drop w.length)

variable {words : List (List α)} {s : List α}

theorem dropWords_isSuffix (n : Nat) : ∀ s : List α, dropWords words n s <:+ s := by
  induction n with
  | zero => exact fun s => List.suffix_rfl
  | succ n ih =>
    intro s
    unfold dropWords
    cases words.find? (·.isPrefixOf s) with
    | none => exact List.suffix_rfl
    | some => exact (ih _).trans (List.drop_suffix _ _)

theorem dropWords_eq_self (h : ∀ w ∈ words, ¬ w <+: s) (n : Nat) : dropWords words n s = s := by
  cases n with
  | zero => rfl
  | succ =>
    have hnone : words.find? (·.isPrefixOf s) = none := by
      rw [List.find?_eq_none]
      intro w hw hp; exact h w hw (List.isPrefixOf_iff_prefix.mp hp)
    unfold dropWords; rw [hnone]

theorem not_prefix_dropWords (hne : [] ∉ words) (n : Nat) :
    ∀ s : List α, s.length ≤ n → ∀ w ∈ words, ¬ w <+: dropWords words n s := by
  induction n with
  | zero =>
    intro s hs w hw hp
    rw [List.length_eq_zero_iff.mp (Nat.le_zero.mp hs)] at hp
    exact hne (List.prefix_nil.mp hp ▸ hw)
  | succ n ih =>
    intro s hs w hw hp
    unfold dropWords at hp
    cases hf : words.find? (·.isPrefixOf s) with
    | none =>
      rw [hf] at hp
      exact absurd (List.isPrefixOf_iff_prefix.mpr hp) (List.find?_eq_none.mp hf w hw)
    | some v =>
      rw [hf] at hp
      have hv : v ≠ [] := fun h => hne (h ▸ List.mem_of_find?_eq_some hf)
      have hpos := List.length_pos_iff.mpr hv
      refine ih _ ?_ w hw hp
      rw [List.length_drop]; omega

end

def spaces : List Str :=
  [[0x09], [0x0a], [0x0b], [0x0c], [0x0d], [0x20], [0xc2, 0x85], [0xc2, 0xa0], [0xe1, 0x9a, 0x80],
    [0xe2, 0x80, 0x80], [0xe2, 0x80, 0x81], [0xe2, 0x80, 0x82], [0xe2, 0x80, 0x83], [0xe2, 0x80, 0x84],
    [0xe2, 0x80, 0x85], [0xe2, 0x80, 0x86], [0xe2, 0x80, 0x87], [0xe2, 0x80, 0x88], [0xe2, 0x80, 0x89],
    [0xe2, 0x80, 0x8a], [0xe2, 0x80, 0xa8], [0xe2, 0x80, 0xa9], [0xe2, 0x80, 0xaf], [0xe2, 0x81, 0x9f],
    [0xe3, 0x80, 0x80]]

namespace Str

def trimLeft (s : Str) : Str := dropWords spaces s.length s

def trimRight (s : Str) : Str := (dropWords (spaces.map List.reverse) s.length s.reverse).reverse

def trimSpace (s : Str) : Str := trimRight (trimLeft s)

theorem trimLeft_isSuffix (s : Str) : trimLeft s <:+ s := dropWords_isSuffix _ s

theorem trimRight_isPrefix (s : Str) : trimRight s <+: s := by
  rw [← List.reverse_suffix, trimRight, List.reverse_reverse]; exact dropWords_isSuffix _ _

theorem mem_of_mem_trimSpace {s : Str} {b : UInt8} (h : b ∈ trimSpace s) : b ∈ s :=
  (trimLeft_isSuffix s).subset ((trimRight_isPrefix _).subset h)

theorem trimSpace_idem (s : Str) : trimSpace (trimSpace s) = trimSpace s := by
  have hleft : trimLeft (trimSpace s) = trimSpace s := by
    apply dropWords_eq_self
    intro w hw hp
    exact not_prefix_dropWords (by decide) s.length s (Nat.le_refl _) w hw (hp.trans (trimRight_isPrefix _))
  have hright : trimRight (trimSpace s) = trimSpace s := by
    unfold trimRight
    rw [dropWords_eq_self, List.reverse_reverse]
    rw [trimSpace, trimRight, List.reverse_reverse]
    exact not_prefix_dropWords (by decide) _ _ (Nat.le_of_eq List.length_reverse)
  rw [trimSpace, hleft, hright]

end Str

end Frp
