import Mathlib.Algebra.Ring.Nat
import Mathlib.Data.List.Induction

/-!
# Byte buffers

Slices are lists of bytes. An index or a slice bound outside of the buffer is a
fault of its own, next to the errors a function returns. Integers are written
most significant byte first.
-/

namespace Frp

inductive Fault (ε : Type)
  | err (e : ε)
  | outOfRange
  deriving DecidableEq

abbrev Checked (ε : Type) := Except (Fault ε)

namespace Checked

variable {ε α β : Type}

def fail (e : ε) : Checked ε α := .error (.err e)

def wrap {δ : Type} (f : δ → ε) : Checked δ α → Checked ε α
  | .ok a => .ok a
  | .error (.err e) => .error (.err (f e))
  | .error .outOfRange => .error .outOfRange

variable {δ : Type}

theorem bind_eq_ok {x : Except δ α} {f : α → Except δ β} {b : β} :
    (x >>= f) = .ok b ↔ ∃ a, x = .ok a ∧ f a = .ok b := by
  cases x with
  | error | ok => simp [bind, Except.bind]

variable {x : Checked ε α}

theorem bind_ne_outOfRange {f : α → Checked ε β} (hx : x ≠ .error .outOfRange)
    (hf : ∀ a, x = .ok a → f a ≠ .error .outOfRange) : (x >>= f) ≠ .error .outOfRange := by
  cases x with
  | error => simpa [bind, Except.bind] using hx
  | ok a => exact hf a rfl

@[simp] theorem fail_ne_ok {e : ε} {a : α} : fail e ≠ Except.ok a := nofun

@[simp] theorem fail_ne_outOfRange {e : ε} : (fail e : Checked ε α) ≠ .error .outOfRange := by
  simp [fail]

theorem ite_fail_eq_ok {c : Prop} [Decidable c] {e : ε} {a : α} :
    (if c then fail e else x) = .ok a ↔ ¬ c ∧ x = .ok a := by
  by_cases h : c <;> simp [h]

variable {x : Checked δ α}

theorem wrap_eq_ok {f : δ → ε} {a : α} : wrap f x = .ok a ↔ x = .ok a := by
  rcases x with (e | -) | b <;> simp [wrap]

theorem wrap_ne_outOfRange {f : δ → ε} (hx : x ≠ .error .outOfRange) : wrap f x ≠ .error .outOfRange := by
  rcases x with (e | -) | b
  · simp [wrap]
  · exact absurd rfl hx
  · simp [wrap]

end Checked

/-! ## Bytes -/

theorem byte_forall {P : UInt8 → Prop} (h : ∀ n : Fin 256, P (UInt8.ofNat n)) (b : UInt8) : P b := by
  have := h ⟨b.toNat, b.toNat_lt⟩
  simpa using this

/-! ## Big-endian integers -/

/-- The `w` low bytes of `n`. -/
def beBytes : Nat → Nat → List UInt8
  | 0, _ => []
  | w + 1, n => beBytes w (n / 256) ++ [UInt8.ofNat n]

def beNat (l : List UInt8) : Nat := l.foldl (fun n b => n * 256 + b.toNat) 0

@[simp] theorem beBytes_length (w n : Nat) : (beBytes w n).length = w := by
  induction w generalizing n with
  | zero => rfl
  | succ w ih => simp [beBytes, ih]

theorem beNat_append (l : List UInt8) (b : UInt8) : beNat (l ++ [b]) = beNat l * 256 + b.toNat := by
  simp [beNat]

theorem beNat_lt (l : List UInt8) : beNat l < 256 ^ l.length := by
  induction l using List.reverseRecOn with
  | nil => simp [beNat]
  | append_singleton l b =>
    have hb := b.toNat_lt
    rw [beNat_append, List.length_append, List.length_singleton, Nat.pow_succ]; omega

theorem beNat_beBytes (w : Nat) {n : Nat} (h : n < 256 ^ w) : beNat (beBytes w n) = n := by
  induction w generalizing n with
  | zero => simp only [Nat.pow_zero, Nat.lt_one_iff] at h; subst h; rfl
  | succ w ih =>
    have hd : n / 256 < 256 ^ w := by
      rw [Nat.div_lt_iff_lt_mul (by decide)]; simpa [Nat.pow_succ] using h
    rw [beBytes, beNat_append, ih hd]
    simp
    omega

theorem beBytes_beNat (l : List UInt8) : beBytes l.length (beNat l) = l := by
  induction l using List.reverseRecOn with
  | nil => rfl
  | append_singleton l b ih =>
    have hb := b.toNat_lt
    have hd : (beNat l * 256 + b.toNat) / 256 = beNat l := by omega
    rw [beNat_append, List.length_append, List.length_singleton, beBytes, hd, ih]
    congr 2
    apply UInt8.toNat_inj.mp
    simp

/-! ## Access and update -/

namespace Buffer

variable {ε : Type}

def get (b : List UInt8) (i : Nat) : Checked ε UInt8 :=
  match b[i]? with
  | some x => .ok x
  | none => .error .outOfRange

def slice (b : List UInt8) (i j : Nat) : Checked ε (List UInt8) :=
  if i ≤ j ∧ j ≤ b.length then .ok ((b.drop i).take (j - i)) else .error .outOfRange

def set (b : List UInt8) (i : Nat) (x : UInt8) : Checked ε (List UInt8) :=
  if i < b.length then .ok (b.set i x) else .error .outOfRange

def copyAt (b : List UInt8) (i : Nat) (src : List UInt8) : Checked ε (List UInt8) :=
  if i ≤ b.length then .ok (b.take i ++ src.take (b.length - i) ++ b.drop (i + src.length))
  else .error .outOfRange

def putUint (w : Nat) (b : List UInt8) (i : Nat) (n : Nat) : Checked ε (List UInt8) :=
  if i + w ≤ b.length then .ok (b.take i ++ beBytes w n ++ b.drop (i + w)) else .error .outOfRange

/-! Reading a part of a buffer whose layout is known. -/

section
variable {b u m v : List UInt8} {x : UInt8} {i j : Nat}

theorem get_part (hb : b = u ++ x :: v) (hi : i = u.length) : get (ε := ε) b i = .ok x := by
  subst hb hi
  simp [get]

theorem slice_part (hb : b = u ++ (m ++ v)) (hi : i = u.length) (hj : j = u.length + m.length) :
    slice (ε := ε) b i j = .ok m := by
  subst hb hi hj
  simp [slice]

theorem slice_rest (hb : b = u ++ v) (hi : i = u.length) (hj : j ≤ b.length) (hij : i ≤ j) :
    slice (ε := ε) b i j = .ok (v.take (j - i)) := by
  subst hb hi
  rw [slice, if_pos ⟨hij, hj⟩]; simp

end

/-! A buffer that is filled from the left: what is written, then `z` still to be overwritten. -/

section
variable {b w z src : List UInt8} {x : UInt8} {i n : Nat}

theorem set_fill (hb : b = w ++ z) (hi : i = w.length) (hz : 0 < z.length) :
    set (ε := ε) b i x = .ok ((w ++ [x]) ++ z.drop 1) := by
  subst hb hi
  obtain ⟨y, z, rfl⟩ := List.exists_cons_of_length_pos hz
  simp [set]

theorem copyAt_fill (hb : b = w ++ z) (hi : i = w.length) (hz : src.length ≤ z.length) :
    copyAt (ε := ε) b i src = .ok ((w ++ src) ++ z.drop src.length) := by
  subst hb hi
  have hd : (w ++ z).drop (w.length + src.length) = z.drop src.length := by simp [List.drop_append]
  simp [copyAt, hd, List.take_of_length_le hz]

theorem putUint_fill {k : Nat} (hb : b = w ++ z) (hi : i = w.length) (hz : k ≤ z.length) :
    putUint (ε := ε) k b i n = .ok ((w ++ beBytes k n) ++ z.drop k) := by
  subst hb hi
  have hd : (w ++ z).drop (w.length + k) = z.drop k := by simp [List.drop_append]
  simp [putUint, hd, hz]

end

end Buffer

end Frp
