import Mathlib.Data.List.Basic

/-!
# Messages on a byte stream

A reader takes one message from the front of a stream or fails. What the other
end gets from a stream is the messages up to the first failure, and the failure.
-/

namespace Frp

section
variable {M ε : Type} (read : List UInt8 → Except ε (M × List UInt8))

inductive Reads : List UInt8 → List M → ε → Prop
  | stop {s e} : read s = .error e → Reads s [] e
  | next {s m t ms e} : read s = .ok (m, t) → Reads t ms e → Reads s (m :: ms) e

def ReadAs (s : List UInt8) (m : M) : Prop := ∀ t, read (s ++ t) = .ok (m, t)

variable {read}

theorem Reads.flatten {frames : List (List UInt8 × M)} {t : List UInt8} {ms : List M} {e : ε}
    (hf : ∀ x ∈ frames, ReadAs read x.1 x.2) (ht : Reads read t ms e) :
    Reads read ((frames.map Prod.fst).flatten ++ t) (frames.map Prod.snd ++ ms) e := by
  induction frames with
  | nil => exact ht
  | cons x xs ih =>
    have hx := hf x (by simp) ((xs.map Prod.fst).flatten ++ t)
    rw [← List.append_assoc] at hx; exact .next hx (ih fun y hy => hf y (by simp [hy]))

end

end Frp
