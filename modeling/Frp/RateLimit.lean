import Frp.NatHole
import Mathlib.Algebra.Ring.Nat

/-!
# The writer with a rate limit

`Writer.Write` of `pkg/util/limit/writer.go`. The limiter and the underlying writer answer
from a common state; the contract of `io.Writer` is part of `LimitedWriter`.
-/

namespace Frp

structure LimitedWriter (σ ε : Type) where
  burst : Int
  waitN : σ → Nat → Option ε × σ
  write : σ → Str → (Nat × Option ε) × σ
  write_le : ∀ s p, (write s p).1.1 ≤ p.length
  write_short : ∀ s p, (write s p).1.1 < p.length → (write s p).1.2 ≠ none

inductive LimitError (ε : Type)
  | invalidBurst (burst : Int)
  | other (e : ε)

/-- The requests to the limiter, and each buffer passed on with the number of bytes that were taken of it. -/
structure WriteLog where
  waits : List Nat := []
  writes : List (Str × Nat) := []

namespace WriteLog

def passed (log : WriteLog) : Str := log.writes.flatMap Prod.fst

def taken (log : WriteLog) : Str := log.writes.flatMap fun x => x.1.take x.2

end WriteLog

structure WriteOutcome (σ ε : Type) where
  n : Nat
  err : Option (LimitError ε)
  log : WriteLog
  state : σ

namespace LimitedWriter

variable {σ ε : Type} (w : LimitedWriter σ ε)

def chunk (b : Nat) (p : Str) : Nat := if b < p.length then b else p.length

theorem chunk_le (b : Nat) (p : Str) : chunk b p ≤ b ∧ chunk b p ≤ p.length := by
  unfold chunk
  split <;> omega

def writeLoop (b : Nat) (hb : 0 < b) (p : Str) (n : Nat) (log : WriteLog) (s : σ) : WriteOutcome σ ε :=
  if _hp : p = [] then ⟨n, none, log, s⟩
  else
    match w.waitN s (chunk b p) with
    | (some e, s) => ⟨n, some (.other e), ⟨log.waits ++ [chunk b p], log.writes⟩, s⟩
    | (none, s) =>
      match w.write s (p.take (chunk b p)) with
      | ((nn, some e), s) =>
        ⟨n + nn, some (.other e), ⟨log.waits ++ [chunk b p], log.writes ++ [(p.take (chunk b p), nn)]⟩, s⟩
      | ((nn, none), s) =>
        writeLoop b hb (p.drop (chunk b p)) (n + nn)
          ⟨log.waits ++ [chunk b p], log.writes ++ [(p.take (chunk b p), nn)]⟩ s
termination_by p.length
decreasing_by
  have := List.length_pos_iff.mpr _hp
  rw [List.length_drop, chunk]
  split <;> omega

def writeTo (p : Str) (s : σ) : WriteOutcome σ ε :=
  if p = [] then ⟨0, none, {}, s⟩
  else if hb : w.burst ≤ 0 then ⟨0, some (.invalidBurst w.burst), {}, s⟩
  else w.writeLoop w.burst.toNat (by omega) p 0 {} s

/-! ## The loop -/

structure Passed (b : Nat) (p rest : Str) (n : Nat) (log : WriteLog) : Prop where
  split : log.taken ++ rest = p
  count : n = log.taken.length
  whole : log.passed = log.taken
  waits : ∀ x ∈ log.waits, x ≤ b
  sum : log.waits.sum + rest.length = p.length

structure Written (b : Nat) (p : Str) (o : WriteOutcome σ ε) : Prop where
  taken : o.log.taken <+: p
  passed : o.log.passed <+: p
  count : o.n = o.log.taken.length
  all : o.err = none → o.log.taken = p
  waits : ∀ x ∈ o.log.waits, x ≤ b
  sum : o.log.waits.sum ≤ p.length

variable {w} {b stop : Nat} {p rest : Str} {n : Nat} {log : WriteLog} {s : σ}

theorem Passed.written (h : Passed b p [] n log) : Written b p (⟨n, none, log, s⟩ : WriteOutcome σ ε) where
  taken := ⟨[], h.split⟩
  passed := h.whole ▸ ⟨[], h.split⟩
  count := h.count
  all _ := (List.append_nil _).symm.trans h.split
  waits := h.waits
  sum := Nat.le.intro h.sum

theorem taken_append (log : WriteLog) (waits : List Nat) (buf : Str) (nn : Nat) :
    (⟨waits, log.writes ++ [(buf, nn)]⟩ : WriteLog).taken = log.taken ++ buf.take nn := by
  simp [WriteLog.taken]

theorem passed_append (log : WriteLog) (waits : List Nat) (buf : Str) (nn : Nat) :
    (⟨waits, log.writes ++ [(buf, nn)]⟩ : WriteLog).passed = log.passed ++ buf := by
  simp [WriteLog.passed]

section
variable (h : Passed b p rest n log) (hb : stop ≤ b) (hrest : stop ≤ rest.length)
include h hb hrest

theorem waits_le :
    (∀ x ∈ log.waits ++ [stop], x ≤ b) ∧ (log.waits ++ [stop]).sum + (rest.drop stop).length = p.length := by
  refine ⟨fun x hx => ?_, ?_⟩
  · rcases List.mem_append.mp hx with hx | hx
    · exact h.waits x hx
    · exact List.mem_singleton.mp hx ▸ hb
  · have := h.sum
    rw [List.sum_append, List.sum_singleton, List.length_drop]; omega

theorem Passed.refused (e : ε) :
    Written b p (⟨n, some (.other e), ⟨log.waits ++ [stop], log.writes⟩, s⟩ : WriteOutcome σ ε) where
  taken := ⟨rest, h.split⟩
  passed := ⟨rest, h.whole ▸ h.split⟩
  count := h.count
  all := nofun
  waits := (waits_le h hb hrest).1
  sum := Nat.le.intro (waits_le h hb hrest).2

theorem Passed.failed {nn : Nat} (hnn : nn ≤ stop) (e : ε) :
    Written b p (⟨n + nn, some (.other e), ⟨log.waits ++ [stop], log.writes ++ [(rest.take stop, nn)]⟩, s⟩ :
      WriteOutcome σ ε) where
  taken := by
    rw [taken_append, List.take_take, Nat.min_eq_left hnn, ← h.split]
    exact (List.prefix_append_right_inj _).mpr (List.take_prefix nn rest)
  passed := by
    rw [passed_append, h.whole, ← h.split]
    exact (List.prefix_append_right_inj _).mpr (List.take_prefix stop rest)
  count := by
    show n + nn = _
    rw [taken_append, List.length_append, ← h.count, List.length_take, List.length_take]; omega
  all := nofun
  waits := (waits_le h hb hrest).1
  sum := Nat.le.intro (waits_le h hb hrest).2

theorem Passed.next :
    Passed b p (rest.drop stop) (n + stop) ⟨log.waits ++ [stop], log.writes ++ [(rest.take stop, stop)]⟩ where
  split := by
    rw [taken_append, List.take_take, Nat.min_self, List.append_assoc, List.take_append_drop, h.split]
  count := by
    rw [taken_append, List.length_append, ← h.count, List.length_take, List.length_take]; omega
  whole := by rw [taken_append, passed_append, h.whole, List.take_take, Nat.min_self]
  waits := (waits_le h hb hrest).1
  sum := (waits_le h hb hrest).2

end

theorem length_of_ok {buf : Str} {nn : Nat} {t : σ} (h : w.write s buf = ((nn, none), t)) : nn = buf.length := by
  have hle := w.write_le s buf
  have hshort := w.write_short s buf
  rw [h] at hle hshort; exact Nat.le_antisymm hle (Nat.not_lt.mp fun hlt => hshort hlt rfl)

theorem written_of_loop (hb : 0 < b) (rest : Str) (n : Nat) (log : WriteLog) (s : σ) (h : Passed b p rest n log) :
    Written b p (w.writeLoop b hb rest n log s) := by
  fun_induction writeLoop w b hb rest n log s with
  | case1 n log s => exact h.written
  | case2 rest n log s _ e t _ => exact h.refused (chunk_le b rest).1 (chunk_le b rest).2 e
  | case3 rest n log s _ t _ nn e u hw =>
    have hnn := w.write_le t (rest.take (chunk b rest))
    rw [hw, List.length_take] at hnn
    exact h.failed (chunk_le b rest).1 (chunk_le b rest).2 (Nat.le_trans hnn (Nat.min_le_left _ _)) e
  | case4 rest n log s _ t _ nn u hw ih =>
    obtain ⟨hstop, hrest⟩ := chunk_le b rest
    -- a write without an error takes the whole chunk
    have hnn : nn = chunk b rest := by rw [length_of_ok hw, List.length_take, Nat.min_eq_left hrest]
    subst hnn; exact ih (h.next hstop hrest)

/-- A prefix is written, and all of it without an error; no request to the limiter is above the burst. -/
theorem limited_write (w : LimitedWriter σ ε) (hb : 1 ≤ w.burst) (p : Str) (s : σ) :
    Written w.burst.toNat p (w.writeTo p s) := by
  unfold writeTo
  by_cases hp : p = []
  · rw [if_pos hp]
    subst hp; exact Passed.written ⟨rfl, rfl, rfl, by simp, rfl⟩
  · rw [if_neg hp, dif_neg (by omega)]
    exact written_of_loop _ p 0 {} s ⟨rfl, rfl, rfl, by simp, Nat.zero_add _⟩

def threeBytes : LimitedWriter Nat Unit where
  burst := 2
  waitN s _ := (none, s)
  write s p := if p.length ≤ s then ((p.length, none), s - p.length) else ((s, some ()), 0)
  write_le s p := by
    split
    · exact Nat.le_refl _
    · rename_i h
      exact Nat.le_of_not_le h
  write_short s p := by
    split
    · exact fun h => absurd h (Nat.lt_irrefl _)
    · exact fun _ => nofun

theorem limited_write_short :
    (threeBytes.writeTo (lit "hello") 3).n = 3 ∧ Written 2 (lit "hello") (threeBytes.writeTo (lit "hello") 3) := by
  refine ⟨?_, limited_write threeBytes (by decide) (lit "hello") 3⟩
  simp [writeTo, writeLoop, threeBytes, chunk, lit]

end LimitedWriter

end Frp
