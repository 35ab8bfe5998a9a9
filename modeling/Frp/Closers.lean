import Mathlib.Data.List.Nodup

/-!
# Closing functions that run once

Functions are registered one by one. A thread that stops the list takes all that are in it
and runs them in order; one that is registered later is run by whoever registers it.
-/

namespace Frp

inductive StopPhase (T R : Type*)
  | going
  | running (t : T) (todo : List R)
  | stopped

/-- `late` are the functions that were registered after the stop and have not run yet; `registered`
and `ran` record what was done. -/
structure Closers (T R : Type*) where
  phase : StopPhase T R := .going
  closers : List R := []
  late : List R := []
  registered : List R := []
  ran : List R := []

namespace Closers

variable {T R : Type*}

def todo (c : Closers T R) : List R :=
  match c.phase with
  | .running _ l => l
  | _ => []

def add (c : Closers T R) (r : R) : Closers T R :=
  { c with closers := c.closers ++ [r], registered := c.registered ++ [r] }

def addLate (c : Closers T R) (r : R) : Closers T R :=
  { c with late := c.late ++ [r], registered := c.registered ++ [r] }

def runLate (c : Closers T R) (r : R) : Closers T R := { c with late := c.late.tail, ran := c.ran ++ [r] }

def stopBy (c : Closers T R) (t : T) : Closers T R := { c with phase := .running t c.closers, closers := [] }

def run (c : Closers T R) (t : T) (r : R) (rest : List R) : Closers T R :=
  { c with phase := .running t rest, ran := c.ran ++ [r] }

def finish (c : Closers T R) : Closers T R := { c with phase := .stopped }

structure Ok [DecidableEq R] (c : Closers T R) : Prop where
  account : ∀ r, c.registered.count r = c.closers.count r + c.todo.count r + c.late.count r + c.ran.count r
  going : c.phase = .going → c.late = [] ∧ c.ran = []
  stopped : c.phase ≠ .going → c.closers = []

namespace Ok

variable [DecidableEq R] {c : Closers T R} {t : T} {r : R} {rest : List R}

theorem new : Ok ({} : Closers T R) := ⟨fun _ => rfl, fun _ => ⟨rfl, rfl⟩, fun _ => rfl⟩

variable (h : c.Ok)
include h

theorem add (hp : c.phase = .going) : (c.add r).Ok := by
  refine ⟨fun x => ?_, h.going, fun hne => absurd hp hne⟩
  have := h.account x
  simp only [Closers.add, Closers.todo, List.count_append] at this ⊢; omega

theorem addLate (hp : c.phase ≠ .going) : (c.addLate r).Ok := by
  refine ⟨fun x => ?_, fun hg => absurd hg hp, h.stopped⟩
  have := h.account x
  simp only [Closers.addLate, Closers.todo, List.count_append] at this ⊢; omega

theorem runLate (hl : c.late = r :: rest) : (c.runLate r).Ok := by
  refine ⟨fun x => ?_, fun hg => ?_, h.stopped⟩
  · have := h.account x
    simp only [Closers.runLate, Closers.todo, List.count_append, hl, List.tail_cons, List.count_cons, List.count_nil]
      at this ⊢
    omega
  · rw [(h.going hg).1] at hl; cases hl

theorem stopBy (hp : c.phase = .going) : (c.stopBy t).Ok := by
  refine ⟨fun x => ?_, nofun, fun _ => rfl⟩
  have := h.account x
  simp only [Closers.stopBy, Closers.todo, hp, List.count_nil] at this ⊢; omega

theorem run (hp : c.phase = .running t (r :: rest)) : (c.run t r rest).Ok := by
  refine ⟨fun x => ?_, nofun, fun _ => h.stopped (by rw [hp]; nofun)⟩
  have := h.account x
  simp only [Closers.run, Closers.todo, hp, List.count_append, List.count_cons, List.count_nil] at this ⊢
  omega

theorem finish (hp : c.phase = .running t []) : c.finish.Ok := by
  refine ⟨fun x => ?_, nofun, fun _ => h.stopped (by rw [hp]; nofun)⟩
  have := h.account x
  simp only [Closers.finish, Closers.todo, hp] at this ⊢; exact this

theorem mem_registered (hp : c.phase ≠ .going) (hr : r ∈ c.registered) : r ∈ c.todo ∨ r ∈ c.late ∨ r ∈ c.ran := by
  have hpos := List.count_pos_iff.mpr hr
  rw [h.account r, h.stopped hp] at hpos
  simp only [← List.count_pos_iff]
  simp only [List.count_nil] at hpos; omega

theorem ran_perm (hp : c.phase = .stopped) (hl : c.late = []) : c.ran.Perm c.registered := by
  refine List.perm_iff_count.mpr fun x => ?_
  have hx := h.account x
  rw [h.stopped (by rw [hp]; nofun)] at hx
  simp only [todo, hp, hl, List.count_nil] at hx; omega

theorem ran_nodup (hn : c.registered.Nodup) : c.ran.Nodup := by
  refine List.nodup_iff_count_le_one.mpr fun x => ?_
  have hle := List.nodup_iff_count_le_one.mp hn x
  have hx := h.account x
  omega

end Ok

end Closers

end Frp
