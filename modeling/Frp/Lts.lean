import Mathlib.Logic.Relation

/-!
# Labelled transition systems

`Reach init step` holds of the states some run reaches. An invariant is proved once for the
initial states and once for a step. `When` keeps the steps that meet a condition, and
`Traced` the labels of the run.
-/

namespace Frp

variable {σ τ ε δ : Type*}

inductive Reach (init : σ → Prop) (step : σ → ε → σ → Prop) : σ → Prop
  | start {s} : init s → Reach init step s
  | next {s e t} : Reach init step s → step s e t → Reach init step t

def When (step : σ → ε → σ → Prop) (ok : σ → ε → Prop) (s : σ) (e : ε) (t : σ) : Prop :=
  step s e t ∧ ok s e

variable {init : σ → Prop} {step : σ → ε → σ → Prop}

theorem Reach.invariant {I : σ → Prop} (h0 : ∀ s, init s → I s)
    (hs : ∀ s e t, Reach init step s → I s → step s e t → I t) {s : σ} (h : Reach init step s) : I s := by
  induction h with
  | start hi => exact h0 _ hi
  | next hr hst ih => exact hs _ _ _ hr ih hst

theorem Reach.mono {step' : σ → ε → σ → Prop} (hs : ∀ s e t, step s e t → step' s e t) {s : σ}
    (h : Reach init step s) : Reach init step' s := by
  induction h with
  | start hi => exact .start hi
  | next _ hst ih => exact .next ih (hs _ _ _ hst)

theorem Reach.of_when {ok : σ → ε → Prop} {s : σ} (h : Reach init (When step ok) s) : Reach init step s :=
  h.mono fun _ _ _ hst => hst.1

theorem Reach.here {s : σ} (_ : Reach init step s) : Reach (· = s) step s := .start rfl

theorem Reach.head {s t u : σ} {e : ε} (hst : step s e t) (h : Reach (· = t) step u) : Reach (· = s) step u := by
  induction h with
  | start heq => exact .next (.start rfl) (heq ▸ hst)
  | next _ hst ih => exact .next ih hst

inductive Traced (init : σ → Prop) (step : σ → ε → σ → Prop) : List ε → σ → Prop
  | start {s} : init s → Traced init step [] s
  | next {log s e t} : Traced init step log s → step s e t → Traced init step (e :: log) t

theorem Traced.invariant {I : List ε → σ → Prop} (h0 : ∀ s, init s → I [] s)
    (hs : ∀ log s e t, I log s → step s e t → I (e :: log) t) {log : List ε} {s : σ}
    (h : Traced init step log s) : I log s := by
  induction h with
  | start hi => exact h0 _ hi
  | next _ hst ih => exact hs _ _ _ _ ih hst

/-- Every reachable state has a log that leads to it. -/
theorem Reach.traced {s : σ} (h : Reach init step s) : ∃ log, Traced init step log s := by
  induction h with
  | start hi => exact ⟨[], .start hi⟩
  | next _ hst ih =>
    obtain ⟨log, hlog⟩ := ih
    exact ⟨_, hlog.next hst⟩

/-- A simulation may stutter: a step of the source is one step of the target or none. -/
theorem Reach.simulate {init' : τ → Prop} {step' : τ → δ → τ → Prop} (f : σ → τ)
    (h0 : ∀ s, init s → init' (f s))
    (hs : ∀ s e t, Reach init step s → step s e t → f t = f s ∨ ∃ d, step' (f s) d (f t))
    {s : σ} (h : Reach init step s) : Reach init' step' (f s) := by
  induction h with
  | start hi => exact .start (h0 _ hi)
  | next hr hst ih =>
    rcases hs _ _ _ hr hst with heq | ⟨d, hd⟩
    · rw [heq]; exact ih
    · exact .next ih hd

end Frp
