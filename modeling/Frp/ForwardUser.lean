/-!
# Forwarding between the user's socket and the channels

`ForwardUserConn` of `pkg/proto/udp/udp.go`: the goroutine that reads the socket, and the
writer it starts and joins. `reserved` is the place in the wait group before the start.
-/

namespace Frp

inductive ForwardPc
  | off
  | reserved
  | reading
  | stopping
  | joining
  | leaving
  | ended

inductive ForwardWriterPc
  | off
  | running
  | done

structure Forward where
  main : ForwardPc := .off
  writer : ForwardWriterPc := .off

def Forward.started : Forward := ⟨.reading, .running⟩

inductive ForwardAct
  | silent
  | closeSocket
  | done

inductive ForwardStep (f : Forward) : ForwardAct → Forward → Prop
  -- ReadFromUDP fails; the deferred function closes stopWriter first
  | fails : f.main = .reading → ForwardStep f .silent { f with main := .stopping }
  | close : f.main = .stopping → ForwardStep f .closeSocket { f with main := .joining }
  | writerStops : f.writer = .running → f.main = .stopping ∨ f.main = .joining →
      ForwardStep f .silent { f with writer := .done }
  | join : f.main = .joining → f.writer = .done → ForwardStep f .silent { f with main := .leaving }
  | done : f.main = .leaving → ForwardStep f .done { f with main := .ended }

open Forward

namespace Forward

def alive (f : Forward) : Prop := (f.main ≠ .off ∧ f.main ≠ .ended) ∨ f.writer = .running

def counted (f : Forward) : Bool :=
  match f.main with
  | .off | .ended => false
  | _ => true

def holds (f : Forward) : Bool :=
  match f.main with
  | .reserved | .reading | .stopping => true
  | _ => false

theorem counted_of_holds {f : Forward} (h : f.holds = true) : f.counted = true := by
  cases hm : f.main <;> simp only [holds, hm] at h <;> first | (cases h; done) | simp [counted, hm]

structure Ok (f : Forward) : Prop where
  before : f.main = .off ∨ f.main = .reserved → f.writer = .off
  after : f.main = .leaving ∨ f.main = .ended → f.writer = .done

theorem Ok.not_alive {f : Forward} (h : f.Ok) (hc : f.counted = false) : ¬ f.alive := by
  rcases hm : f.main with _ | _ | _ | _ | _ | _ | _ <;> simp only [counted, hm] at hc <;>
    first | (cases hc; done) | skip
  · simp [alive, hm, h.before (.inl hm)]
  · simp [alive, hm, h.after (.inr hm)]

end Forward

variable {f f' : Forward}

theorem ForwardStep.ok {a : ForwardAct} (h : ForwardStep f a f') (hf : f.Ok) : f'.Ok := by
  cases h with
  | fails | close => exact ⟨by simp, by simp⟩
  | writerStops _ hm =>
    refine ⟨fun h => ?_, fun _ => rfl⟩
    rcases hm with hm | hm <;> simp [hm] at h
  | join _ hw => exact ⟨by simp, fun _ => hw⟩
  | done hm => exact ⟨by simp, fun _ => hf.after (.inl hm)⟩

theorem ForwardStep.begun {a : ForwardAct} (h : ForwardStep f a f') : f.main ≠ .off ∧ f.main ≠ .reserved := by
  cases h <;> simp_all
  rename_i hm
  rcases hm with hm | hm <;> simp [hm]

theorem ForwardStep.silent (h : ForwardStep f .silent f') : f'.counted = f.counted ∧ f'.holds = f.holds := by
  cases h <;> simp_all [counted, holds]

theorem ForwardStep.closeSocket (h : ForwardStep f .closeSocket f') : f'.counted = f.counted := by
  cases h
  simp_all [counted]

theorem ForwardStep.ended (h : ForwardStep f .done f') :
    f.counted = true ∧ f'.counted = false ∧ f.holds = false := by
  cases h
  simp_all [counted, holds]

end Frp
