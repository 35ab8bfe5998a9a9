import Frp.Wrapper

/-!
# When client and server agree on a proxy

A response does not say which request it answers. If each one the wrapper takes still tells
what the control has, and nothing in flight changes that, the two ends agree at rest.
-/

namespace Frp

open Wrapper

/-! ## The wrapper's sections -/

namespace Wrapper

theorem checkWorker_cases (pw : Wrapper) (now : Nat) : pw.checkWorker now = (pw, []) ∨
    (pw.phase ≠ .running ∧ (pw.checkWorker now).1.phase = .waitStart ∧ (pw.checkWorker now).2 = [.newProxy]) ∨
    ((pw.checkWorker now).1.phase = .checkFailed ∧ (pw.checkWorker now).2 = [.closeProxy]) := by
  unfold checkWorker
  by_cases hh : pw.health = 0
  · by_cases hs : pw.startable now
    · refine .inr (.inl ⟨fun hr => ?_, by simp [hh, hs], by simp [hh, hs]⟩)
      simp [startable, hr] at hs
    · exact .inl (by simp [hh, hs])
  · by_cases hp : pw.phase = .running ∨ pw.phase = .waitStart
    · exact .inr (.inr (by simp [hh, hp]))
    · exact .inl (by simp [hh, hp])

end Wrapper

def HandlerPc.msg : HandlerPc → Option ProxyMsg
  | .idle => none
  | .opened | .filed | .answering _ => some .newProxy
  | .dropped | .closed => some .closeProxy

attribute [local simp] HandlerPc.msg

namespace Session

variable {s : Session} {now : Nat} {resp : NewProxyResp} {run : Option Str}

theorem deliver_cases (s : Session) (now : Nat) (resp : NewProxyResp) (run : Option Str) :
    (s.pw.phase ≠ .waitStart ∧ s.deliver now resp run = (s.pw, [])) ∨ s.pw.phase = .waitStart ∧
      ((resp.error ≠ [] ∧ (s.deliver now resp run).1.phase = .startErr ∧ (s.deliver now resp run).2 = []) ∨
        (resp.error = [] ∧ run ≠ none ∧ (s.deliver now resp run).1.phase = .startErr ∧
          (s.deliver now resp run).2 = [.closeProxy]) ∨
        (resp.error = [] ∧ run = none ∧ (s.deliver now resp run).1.phase = .running ∧
          (s.deliver now resp run).2 = [])) := by
  unfold deliver setRunningStatus
  by_cases hp : s.pw.phase = .waitStart
  · refine .inr ⟨hp, ?_⟩
    by_cases he : resp.error = []
    · cases run with
      | none => exact .inr (.inr (by simp [hp, he]))
      | some => exact .inr (.inl (by simp [hp, he]))
    · exact .inl (by simp [hp, he])
  · exact .inl (by simp [hp])

/-! ## Agreement -/

/-- After a success the name is there and no close is on its way, after an error it is not and no
start is on its way. -/
def Truthful (s : Session) : SessionEvent → Prop
  | .deliver resp run => s.pw.phase = .waitStart →
      (resp.error = [] → run = none → s.proxies = true ∧ .closeProxy ∉ s.c2s) ∧
      (resp.error ≠ [] → s.proxies = false ∧ .newProxy ∉ s.c2s)
  | _ => True

def Down (s : Session) : Prop := s.c2s.getLast? = some .closeProxy ∨ s.c2s = [] ∧ s.proxies = false

structure Inv (s : Session) : Prop where
  head : ∀ m, s.pc.msg = some m → s.c2s.head? = some m
  gone : s.pc.msg = some .closeProxy → s.proxies = false
  running : s.pw.phase = .running → s.proxies = true ∧ .closeProxy ∉ s.c2s
  down : s.pw.phase ≠ .running → s.pw.phase ≠ .waitStart → s.Down
  waiting : s.pw.phase = .waitStart → .newProxy ∈ s.c2s ∨ s.s2c ≠ []

theorem Inv.init (h : s.Init) : s.Inv := by
  obtain ⟨monitored, h⟩ := h
  rw [h]; exact ⟨by simp, by simp, by simp [new], fun _ _ => .inr ⟨rfl, rfl⟩, by simp [new]⟩

theorem Down.send (s : Session) (now : Nat) {r : Wrapper × List ProxyMsg} (h : r.2 = [.closeProxy]) :
    (s.client now r).Down := .inl (by simp [client, h])

theorem down_of_not_mem (hp : s.proxies = false) (hn : .newProxy ∉ s.c2s) : s.Down := by
  rcases List.eq_nil_or_concat s.c2s with h | ⟨l, m, h⟩
  · exact .inr ⟨h, hp⟩
  · cases m with
    | newProxy => simp [h] at hn
    | closeProxy => exact .inl (by simp [h])

theorem Inv.client (hi : s.Inv) (now : Nat) (r : Wrapper × List ProxyMsg) (rest : List NewProxyResp)
    (running : r.1.phase = .running → s.proxies = true ∧ .closeProxy ∉ s.c2s ++ r.2)
    (down : r.1.phase ≠ .running → r.1.phase ≠ .waitStart → (s.client now r).Down)
    (waiting : r.1.phase = .waitStart → .newProxy ∈ s.c2s ++ r.2 ∨ rest ≠ []) :
    Inv { s.client now r with s2c := rest } where
  head m hm := by
    have := hi.head m hm
    cases hc : s.c2s with
    | nil => simp [hc] at this
    | cons => simpa [Session.client, hc] using this
  gone := hi.gone
  running := running
  down := down
  waiting := waiting

theorem client_self : s.client now (s.pw, []) = { s with clock := now } := by simp [client]

theorem Inv.tick (hi : s.Inv) : (s.client now (s.pw.checkWorker now)).Inv := by
  rcases checkWorker_cases s.pw now with h | ⟨-, hp, hm⟩ | ⟨hp, hm⟩
  · rw [h, client_self]; exact { hi with }
  · exact hi.client now _ s.s2c (by simp [hp]) (by simp [hp]) (by simp [hm])
  · exact hi.client now _ s.s2c (by simp [hp]) (fun _ _ => .send s now hm) (by simp [hp])

theorem Inv.deliver {rest : List NewProxyResp} (hi : s.Inv) (ok : s.Truthful (.deliver resp run)) :
    Inv { s.client now (s.deliver now resp run) with s2c := rest } := by
  rcases deliver_cases s now resp run with ⟨hw, h⟩ | ⟨hw, ⟨he, hp, hm⟩ | ⟨-, -, hp, hm⟩ | ⟨he, hr, hp, hm⟩⟩
  · rw [h, client_self]; exact { hi with waiting := fun h => absurd h hw }
  · obtain ⟨hpx, hn⟩ := (ok hw).2 he
    exact hi.client now _ rest (by simp [hp]) (fun _ _ => down_of_not_mem hpx (by simpa [Session.client, hm] using hn))
      (by simp [hp])
  · exact hi.client now _ rest (by simp [hp]) (fun _ _ => .send s now hm) (by simp [hp])
  · exact hi.client now _ rest (fun _ => by simpa [hm] using (ok hw).1 he hr) (by simp [hp]) (by simp [hp])

theorem Inv.serve {pc : HandlerPc} {px : Bool} {o : NameOwner} (hi : s.Inv)
    (head : ∀ m, pc.msg = some m → s.c2s.head? = some m) (gone : pc.msg = some .closeProxy → px = false)
    (hne : s.c2s ≠ []) (kept : .closeProxy ∉ s.c2s → s.proxies = true → px = true) :
    Inv { s with pc := pc, proxies := px, owner := o } where
  head := head
  gone := gone
  running h := ⟨kept (hi.running h).2 (hi.running h).1, (hi.running h).2⟩
  down h1 h2 := (hi.down h1 h2).imp_right fun h => absurd h.1 hne
  waiting := hi.waiting

theorem Inv.pop {m : ProxyMsg} {l : List ProxyMsg} (hi : s.Inv) (rs : List NewProxyResp) (o : NameOwner)
    (hc : s.c2s = m :: l) (hclose : m = .closeProxy → s.proxies = false) (hnew : m = .newProxy → rs ≠ []) :
    Inv { s with pc := .idle, owner := o, c2s := l, s2c := s.s2c ++ rs } where
  head := by simp
  gone := by simp
  running h := ⟨(hi.running h).1, fun hm => (hi.running h).2 (hc ▸ List.mem_cons_of_mem m hm)⟩
  down h1 h2 := by
    rcases hi.down h1 h2 with h | ⟨h, -⟩
    · cases l with
      | nil => rw [hc] at h; exact .inr ⟨rfl, hclose (by simpa using h)⟩
      | cons => exact .inl (by simpa [hc] using h)
    · rw [hc] at h; cases h
  waiting h := by
    rcases hi.waiting h with hm | hm
    · rw [hc, List.mem_cons] at hm
      rcases hm with rfl | hm
      · exact .inr (by simp [hnew rfl])
      · exact .inl hm
    · exact .inr (by simp [hm])

theorem Inv.handle {pc : HandlerPc} {o : NameOwner} (hi : s.Inv) (hpc : s.pc.msg ≠ none) (hm : pc.msg = s.pc.msg) :
    Inv { s with pc := pc, owner := o } := by
  refine hi.serve (fun m h => hi.head m (hm ▸ h)) (fun h => hi.gone (hm ▸ h)) ?_ fun _ h => h
  obtain ⟨m, h⟩ := Option.ne_none_iff_exists'.mp hpc
  intro hnil
  have := hi.head m h
  simp [hnil] at this

end Session

theorem SessionStep.inv {s t : Session} {ev : SessionEvent} (h : SessionStep s ev t) (ok : s.Truthful ev)
    (hi : s.Inv) : t.Inv := by
  cases h with
  | tick => exact hi.tick
  | statusNormal | statusFailed | taken | released => exact { hi with }
  | deliver => exact hi.deliver ok
  | stop =>
    exact hi.client s.clock s.pw.stop s.s2c (by simp [Wrapper.stop]) (fun _ _ => .send s s.clock rfl)
      (by simp [Wrapper.stop])
  | refuse _ hp hc | openProxy hp hc =>
    exact hi.serve (by simp [hc]) (by simp) (by simp [hc]) fun _ h => h
  | nameTaken hp | fileProxy hp | closeProxy hp => exact hi.handle (by simp [hp]) (by simp [hp])
  | keepProxy _ hp =>
    have hh := hi.head .newProxy (by simp [hp])
    exact hi.serve (by simpa using hh) (by simp) (by intro hn; simp [hn] at hh)
      fun _ _ => rfl
  | answer hp hc =>
    have hh := hi.head .newProxy (by simp [hp])
    exact hi.pop [_] s.owner hc (fun hm => by simp [hc, hm] at hh) (by simp)
  | closeMissing hp hc hpx =>
    have := hi.pop [] s.owner hc (fun _ => hpx) (by simp)
    simpa [hp] using this
  | dropProxy hp hc =>
    exact hi.serve (by simp [hc]) (fun _ => rfl) (by simp [hc]) fun hn => by simp [hc] at hn
  | deleteProxy hp hc =>
    have hh := hi.head .closeProxy (by simp [hp])
    have := hi.pop [] .nobody hc (fun _ => hi.gone (by simp [hp])) fun hm => by simp [hc, hm] at hh
    simpa using this

/-! ## At rest -/

/-- If each response that a waiting wrapper takes still tells what the control has, the wrapper is
running exactly when the control has the name, once nothing is in flight. -/
theorem wrapper_agreement {s : Session} (h : Reach Session.Init (When SessionStep Session.Truthful) s)
    (hq : s.Quiescent) : s.pw.phase = .running ↔ s.proxies = true := by
  have hi : s.Inv := h.invariant (fun _ h0 => .init h0) fun _ _ _ _ hi hs => hs.1.inv hs.2 hi
  obtain ⟨hc, hr⟩ := hq
  refine ⟨fun hp => (hi.running hp).1, fun hp => ?_⟩
  by_contra hne
  have hw : s.pw.phase ≠ .waitStart := fun hw => by
    rcases hi.waiting hw with h | h
    · simp [hc] at h
    · exact h hr
  rcases hi.down hne hw with h | ⟨-, h⟩
  · simp [hc] at h
  · rw [hp] at h; cases h

theorem wrapper_agreement_retry : ∃ s : Session, Reach Session.Init (When SessionStep Session.Truthful) s ∧
    s.Quiescent ∧ s.proxies = true ∧ s.pw.phase = .running := by
  have h : Reach Session.Init (When SessionStep Session.Truthful)
      ⟨lit "web", true, 0, .new false, [], [], .idle, false, .nobody⟩ := .start ⟨false, rfl⟩
  have h := h
    |>.next ⟨.tick 0 (Nat.le_refl _), trivial⟩
    |>.next ⟨.refuse (lit "port already used") rfl rfl, trivial⟩
    |>.next ⟨.answer rfl rfl, trivial⟩
    |>.next ⟨.deliver 1 none (by decide) rfl, fun _ => ⟨by decide, fun _ => ⟨rfl, by decide⟩⟩⟩
    |>.next ⟨.tick 32 (by decide), trivial⟩
    |>.next ⟨.openProxy rfl rfl rfl, trivial⟩
    |>.next ⟨.fileProxy rfl rfl, trivial⟩
    |>.next ⟨.keepProxy (lit ":6000") rfl, trivial⟩
    |>.next ⟨.answer rfl rfl, trivial⟩
    |>.next ⟨.deliver 33 none (by decide) rfl, fun _ => ⟨fun _ _ => ⟨rfl, by decide⟩, by decide⟩⟩
  exact ⟨_, h, ⟨rfl, rfl⟩, rfl, (wrapper_agreement h ⟨rfl, rfl⟩).mpr rfl⟩

/-- The first request is refused after its timeout, the second succeeds, and the wrapper takes the
first response. And a plugin that rejects without a reason is taken for a success. -/
theorem wrapper_disagreement :
    (∃ s : Session, Reach Session.Init SessionStep s ∧ s.Quiescent ∧ s.pw.phase = .startErr ∧ s.proxies = true) ∧
    ∃ s : Session, Reach Session.Init SessionStep s ∧ s.Quiescent ∧ s.pw.phase = .running ∧ s.proxies = false := by
  constructor
  · have h : Reach Session.Init SessionStep ⟨lit "web", true, 0, .new false, [], [], .idle, false, .nobody⟩ :=
      .start ⟨false, rfl⟩
    have h := h
      |>.next (.tick 0 (Nat.le_refl _))
      |>.next (.tick 21 (by decide))
      |>.next (.refuse (lit "port already used") rfl rfl)
      |>.next (.answer rfl rfl)
      |>.next (.openProxy rfl rfl rfl)
      |>.next (.fileProxy rfl rfl)
      |>.next (.keepProxy (lit ":6000") rfl)
      |>.next (.answer rfl rfl)
      |>.next (.deliver 22 none (by decide) rfl)
      |>.next (.deliver 23 none (by decide) rfl)
    exact ⟨_, h, ⟨rfl, rfl⟩, rfl, rfl⟩
  · have h : Reach Session.Init SessionStep ⟨lit "web", true, 0, .new false, [], [], .idle, false, .nobody⟩ :=
      .start ⟨false, rfl⟩
    have h := h
      |>.next (.tick 0 (Nat.le_refl _))
      |>.next (.refuse [] rfl rfl)
      |>.next (.answer rfl rfl)
      |>.next (.deliver 1 none (by decide) rfl)
    exact ⟨_, h, ⟨rfl, rfl⟩, rfl, rfl⟩

end Frp
