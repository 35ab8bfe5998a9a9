import Frp.NatHole

/-!
# Who may punch a hole

The relay path asks for a permitted user; the call that opens a session asks only for the
sign key.
-/

namespace Frp

open Function

/-! ## Traces of a session id -/

namespace NatHole

def Acts (s : NatHole) (sid : Nat) : Prop := s.sessions sid ≠ none ∨ ∃ ch, (ch, sid) ∈ s.sidSent

structure Quiet (s : NatHole) (sid : Nat) : Prop where
  session : s.sessions sid = none
  visit : s.visits sid = none
  unsent : ∀ ch, (ch, sid) ∉ s.sidSent

variable {s : NatHole}

theorem Quiet.not_acts {sid : Nat} (h : s.Quiet sid) : ¬ s.Acts sid := by
  intro ha
  rcases ha with hs | ⟨ch, hc⟩
  · exact hs h.session
  · exact h.unsent ch hc

def Fresh (s : NatHole) : Prop := ∀ sid, s.nextSid ≤ sid → s.Quiet sid

theorem Quiet.setVisit {sid k : Nat} (h : s.Quiet sid) (hne : sid ≠ k) (v : Option Visit) :
    (s.setVisit k v).Quiet sid :=
  ⟨h.session, by simpa [NatHole.setVisit, update_of_ne hne] using h.visit, h.unsent⟩

theorem Quiet.setSession {sid k : Nat} (h : s.Quiet sid) (hne : sid ≠ k) (x : Option NatSession) :
    (s.setSession k x).Quiet sid :=
  ⟨by simpa [NatHole.setSession, update_of_ne hne] using h.session, h.visit, h.unsent⟩

end NatHole

/-! ## Authorization -/

attribute [local simp] NatHole.insertSession

section
variable [Md5]

namespace NatHole

def Authorized (s : NatHole) (m : NatHoleVisitor) (user : Str) : Prop :=
  ∃ cfg, s.clientCfgs m.proxyName = some cfg ∧ m.signKey = getAuthKey cfg.sk m.timestamp ∧
    allows cfg.allowUsers user

def Permitted (s : NatHole) (m : NatHoleVisitor) (user : Str) : Prop :=
  ∀ cfg, s.clientCfgs m.proxyName = some cfg → m.signKey = getAuthKey cfg.sk m.timestamp →
    allows cfg.allowUsers user

end NatHole

theorem admitVisitor_eq_ok {cfgs : Str → Option ClientCfg} {m : NatHoleVisitor} {cfg : ClientCfg} :
    admitVisitor cfgs m = .ok cfg ↔ cfgs m.proxyName = some cfg ∧ m.signKey = getAuthKey cfg.sk m.timestamp := by
  unfold admitVisitor
  cases cfgs m.proxyName with
  | none => simp
  | some c =>
    by_cases hk : m.signKey = getAuthKey c.sk m.timestamp
    · simp only [hk, ne_eq, not_true_eq_false, if_false, Except.ok.injEq, Option.some.injEq]
      exact ⟨by rintro rfl; exact ⟨rfl, rfl⟩, And.left⟩
    · simp only [hk, ne_eq, not_false_eq_true, if_true, reduceCtorEq, false_iff, not_and, Option.some.injEq]
      rintro rfl; exact hk

theorem newConn_ok {ls : Str → Option ListenerBundle} {name : Str} {ts : Int} {key : Str} {enc comp : Bool}
    {user wp : Str} {codecs : List Str} {err : Option Str} {c : PutConn}
    (h : newConn ls name ts key enc comp user wp codecs err = .ok c) :
    ∃ l, ls name = some l ∧ key = getAuthKey l.sk ts ∧ allows l.allowUsers user ∧ c.listener = l.listener := by
  unfold newConn at h
  cases hl : ls name with
  | none => simp [hl] at h
  | some l =>
    simp only [hl] at h
    split at h
    next => cases h
    next hk =>
      split at h
      next => cases h
      next ha =>
        refine ⟨l, rfl, (not_not.mp hk).symm, not_not.mp ha, ?_⟩
        split at h
        next => cases h
        next => cases h; rfl

theorem NatStep.nextSid_le {s t : NatHole} {e : NatEvent} (h : NatStep s e t) : s.nextSid ≤ t.nextSid := by
  cases h with
  | refused | admitted => exact Nat.le_succ _
  | _ => exact Nat.le_refl _

theorem NatStep.quiet {s t : NatHole} {e : NatEvent} {sid : Nat} (h : NatStep s e t)
    (hd : sid < t.nextSid → sid < s.nextSid) (hq : s.Quiet sid) : t.Quiet sid := by
  have busy : ∀ {k v}, s.visits k = some v → sid ≠ k := by
    rintro k v hv rfl
    rw [hq.visit] at hv; cases hv
  cases h with
  | listenClient | repeated | closeClient | preCheck | noSession | refused => exact ⟨hq.1, hq.2, hq.3⟩
  | admitted =>
    have hne : sid ≠ s.nextSid := by rintro rfl; exact Nat.lt_irrefl _ (hd (Nat.lt_succ_self _))
    refine ⟨?_, ?_, hq.unsent⟩
    · simpa [update_of_ne hne] using hq.session
    · simpa [update_of_ne hne] using hq.visit
  | @sendSid sid v hv =>
    have hq' := hq.setVisit (busy hv) (some { v with pc := .waiting })
    refine ⟨hq'.1, hq'.2, fun ch hc => ?_⟩
    rcases List.mem_append.mp hc with hc | hc
    · exact hq.unsent ch hc
    · exact busy hv (Prod.ext_iff.mp (List.mem_singleton.mp hc)).2
  | client _ hx =>
    refine hq.setSession ?_ _
    rintro rfl
    rw [hq.session] at hx; cases hx
  | wake hv | leave hv => exact (hq.setVisit (busy hv) _).setSession (busy hv) _
  | timeout hv | respond hv => exact hq.setVisit (busy hv) _

theorem NatHole.fresh_of_reach {s : NatHole} (h : Reach NatHole.Init NatStep s) : s.Fresh := by
  refine h.invariant (fun _ h0 => ?_) fun s e t _ hf hs sid hle => ?_
  · subst h0; exact fun _ _ => ⟨rfl, rfl, by simp⟩
  · exact hs.quiet (fun hlt => absurd hle (Nat.not_le.mpr hlt)) (hf sid (Nat.le_trans hs.nextSid_le hle))

/-- From any state, the call for `m` opens a session only for an authorized visitor exactly when a
visitor with a valid sign key is on the proxy's list. -/
theorem nathole_authorized_iff (s : NatHole) (hf : s.Fresh) (m : NatHoleVisitor) (transporter : Nat) (user : Str)
    (hp : m.preCheck = false) :
    (∀ s' t, NatStep s (.visitor m transporter user) s' → Reach (· = s') NatStep t → t.Acts s.nextSid →
      s.Authorized m user) ↔ s.Permitted m user := by
  constructor
  · intro h cfg hc hk
    have hst := NatStep.admitted transporter user hp (admitVisitor_eq_ok.mpr ⟨hc, hk⟩)
    obtain ⟨cfg', hc', -, ha⟩ := h _ _ hst (.start rfl) (.inl (by simp))
    rw [hc] at hc'; cases hc'
    exact ha
  · intro h s' t hst hr hact
    cases hst with
    | preCheck _ _ hp' => simp [hp] at hp'
    | admitted _ _ _ ha =>
      obtain ⟨hc, hk⟩ := admitVisitor_eq_ok.mp ha
      exact ⟨_, hc, hk, h _ hc hk⟩
    | refused =>
      -- a refused call draws an id and drops it
      have hq := hf s.nextSid (Nat.le_refl _)
      have hdropped : s.nextSid < t.nextSid ∧ t.Quiet s.nextSid := by
        refine Reach.invariant (I := fun x => s.nextSid < x.nextSid ∧ x.Quiet s.nextSid) (fun x hx => ?_) ?_ hr
        · subst hx; exact ⟨Nat.lt_succ_self _, hq.1, hq.2, hq.3⟩
        · exact fun _ _ _ _ hi hs => ⟨Nat.lt_of_lt_of_le hi.1 hs.nextSid_le, hs.quiet (fun _ => hi.1) hi.2⟩
      exact absurd hact hdropped.2.not_acts

end

/-! ### A user who is not on the list -/

@[reducible] def Md5.plain : Md5 := ⟨id⟩

section
attribute [local instance] Md5.plain

def onlyAlice : ClientCfg := ⟨lit "dns", lit "key", [lit "alice"], 0⟩

def signedVisit : NatHoleVisitor := ⟨lit "t1", lit "dns", false, getAuthKey (lit "key") 1700000000, 1700000000⟩

def dnsListening : NatHole :=
  ⟨update (fun _ => none) (lit "dns") (some onlyAlice), fun _ => none, fun _ => none, 0, 1, [], []⟩

theorem dnsListening_reach : Reach NatHole.Init NatStep dnsListening :=
  .next (.start rfl) (.listenClient (lit "key") [lit "alice"] rfl)

theorem unlisted_visitor_admitted : preCheckError dnsListening.clientCfgs signedVisit (lit "mallory") ≠ [] ∧
    ¬ dnsListening.Authorized signedVisit (lit "mallory") ∧
    ∃ s' t, NatStep dnsListening (.visitor signedVisit 0 (lit "mallory")) s' ∧ Reach (· = s') NatStep t ∧
      t.sessions 0 ≠ none ∧ (onlyAlice.sidCh, 0) ∈ t.sidSent := by
  have hin : NatStep dnsListening (.visitor signedVisit 0 (lit "mallory"))
      (dnsListening.insertSession signedVisit 0 (lit "mallory") onlyAlice) :=
    .admitted 0 (lit "mallory") rfl (admitVisitor_eq_ok.mpr ⟨rfl, rfl⟩)
  refine ⟨by decide, ?_, _, _, hin, .next (.start rfl) (@NatStep.sendSid _ _ 0 _ rfl rfl), ?_, ?_⟩
  · rintro ⟨cfg, hc, -, ha⟩
    cases hc; exact absurd ha (by decide)
  · exact Option.some_ne_none (⟨signedVisit, 0, none, false⟩ : NatSession)
  · simp [onlyAlice]

theorem listed_visitor_authorized : dnsListening.Permitted signedVisit (lit "alice") ∧
    ∀ s' t, NatStep dnsListening (.visitor signedVisit 0 (lit "alice")) s' → Reach (· = s') NatStep t → t.Acts 0 →
      dnsListening.Authorized signedVisit (lit "alice") := by
  have hp : dnsListening.Permitted signedVisit (lit "alice") := fun cfg hc _ => by cases hc; decide
  have hf : dnsListening.Fresh := NatHole.fresh_of_reach dnsListening_reach
  exact ⟨hp, (nathole_authorized_iff dnsListening hf signedVisit 0 (lit "alice") rfl).mpr hp⟩

end

end Frp
