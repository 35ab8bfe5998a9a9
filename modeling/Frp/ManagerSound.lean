import Frp.Manager
import Frp.RegistrySound

/-!
# The manager and the registry agree

An online entry of the registry is owned by the manager's entry for its run: a replacement
inherits the ownership, and whoever removes the entry takes the client offline.
-/

namespace Frp

open Function

namespace Manager

variable {m : Manager} {now c mu : Nat} {x : Control}

/-! ## The sections -/

theorem markReplaced_frame : (m.markReplaced c).1.ctlsByRunID = m.ctlsByRunID ∧
    (m.markReplaced c).1.registry = m.registry ∧ (m.markReplaced c).1.nextControlID = m.nextControlID ∧
    (m.markReplaced c).1.closed = m.closed := by
  unfold markReplaced
  split <;> exact ⟨rfl, rfl, rfl, rfl⟩

theorem markReplaced_eq {y : Control} (h : m.controls c = some y) :
    m.markReplaced c = (m.setControl c (y.markReplaced c).1, (y.markReplaced c).2) := by
  simp [markReplaced, h]

def added (m : Manager) (c mu : Nat) (runID : Str) : ControlEntry :=
  match m.ctlsByRunID runID with
  | none => ⟨⟨c, m.nextControlID + 1, mu⟩, false, 0⟩
  | some old => ⟨⟨c, m.nextControlID + 1, old.runMu⟩, old.registryOnline, old.registryControlID⟩

theorem add_refused (h : (m.add c x mu).2 ≠ none) : (m.add c x mu).1.ctlsByRunID = m.ctlsByRunID ∧
    (m.add c x mu).1.registry = m.registry ∧ m.nextControlID ≤ (m.add c x mu).1.nextControlID := by
  unfold add at h ⊢
  by_cases hc : m.closed = true
  · simp [hc]
  · simp only [hc] at h ⊢
    by_cases hs : x.state = .created
    · simp only [Control.admitAs, hs, if_true] at h
      cases he : m.ctlsByRunID x.runID <;> simp [he] at h
    · simp [Control.admitAs, hs]

theorem add_ok (h : (m.add c x mu).2 = none) : m.closed = false ∧ x.state = .created ∧
    (m.add c x mu).1.ctlsByRunID = update m.ctlsByRunID x.runID (some (m.added c mu x.runID)) ∧
    (m.add c x mu).1.registry = m.registry ∧ (m.add c x mu).1.nextControlID = m.nextControlID + 1 := by
  unfold add at h ⊢
  by_cases hc : m.closed = true
  · simp [hc] at h
  · by_cases hs : x.state = .created
    · refine ⟨by simpa using hc, hs, ?_⟩
      simp only [hc, Control.admitAs, hs, if_true]
      cases he : m.ctlsByRunID x.runID with
      | none => simp [added, he, setEntry, setControl]
      | some => simp [added, he, setEntry, setControl, markReplaced_frame]
    · simp [hc, Control.admitAs, hs] at h

theorem activate_cases (m : Manager) (now c : Nat) (x : Control) : (m.activate now c x).1 = m ∨
    ∃ e login reg key, m.ctlsByRunID x.runID = some e ∧ e.ctl = c ∧ e.id = x.controlID ∧ x.state = .pending ∧
      m.registry.registerWithControlID now login x.runID e.id = (reg, key, false) ∧
      (m.activate now c x).2 = .active ∧
      (m.activate now c x).1 = ({ m with registry := reg }.setEntry x.runID (some { e with
        registryOnline := true, registryControlID := e.id })).setControl c { x with activated := true } := by
  unfold activate
  cases he : m.ctlsByRunID x.runID with
  | none => exact .inl rfl
  | some e =>
    simp only
    split
    · exact .inl rfl
    · next hcur =>
      split
      · exact .inl rfl
      · rcases hreg : m.registry.registerWithControlID now
          { x.login with remoteAddr := remoteHost x.login.remoteAddr } x.runID e.id with ⟨reg, key, conflict⟩
        cases conflict with
        | true => exact .inl (by simp)
        | false =>
          simp only [not_or, not_not] at hcur
          exact .inr ⟨e, _, reg, key, rfl, hcur.2.1, hcur.2.2.1, hcur.2.2.2, hreg, rfl, rfl⟩

theorem remove_cases (m : Manager) (now c : Nat) (x : Control) : m.remove now c x = m ∨
    ∃ e, m.ctlsByRunID x.runID = some e ∧ e.ctl = c ∧ e.id = x.controlID ∧
      m.remove now c x = { m.setEntry x.runID none with
        registry := if e.registryOnline then
          m.registry.markOfflineByRunID now x.runID (some e.registryControlID) else m.registry } := by
  unfold remove
  cases he : m.ctlsByRunID x.runID with
  | none => exact .inl rfl
  | some e =>
    by_cases hcur : e.ctl ≠ c ∨ e.id ≠ x.controlID
    · exact .inl (by simp [hcur])
    · simp only [hcur, if_false]
      simp only [not_or, not_not] at hcur
      refine .inr ⟨e, rfl, hcur.1, hcur.2, ?_⟩
      cases e.registryOnline <;> rfl

/-! ## Ownership of registry entries -/

structure Inv (m : Manager) : Prop where
  registry : m.registry.Inv
  ids : ∀ r e, m.ctlsByRunID r = some e → e.id ≤ m.nextControlID ∧
    (e.registryOnline = true → e.registryControlID ≤ e.id)
  owned : ∀ r i, m.registry.Online r i → ∃ e, m.ctlsByRunID r = some e ∧ e.registryOnline = true ∧
    e.registryControlID = i

namespace Inv

theorem init (h : m.Init) : m.Inv := by
  subst h; exact ⟨Registry.inv_new, by simp, by simp [Registry.Online, Registry.new]⟩

theorem add (hi : m.Inv) : (m.add c x mu).1.Inv := by
  by_cases h : (m.add c x mu).2 = none
  · obtain ⟨-, -, hctls, hreg, hid⟩ := add_ok h
    have hnew : (m.added c mu x.runID).id = m.nextControlID + 1 := by unfold added; split <;> rfl
    refine ⟨hreg ▸ hi.registry, fun r e he => ?_, fun r i ho => ?_⟩
    · rw [hctls] at he
      rw [hid]
      by_cases hr : r = x.runID
      · subst hr
        rw [update_self] at he; cases he
        refine ⟨Nat.le_of_eq hnew, fun hon => ?_⟩
        unfold added at hon ⊢
        cases hold : m.ctlsByRunID x.runID with
        | none => simp [hold] at hon
        | some =>
          obtain ⟨h1, h2⟩ := hi.ids _ _ hold
          simp only [hold] at hon ⊢
          have := h2 hon
          omega
      · rw [update_of_ne hr] at he
        obtain ⟨h1, h2⟩ := hi.ids r e he
        exact ⟨by omega, h2⟩
    · rw [hreg] at ho
      obtain ⟨e, he, hon, hio⟩ := hi.owned r i ho
      rw [hctls]
      by_cases hr : r = x.runID
      · subst hr
        refine ⟨m.added c mu x.runID, by simp, ?_⟩
        unfold added; simp [he, hon, hio]
      · exact ⟨e, by rw [update_of_ne hr]; exact he, hon, hio⟩
  · obtain ⟨hctls, hreg, hid⟩ := add_refused h
    refine ⟨hreg ▸ hi.registry, fun r e he => ?_, by rw [hreg, hctls]; exact hi.owned⟩
    obtain ⟨h1, h2⟩ := hi.ids r e (hctls ▸ he)
    exact ⟨by omega, h2⟩

theorem activate (hi : m.Inv) : (m.activate now c x).1.Inv := by
  rcases activate_cases m now c x with h | ⟨e, login, reg, key, he, -, -, -, hreg, -, h⟩
  · rw [h]; exact hi
  · have hregi : reg = (m.registry.registerWithControlID now login x.runID e.id).1 := by rw [hreg]
    rw [h]
    refine ⟨hregi ▸ hi.registry.register login e.id, fun r e' he' => ?_, fun r i ho => ?_⟩
    · by_cases hr : r = x.runID
      · subst hr
        simp only [setControl, setEntry, update_self, Option.some.injEq] at he'
        subst he'; exact ⟨(hi.ids _ e he).1, fun _ => Nat.le_refl _⟩
      · simp only [setControl, setEntry, update_of_ne hr] at he'; exact hi.ids r e' he'
    · have ho' : Registry.Online (m.registry.registerWithControlID now login x.runID e.id).1 r i := hregi ▸ ho
      rcases hi.registry.online_register (by rw [hreg]) ho' with ⟨rfl, rfl⟩ | ⟨hr, ho⟩
      · exact ⟨{ e with registryOnline := true, registryControlID := e.id }, by simp [setControl, setEntry], rfl, rfl⟩
      · obtain ⟨e', he', hon⟩ := hi.owned r i ho
        exact ⟨e', by simpa [setControl, setEntry, update_of_ne hr] using he', hon⟩

theorem remove (hi : m.Inv) : (m.remove now c x).Inv := by
  rcases remove_cases m now c x with h | ⟨e, he, -, -, h⟩
  · rw [h]; exact hi
  · rw [h]
    refine ⟨?_, fun r e' he' => ?_, fun r i ho => ?_⟩
    · split
      · exact hi.registry.markOffline _
      · exact hi.registry
    · by_cases hr : r = x.runID
      · subst hr; simp [setEntry] at he'
      · simp only [setEntry, update_of_ne hr] at he'; exact hi.ids r e' he'
    · -- the entry that goes owns the online client of its run, so that one goes too
      have hboth : m.registry.Online r i ∧ r ≠ x.runID := by
        split at ho
        · next hon =>
          obtain ⟨ho, hne⟩ := hi.registry.online_markOffline ho
          refine ⟨ho, fun hr => hne ⟨hr, ?_⟩⟩
          obtain ⟨e', he', -, hio⟩ := hi.owned r i ho
          rw [hr, he] at he'; cases he'
          exact hio.symm
        · next hon =>
          refine ⟨ho, fun hr => ?_⟩
          obtain ⟨e', he', hon', -⟩ := hi.owned r i ho
          rw [hr, he] at he'; cases he'
          exact hon hon'
      obtain ⟨e', he', hon⟩ := hi.owned r i hboth.1
      exact ⟨e', by simpa [setEntry, update_of_ne hboth.2] using he', hon⟩

end Inv

end Manager

theorem ManagerStep.inv {m n : Manager} {e : ManagerEvent} (h : ManagerStep m e n) (hi : m.Inv) : n.Inv := by
  cases h with
  | newControl | close | lifecycle => exact ⟨hi.registry, hi.ids, hi.owned⟩
  | add => exact hi.add
  | activate => exact hi.activate
  | remove => exact hi.remove

theorem Manager.inv_of_reach {m : Manager} (h : Reach Manager.Init ManagerStep m) : m.Inv :=
  h.invariant (fun _ h0 => .init h0) fun _ _ _ _ hi hs => hs.inv hi

/-- An online client is owned by the manager's entry for its run; an older control of the run
changes nothing in the registry. -/
theorem registry_agreement {m : Manager} (h : Reach Manager.Init ManagerStep m) :
    (∀ r k i, m.registry.clients k = some i → i.online = true → i.runID = r → ∃ e, m.ctlsByRunID r = some e ∧
      e.registryOnline = true ∧ e.registryControlID = i.controlID) ∧
    (∀ k i c x now, m.registry.clients k = some i → i.online = true → m.controls c = some x → x.runID = i.runID →
      x.controlID < i.controlID →
        (m.activate now c x).1.registry = m.registry ∧ (m.remove now c x).registry = m.registry) ∧
    (∀ r, m.ctlsByRunID r = none → ∀ k i, m.registry.clients k = some i → i.online = true → i.runID ≠ r) := by
  have hi := Manager.inv_of_reach h
  have hown : ∀ k i, m.registry.clients k = some i → i.online = true → ∃ e, m.ctlsByRunID i.runID = some e ∧
      e.registryOnline = true ∧ e.registryControlID = i.controlID :=
    fun k i hk ho => hi.owned _ _ ⟨k, i, hk, ho, rfl, rfl⟩
  refine ⟨fun r k i hk ho hr => hr ▸ hown k i hk ho, fun k i c x now hk ho _ hr hlt => ?_, fun r hn k i hk ho hr => ?_⟩
  · -- the older control is not the one in the entry, whose id is at least the owner's
    obtain ⟨e, he, hon, hid⟩ := hown k i hk ho
    have hne : ∀ e', m.ctlsByRunID x.runID = some e' → e'.id ≠ x.controlID := by
      intro e' he' heq
      rw [hr, he] at he'; cases he'
      have := (hi.ids _ e he).2 hon
      omega
    constructor
    · rcases Manager.activate_cases m now c x with h | ⟨e', _, _, _, he', -, hid', -⟩
      · rw [h]
      · exact absurd hid' (hne e' he')
    · rcases Manager.remove_cases m now c x with h | ⟨e', he', -, hid', -⟩
      · rw [h]
      · exact absurd hid' (hne e' he')
  · obtain ⟨e, he, -⟩ := hown k i hk ho
    rw [hr, hn] at he; cases he

theorem registry_agreement_replacement : ∃ m : Manager, Reach Manager.Init ManagerStep m ∧
    ∃ e, m.ctlsByRunID (lit "run") = some e ∧ e.id = 2 ∧ e.registryOnline = true ∧ e.registryControlID = 1 := by
  have h := (.start rfl : Reach Manager.Init ManagerStep ⟨fun _ => none, false, .new, 0, fun _ => none⟩)
    |>.next (.newControl (c := 0) (lit "run") ⟨lit "alice", lit "pc", [], [], [], []⟩ rfl)
    |>.next (.add (c := 0) 0 rfl)
    |>.next (.activate (c := 0) 7 rfl)
    |>.next (.newControl (c := 1) (lit "run") ⟨lit "alice", lit "pc", [], [], [], []⟩ rfl)
    |>.next (.add (c := 1) 1 rfl)
  obtain ⟨e, he, hon, hid⟩ := (registry_agreement h).1 (lit "run") (lit "alice.pc") _ rfl rfl rfl
  refine ⟨_, h, e, he, ?_, hon, hid⟩
  exact congrArg (fun o : Option ControlEntry => (o.map (·.id)).getD 0) he.symm

end Frp
