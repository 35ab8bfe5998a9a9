import Frp.Lts
import Frp.RegistrySound

/-!
# Calls on the client registry

Every sequence of registrations and disconnections from the empty registry. `owner`
remembers for which user and id the entry under a key was last registered.
-/

namespace Frp

inductive RegistryCall
  | register (l : ClientLogin) (runID : Str)
  | registerWithControlID (l : ClientLogin) (runID : Str) (controlID : Nat)
  | markOfflineByRunID (runID : Str)
  | markOfflineByRunIDAndControlID (runID : Str) (controlID : Nat)

namespace Registry

def call (cr : Registry) (now : Nat) : RegistryCall → Registry × Bool
  | .register l runID => ((cr.registerWithControlID now l runID 0).1, (cr.registerWithControlID now l runID 0).2.2)
  | .registerWithControlID l runID controlID =>
    ((cr.registerWithControlID now l runID controlID).1, (cr.registerWithControlID now l runID controlID).2.2)
  | .markOfflineByRunID runID => (cr.markOfflineByRunID now runID none, false)
  | .markOfflineByRunIDAndControlID runID controlID => (cr.markOfflineByRunID now runID (some controlID), false)

def CallStep (cr : Registry) (e : Nat × RegistryCall) (cr' : Registry) : Prop := cr' = (cr.call e.1 e.2).1

def Kept (cr : Registry) : Prop := ∀ k i, cr.clients k = some i → i.online = false → i.rawClientID ≠ []

variable {cr : Registry} {now : Nat} {r : Str}

theorem offline_kept {info j : ClientInfo} (h : offline info now = some j) : j.rawClientID ≠ [] := by
  unfold offline at h
  split at h
  next => cases h
  next hraw => cases h; exact hraw

theorem Kept.register (h : cr.Kept) (hi : cr.Inv) (l : ClientLogin) (id : Nat) :
    (cr.registerWithControlID now l r id).1.Kept := by
  by_cases hcf : r = [] ∨ cr.conflicts l r = true
  · rw [register_conflict hcf]; exact h
  obtain ⟨hr, hc⟩ := not_or.mp hcf
  intro k i hk hoff
  rw [register_clients hi hr (by simpa using hc)] at hk
  split at hk
  next => cases hk; simp [registered] at hoff
  next =>
    split at hk
    next hck =>
      split at hk
      next => exact offline_kept hk
      next => cases hk; exact h k _ hck hoff
    next => cases hk

theorem Kept.markOffline (h : cr.Kept) (hi : cr.Inv) (id : Option Nat) : (cr.markOfflineByRunID now r id).Kept := by
  intro k i hk hoff
  rw [markOffline_clients hi] at hk
  split at hk
  next hck =>
    split at hk
    next => exact offline_kept hk
    next => cases hk; exact h k _ hck hoff
  next => cases hk

theorem Inv.call (hi : cr.Inv) (c : RegistryCall) : (cr.call now c).1.Inv := by
  cases c with
  | register l => exact hi.register l 0
  | registerWithControlID l r id => exact hi.register l id
  | markOfflineByRunID => exact hi.markOffline none
  | markOfflineByRunIDAndControlID r id => exact hi.markOffline (some id)

theorem Kept.call (h : cr.Kept) (hi : cr.Inv) (c : RegistryCall) : (cr.call now c).1.Kept := by
  cases c with
  | register l => exact h.register hi l 0
  | registerWithControlID l r id => exact h.register hi l id
  | markOfflineByRunID => exact h.markOffline hi none
  | markOfflineByRunIDAndControlID r id => exact h.markOffline hi (some id)

theorem conflicts_of_reported {l : ClientLogin} {id : Nat} (h : (cr.registerWithControlID now l r id).2.2 = true) :
    r ≠ [] ∧ cr.conflicts l r = true := by
  unfold registerWithControlID at h
  split at h
  next => cases h
  next hr =>
    split at h
    next hc => exact ⟨hr, hc⟩
    next => cases h

theorem call_conflict {c : RegistryCall} (h : (cr.call now c).2 = true) : (cr.call now c).1 = cr := by
  cases c with
  | register | registerWithControlID => exact register_conflict (.inr (conflicts_of_reported h).2)
  | markOfflineByRunID => cases h
  | markOfflineByRunIDAndControlID => cases h

theorem inv_of_calls (h : Reach (· = new) CallStep cr) : cr.Inv ∧ cr.Kept := by
  refine h.invariant (I := fun cr => cr.Inv ∧ cr.Kept) ?_ ?_
  · intro cr h0
    subst h0; exact ⟨inv_new, by simp [Kept, new]⟩
  · intro cr e cr' _ hi hst
    subst hst; exact ⟨hi.1.call e.2, hi.2.call hi.1 e.2⟩

/-- The index has the entries that are online, with their run IDs; no entry that is offline is without
a client ID, and a conflict changes nothing. -/
theorem registry_consistent (h : Reach (· = new) CallStep cr) :
    (∀ r k, cr.runIndex r = some k ↔ r ≠ [] ∧ ∃ i, cr.clients k = some i ∧ i.runID = r) ∧
      (∀ k i, cr.clients k = some i → (i.online = true ↔ i.runID ≠ [])) ∧
      (∀ k i, cr.clients k = some i → i.online = false → i.rawClientID ≠ []) ∧
      ∀ now c, (cr.call now c).2 = true → (cr.call now c).1 = cr :=
  ⟨(inv_of_calls h).1.index, (inv_of_calls h).1.online, (inv_of_calls h).2, fun _ _ => call_conflict⟩

theorem registry_consistent_moved : ∃ cr : Registry, Reach (· = new) CallStep cr ∧
    cr.runIndex (lit "r1") = some (lit "alice.laptop") ∧
    (lit "r1" ≠ [] ∧ ∃ i, cr.clients (lit "alice.laptop") = some i ∧ i.runID = lit "r1") ∧
    ∃ i, cr.clients (lit "alice.pc") = some i ∧ i.online = false ∧ i.rawClientID ≠ [] := by
  have h : Reach (· = new) CallStep new := .start rfl
  have h := h.next (e := (1, .register ⟨lit "alice", lit "pc", [], [], [], []⟩ (lit "r1"))) rfl
  have h := h.next (e := (2, .register ⟨lit "alice", lit "laptop", [], [], [], []⟩ (lit "r1"))) rfl
  have hc := registry_consistent h
  exact ⟨_, h, rfl, (hc.1 _ _).mp rfl, _, rfl, rfl, hc.2.2.1 (lit "alice.pc") _ rfl rfl⟩

/-! ## Identities -/

def identity (l : ClientLogin) (runID : Str) : Str × Str := (l.user, if l.clientID = [] then runID else l.clientID)

theorem identity_id_ne {l : ClientLogin} (hr : r ≠ []) : (identity l r).2 ≠ [] := by
  unfold identity
  split
  · exact hr
  · assumption

def Splits (a b : Str × Str) : Prop :=
  (a.1 = [] ∧ b.1 ≠ [] ∧ a.2 = b.1 ++ Str.dot :: b.2) ∨
    (a.1 ≠ [] ∧ ∃ w, b.1 = a.1 ++ Str.dot :: w ∧ a.2 = w ++ Str.dot :: b.2)

theorem composeClientKey_of_id {user id : Str} (h : id ≠ []) :
    composeClientKey user id = if user = [] then id else user ++ Str.dot :: id := by
  unfold composeClientKey; rw [if_neg h]

variable {a b : Str × Str}

theorem Splits.key_eq (h : Splits a b) (ha : a.2 ≠ []) (hb : b.2 ≠ []) :
    composeClientKey a.1 a.2 = composeClientKey b.1 b.2 := by
  rw [composeClientKey_of_id ha, composeClientKey_of_id hb]
  rcases h with ⟨hu, hne, hid⟩ | ⟨hu, w, hb1, hid⟩
  · rw [if_pos hu, if_neg hne, hid]
  · have hne : b.1 ≠ [] := by simp [hb1]
    rw [if_neg hu, if_neg hne, hb1, hid, List.append_assoc, List.cons_append]

theorem splits_of_append_eq (ha : a.1 ≠ []) (hb : b.1 ≠ [])
    (h : a.1 ++ Str.dot :: a.2 = b.1 ++ Str.dot :: b.2) : a = b ∨ Splits a b ∨ Splits b a := by
  have hcut : ∀ {u u' x x' w : Str}, u' = u ++ w → Str.dot :: x = w ++ Str.dot :: x' →
      (u = u' ∧ x = x') ∨ ∃ v, u' = u ++ Str.dot :: v ∧ x = v ++ Str.dot :: x' := by
    intro u u' x x' w hu hx
    cases w with
    | nil =>
      refine .inl ⟨?_, ?_⟩
      · rw [hu, List.append_nil]
      · simpa using hx
    | cons c v =>
      simp only [List.cons_append, List.cons.injEq] at hx; exact .inr ⟨v, hx.1 ▸ hu, hx.2⟩
  rcases List.append_eq_append_iff.mp h with ⟨w, hu, hx⟩ | ⟨w, hu, hx⟩
  · rcases hcut hu hx with ⟨h1, h2⟩ | hv
    · exact .inl (Prod.ext h1 h2)
    · exact .inr (.inl (.inr ⟨ha, hv⟩))
  · rcases hcut hu hx with ⟨h1, h2⟩ | hv
    · exact .inl (Prod.ext h1.symm h2.symm)
    · exact .inr (.inr (.inr ⟨hb, hv⟩))

theorem key_eq_iff (ha : a.2 ≠ []) (hb : b.2 ≠ []) :
    composeClientKey a.1 a.2 = composeClientKey b.1 b.2 ↔ a = b ∨ Splits a b ∨ Splits b a := by
  constructor
  · intro h
    rw [composeClientKey_of_id ha, composeClientKey_of_id hb] at h
    split_ifs at h with hua hub hub
    · exact .inl (Prod.ext (hua.trans hub.symm) h)
    · exact .inr (.inl (.inl ⟨hua, hub, h⟩))
    · exact .inr (.inr (.inl ⟨hub, hua, h.symm⟩))
    · exact splits_of_append_eq hua hub h
  · intro h
    rcases h with rfl | h | h
    · rfl
    · exact h.key_eq ha hb
    · exact (h.key_eq hb ha).symm

theorem not_splits_of_plain (ha : a.1 ≠ []) (hb : Str.dot ∉ b.1) : ¬ Splits a b := by
  intro h
  rcases h with ⟨hu, -⟩ | ⟨-, w, hu, -⟩
  · exact ha hu
  · exact hb (by simp [hu])

end Registry

/-! ## Whose entry is disturbed -/

structure RegistryHistory where
  registry : Registry
  owner : Str → Str × Str

namespace RegistryHistory

open Registry

def Init (s : RegistryHistory) : Prop := s.registry = .new

def registers (cr : Registry) (now : Nat) (c : RegistryCall) : Option (Str × (Str × Str)) :=
  match c with
  | .register l r | .registerWithControlID l r _ =>
    if r = [] ∨ (cr.call now c).2 = true then none else some (clientKey l r, identity l r)
  | _ => none

def call (s : RegistryHistory) (now : Nat) (c : RegistryCall) : RegistryHistory where
  registry := (s.registry.call now c).1
  owner :=
    match registers s.registry now c with
    | some (k, a) => Function.update s.owner k a
    | none => s.owner

def CallStep (s : RegistryHistory) (e : Nat × RegistryCall) (t : RegistryHistory) : Prop := t = s.call e.1 e.2

structure Spares (s : RegistryHistory) (now : Nat) (l : ClientLogin) (r : Str) (id : Nat) : Prop where
  conflict : (s.registry.call now (.registerWithControlID l r id)).2 = true → s.owner (clientKey l r) = identity l r
  kept : ∀ k i, s.registry.clients k = some i → s.owner k ≠ identity l r →
    (s.call now (.registerWithControlID l r id)).registry.clients k = some i ∧
      (s.call now (.registerWithControlID l r id)).owner k = s.owner k

structure Inv (s : RegistryHistory) : Prop where
  registry : s.registry.Inv
  id : ∀ k i, s.registry.clients k = some i → (s.owner k).2 ≠ []
  key : ∀ k i, s.registry.clients k = some i → k = composeClientKey (s.owner k).1 (s.owner k).2

attribute [local simp] Registry.call

section
variable {cr : Registry} {now : Nat} {l : ClientLogin} {r : Str} {id : Nat}

theorem registers_of_conflict (h : r = [] ∨ cr.conflicts l r = true) :
    registers cr now (.registerWithControlID l r id) = none := by
  by_cases hr : r = []
  · simp [registers, hr]
  · simp [registers, registerWithControlID, hr, h.resolve_left hr]

theorem registers_of_free (hr : r ≠ []) (hc : cr.conflicts l r = false) :
    registers cr now (.registerWithControlID l r id) = some (clientKey l r, identity l r) := by
  simp [registers, registerWithControlID, hr, hc]

theorem entry_of_register (hi : cr.Inv) {k : Str} {i : ClientInfo}
    (h : (cr.call now (.registerWithControlID l r id)).1.clients k = some i) :
    (r ≠ [] ∧ registers cr now (.registerWithControlID l r id) = some (k, identity l r) ∧ k = clientKey l r) ∨
      ((∃ j, cr.clients k = some j) ∧ ∀ a, registers cr now (.registerWithControlID l r id) ≠ some (k, a)) := by
  by_cases hcf : r = [] ∨ cr.conflicts l r = true
  · refine .inr ⟨⟨i, ?_⟩, fun a => by simp [registers_of_conflict hcf]⟩
    rw [Registry.call, register_conflict hcf] at h; exact h
  obtain ⟨hr, hc⟩ := not_or.mp hcf
  replace hc : cr.conflicts l r = false := by simpa using hc
  rw [registers_of_free hr hc]
  rw [Registry.call, register_clients hi hr hc] at h
  split at h
  next hk => exact .inl ⟨hr, by rw [hk], hk⟩
  next hk =>
    refine .inr ⟨?_, fun a ha => hk (Prod.mk.inj (Option.some.inj ha)).1.symm⟩
    split at h
    next j hj => exact ⟨j, hj⟩
    next => cases h

theorem entry_of_markOffline (hi : cr.Inv) {id : Option Nat} {k : Str} {i : ClientInfo}
    (h : (cr.markOfflineByRunID now r id).clients k = some i) : ∃ j, cr.clients k = some j := by
  rw [markOffline_clients hi] at h
  split at h
  next j hj => exact ⟨j, hj⟩
  next => cases h

end

variable {s : RegistryHistory} {now : Nat} {l : ClientLogin} {r : Str}

theorem Inv.same {t : RegistryHistory} (h : s.Inv) (ht : t.registry.Inv) (ho : t.owner = s.owner)
    (hback : ∀ k i, t.registry.clients k = some i → ∃ j, s.registry.clients k = some j) : t.Inv := by
  refine ⟨ht, fun k i hk => ?_, fun k i hk => ?_⟩
  · obtain ⟨j, hj⟩ := hback k i hk
    rw [ho]; exact h.id k j hj
  · obtain ⟨j, hj⟩ := hback k i hk
    rw [ho]; exact h.key k j hj

theorem Inv.register (h : s.Inv) (id : Nat) : (s.call now (.registerWithControlID l r id)).Inv := by
  have hown : ∀ k i, (s.call now (.registerWithControlID l r id)).registry.clients k = some i →
      (r ≠ [] ∧ (s.call now (.registerWithControlID l r id)).owner k = identity l r ∧ k = clientKey l r) ∨
        ((∃ j, s.registry.clients k = some j) ∧ (s.call now (.registerWithControlID l r id)).owner k = s.owner k) := by
    intro k i hk
    rcases entry_of_register h.registry hk with ⟨hr, hreg, hkey⟩ | ⟨hj, hno⟩
    · exact .inl ⟨hr, by simp [call, hreg], hkey⟩
    · refine .inr ⟨hj, ?_⟩
      cases hreg : registers s.registry now (.registerWithControlID l r id) with
      | none => simp [call, hreg]
      | some x =>
        have hne : k ≠ x.1 := fun hkk => hno x.2 (by rw [hreg, hkk])
        simp [call, hreg, Function.update_of_ne hne]
  refine ⟨h.registry.call _, fun k i hk => ?_, fun k i hk => ?_⟩
  · rcases hown k i hk with ⟨hr, ho, -⟩ | ⟨⟨j, hj⟩, ho⟩
    · rw [ho]; exact identity_id_ne hr
    · rw [ho]; exact h.id k j hj
  · rcases hown k i hk with ⟨-, ho, hkey⟩ | ⟨⟨j, hj⟩, ho⟩
    · rw [ho]; exact hkey
    · rw [ho]; exact h.key k j hj

theorem Inv.call (h : s.Inv) (c : RegistryCall) : (s.call now c).Inv := by
  cases c with
  | register => exact h.register 0
  | registerWithControlID l r id => exact h.register id
  | markOfflineByRunID | markOfflineByRunIDAndControlID =>
    exact h.same (h.registry.call _) rfl fun k i hk => entry_of_markOffline h.registry hk

theorem inv_of_calls (h : Reach Init CallStep s) : s.Inv := by
  refine h.invariant ?_ ?_
  · intro s h0
    have hnone : ∀ k i, s.registry.clients k ≠ some i := by simp [show s.registry = .new from h0, Registry.new]
    exact ⟨show s.registry.Inv from h0 ▸ inv_new, fun k i hk => absurd hk (hnone k i),
      fun k i hk => absurd hk (hnone k i)⟩
  · intro s e t _ hi hst
    subst hst; exact hi.call e.2

theorem Inv.at_key_iff (h : s.Inv) (hr : r ≠ []) {k : Str} {i : ClientInfo} (hk : s.registry.clients k = some i)
    (hne : s.owner k ≠ identity l r) :
    k = clientKey l r ↔ Splits (s.owner k) (identity l r) ∨ Splits (identity l r) (s.owner k) := by
  have hkey : clientKey l r = composeClientKey (identity l r).1 (identity l r).2 := rfl
  have hiff := key_eq_iff (h.id k i hk) (identity_id_ne (l := l) hr)
  rw [← h.key k i hk, ← hkey] at hiff
  rw [hiff, or_iff_right hne]

attribute [local simp] RegistryHistory.call

-- A refused registration changes nothing, so only the report can disturb another identity.
theorem spares_of_conflicts (hr : r ≠ []) (hc : s.registry.conflicts l r = true) (id : Nat) :
    s.Spares now l r id ↔ s.owner (clientKey l r) = identity l r := by
  constructor
  · intro hs; exact hs.conflict (by simp [registerWithControlID, hr, hc])
  · intro hown
    refine ⟨fun _ => hown, fun k i hk _ => ⟨?_, ?_⟩⟩
    · simp only [RegistryHistory.call, Registry.call, register_conflict (.inr hc)]; exact hk
    · simp [registers_of_conflict (.inr hc)]

-- A registration that goes through takes its key, and the run id from the entry that has it.
theorem spares_of_free (hi : s.registry.Inv) (hr : r ≠ []) (hc : s.registry.conflicts l r = false) (id : Nat) :
    s.Spares now l r id ↔ ∀ k i, s.registry.clients k = some i → s.owner k ≠ identity l r →
      k ≠ clientKey l r ∧ i.runID ≠ r := by
  constructor
  · intro hs k i hk hne
    obtain ⟨hcl, hown⟩ := hs.kept k i hk hne
    have hkey : k ≠ clientKey l r := by
      intro hkey
      refine hne (hown.symm.trans ?_)
      simp [registers_of_free hr hc, hkey]
    refine ⟨hkey, fun hrun => ?_⟩
    simp only [RegistryHistory.call, Registry.call, register_clients hi hr hc, hkey, hk, hrun, if_true, if_false] at hcl
    exact hr (hrun.symm.trans (offline_eq_some hcl).1)
  · intro hs
    refine ⟨fun hrep => absurd (conflicts_of_reported hrep).2 (by simp [hc]), fun k i hk hne => ?_⟩
    obtain ⟨hkey, hrun⟩ := hs k i hk hne
    refine ⟨?_, ?_⟩
    · simp only [RegistryHistory.call, Registry.call, register_clients hi hr hc, hkey, hk, hrun, if_false]
    · simp [registers_of_free hr hc, Function.update_of_ne hkey]

theorem entry_of_conflicts {cr : Registry} (hc : cr.conflicts l r = true) :
    ∃ i, cr.clients (clientKey l r) = some i := by
  unfold conflicts at hc
  split at hc
  next i hk => exact ⟨i, hk⟩
  next => cases hc

/-- A registration leaves the entries of other identities alone exactly if none of them splits the
same string otherwise, and none is online with the same run id. -/
theorem registration_spares_iff (h : Reach Init CallStep s) (now : Nat) (l : ClientLogin) {r : Str} (hr : r ≠ [])
    (id : Nat) : s.Spares now l r id ↔
      ∀ k i, s.registry.clients k = some i → s.owner k ≠ identity l r →
        ¬ (Splits (s.owner k) (identity l r) ∨ Splits (identity l r) (s.owner k)) ∧
          (i.runID = r → s.registry.conflicts l r = true) := by
  have hi := inv_of_calls h
  by_cases hc : s.registry.conflicts l r = true
  · rw [spares_of_conflicts hr hc]
    constructor
    · intro hown k i hk hne
      rw [← hi.at_key_iff hr hk hne]; exact ⟨fun hkey => hne (hkey ▸ hown), fun _ => hc⟩
    · intro hs
      by_contra hne
      obtain ⟨i, hk⟩ := entry_of_conflicts hc
      exact (hs _ i hk hne).1 ((hi.at_key_iff hr hk hne).mp rfl)
  · replace hc : s.registry.conflicts l r = false := by simpa using hc
    rw [spares_of_free hi.registry hr hc]
    refine forall₄_congr fun k i hk hne => ?_
    rw [← hi.at_key_iff hr hk hne, hc]; simp

theorem dotted_user_conflicts : ∃ s : RegistryHistory, Reach Init CallStep s ∧
    (s.registry.call 2 (.registerWithControlID ⟨lit "a.b", lit "c", [], [], [], []⟩ (lit "r2") 2)).2 = true ∧
    s.owner (lit "a.b.c") = (lit "a", lit "b.c") ∧
    ¬ s.Spares 2 ⟨lit "a.b", lit "c", [], [], [], []⟩ (lit "r2") 2 := by
  have h : Reach Init CallStep ⟨.new, fun _ => ([], [])⟩ := .start rfl
  have h := h.next (e := (1, .registerWithControlID ⟨lit "a", lit "b.c", [], [], [], []⟩ (lit "r1") 1)) rfl
  refine ⟨_, h, rfl, rfl, fun hs => ?_⟩
  have hown := hs.conflict rfl
  have : lit "a" = lit "a.b" := congrArg Prod.fst hown
  revert this
  decide

theorem registration_spares_plain : ∃ s : RegistryHistory, Reach Init CallStep s ∧ lit "r2" ≠ [] ∧
    s.Spares 2 ⟨lit "alice", lit "laptop", [], [], [], []⟩ (lit "r2") 2 := by
  have h : Reach Init CallStep ⟨.new, fun _ => ([], [])⟩ := .start rfl
  have h := h.next (e := (1, .registerWithControlID ⟨lit "alice", lit "pc", [], [], [], []⟩ (lit "r1") 1)) rfl
  refine ⟨_, h, by decide, (registration_spares_iff h 2 _ (by decide) 2).mpr fun k i hk _ => ?_⟩
  by_cases hkey : k = lit "alice.pc"
  · subst hkey
    cases hk
    refine ⟨fun hsp => ?_, fun hrun => absurd hrun (by decide)⟩
    have hplain : ∀ x y : Str × Str, x.1 = lit "alice" → y.1 = lit "alice" → ¬ Splits x y := fun x y hx hy =>
      not_splits_of_plain (hx ▸ by decide) (hy ▸ by decide)
    exact hsp.elim (hplain _ _ rfl rfl) (hplain _ _ rfl rfl)
  · rcases entry_of_register inv_new hk with ⟨-, -, hk'⟩ | ⟨⟨j, hj⟩, -⟩
    · exact absurd hk' hkey
    · cases hj

end RegistryHistory

end Frp
