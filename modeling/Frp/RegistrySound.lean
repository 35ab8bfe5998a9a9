import Frp.Registry

/-!
# The registry and its index

Every run id in the index leads to the one client that carries it, and a client is online
exactly when it carries a run id.
-/

namespace Frp.Registry

structure Inv (cr : Registry) : Prop where
  index : ∀ r k, cr.runIndex r = some k ↔ r ≠ [] ∧ ∃ i, cr.clients k = some i ∧ i.runID = r
  online : ∀ k i, cr.clients k = some i → (i.online = true ↔ i.runID ≠ [])

def Online (cr : Registry) (r : Str) (c : Nat) : Prop :=
  ∃ k i, cr.clients k = some i ∧ i.online = true ∧ i.runID = r ∧ i.controlID = c

theorem inv_new : new.Inv := ⟨by simp [new], by simp [new]⟩

variable {cr : Registry} {now : Nat} {key r : Str}

theorem offline_eq_some {info j : ClientInfo} (h : offline info now = some j) : j.runID = [] ∧ j.online = false := by
  unfold offline at h
  split at h
  · cases h
  · cases h; exact ⟨rfl, rfl⟩

variable {k : Str}

theorem Inv.key_unique (hi : cr.Inv) {k' : Str} {i i' : ClientInfo} (h : cr.clients k = some i)
    (h' : cr.clients k' = some i') (he : i.runID = i'.runID) (hne : i.runID ≠ []) : k = k' := by
  have h1 := (hi.index i.runID k).mpr ⟨hne, i, h, rfl⟩
  have h2 := (hi.index i.runID k').mpr ⟨hne, i', h', he.symm⟩
  rw [h1] at h2; exact Option.some.inj h2

theorem leavePrevious_clients (hi : cr.Inv) (hr : r ≠ []) (hk : k ≠ key) : (cr.leavePrevious now key r).clients k =
      match cr.clients k with
      | some i => if i.runID = r then offline i now else some i
      | none => none := by
  unfold leavePrevious
  cases hx : cr.runIndex r with
  | none =>
    cases hc : cr.clients k with
    | none => simp
    | some i =>
      have hne : i.runID ≠ r := fun he => by
        have := (hi.index r k).mpr ⟨hr, i, hc, he⟩
        rw [hx] at this; cases this
      simp [hne]
  | some pk =>
    obtain ⟨-, p, hp, hpr⟩ := (hi.index r pk).mp hx
    by_cases hpk : pk = key
    · subst hpk
      cases hc : cr.clients k with
      | none => simp [hc]
      | some i =>
        have hne : i.runID ≠ r := fun he =>
          hk (hi.key_unique hc hp (he.trans hpr.symm) (he ▸ hr))
        simp [hne, hc]
    · simp only [ne_eq, hpk, not_false_eq_true, if_true, release, hp, hpr, setIndex, setClient, true_and]
      by_cases hkp : k = pk
      · subst hkp; simp [hp, hpr]
      · rw [Function.update_of_ne hkp]
        cases hc : cr.clients k with
        | none => rfl
        | some i =>
          have hne : i.runID ≠ r := fun he => hkp (hi.key_unique hc hp (he.trans hpr.symm) (he ▸ hr))
          simp [hne]

theorem leavePrevious_key : (cr.leavePrevious now key r).clients key = cr.clients key := by
  unfold leavePrevious
  cases cr.runIndex r with
  | none => rfl
  | some pk =>
    by_cases hpk : pk = key
    · simp [hpk]
    · simp only [ne_eq, hpk, not_false_eq_true, if_true, release, setIndex]
      split
      · split
        · simp [setClient, Function.update_of_ne (Ne.symm hpk)]
        · rfl
      · rfl

variable {r' : Str}

theorem leavePrevious_runIndex (hr' : r' ≠ r) : (cr.leavePrevious now key r).runIndex r' = cr.runIndex r' := by
  unfold leavePrevious
  cases cr.runIndex r with
  | none => rfl
  | some pk =>
    by_cases hpk : pk = key
    · simp [hpk]
    · simp only [ne_eq, hpk, not_false_eq_true, if_true, release, setIndex, Function.update_of_ne hr']
      split
      · split <;> rfl
      · rfl

theorem evict_clients : (cr.evict key).clients = cr.clients := by
  unfold evict
  split
  · split <;> rfl
  · rfl

theorem evict_runIndex : (cr.evict key).runIndex r' =
    if r' ≠ [] ∧ ∃ i, cr.clients key = some i ∧ i.runID = r' then none else cr.runIndex r' := by
  unfold evict
  cases hc : cr.clients key with
  | none => simp
  | some i =>
    by_cases hr' : r' = i.runID
    · subst hr'
      by_cases he : i.runID = [] <;> simp [he, setIndex]
    · by_cases he : i.runID = []
      · simp [he]
      · simp [he, Ne.symm hr', setIndex, Function.update_of_ne hr']

/-! ## Registration -/

variable {l : ClientLogin} {id : Nat}

theorem register_clients (hi : cr.Inv) (hr : r ≠ []) (hc : cr.conflicts l r = false)
    (k : Str) : (cr.registerWithControlID now l r id).1.clients k =
      if k = clientKey l r then some (registered (cr.clients (clientKey l r)) now l r id)
      else
        match cr.clients k with
        | some i => if i.runID = r then offline i now else some i
        | none => none := by
  simp only [registerWithControlID, hr, if_false, hc, setIndex, setClient, evict_clients]
  by_cases hk : k = clientKey l r
  · simp [hk]
  · simp only [Bool.false_eq_true, if_false, hk, Function.update_of_ne hk]
    exact leavePrevious_clients hi hr hk

theorem register_runIndex (hr : r ≠ []) (hc : cr.conflicts l r = false) (r' : Str) :
    (cr.registerWithControlID now l r id).1.runIndex r' =
      if r' = r then some (clientKey l r)
      else if r' ≠ [] ∧ ∃ i, cr.clients (clientKey l r) = some i ∧ i.runID = r' then none
      else cr.runIndex r' := by
  simp only [registerWithControlID, hr, if_false, hc, setIndex, setClient]
  by_cases hrr : r' = r
  · simp [hrr]
  · simp only [Bool.false_eq_true, if_false, hrr, Function.update_of_ne hrr, evict_runIndex, leavePrevious_key,
      leavePrevious_runIndex hrr]

theorem register_conflict (h : r = [] ∨ cr.conflicts l r = true) : (cr.registerWithControlID now l r id).1 = cr := by
  unfold registerWithControlID
  by_cases hr : r = []
  · simp [hr]
  · simp [hr, h.resolve_left hr]

theorem register_carries (hi : cr.Inv) (hr : r ≠ []) (hc : cr.conflicts l r = false) (hr' : r' ≠ []) :
    (∃ i, (cr.registerWithControlID now l r id).1.clients k = some i ∧ i.runID = r') ↔
      (k = clientKey l r ∧ r' = r) ∨ (k ≠ clientKey l r ∧ r' ≠ r ∧ ∃ i, cr.clients k = some i ∧ i.runID = r') := by
  rw [register_clients hi hr hc]
  by_cases hk : k = clientKey l r
  · simp [hk, registered, eq_comm]
  · simp only [hk, if_false, false_and, false_or, not_false_eq_true, true_and, ne_eq]
    cases hcl : cr.clients k with
    | none => simp
    | some i =>
      by_cases hir : i.runID = r
      · simp only [hir, if_true, Option.some.injEq, exists_eq_left']
        constructor
        · intro hex
          obtain ⟨j, hj, hjr⟩ := hex
          exact absurd (hjr ▸ (offline_eq_some hj).1) hr'
        · rintro ⟨hne, h⟩
          exact absurd h.symm hne
      · simp only [hir, if_false, Option.some.injEq, exists_eq_left']
        exact ⟨fun h => ⟨fun he => hir (h.trans he), h⟩, And.right⟩

theorem Inv.register (hi : cr.Inv) (l : ClientLogin) (id : Nat) : (cr.registerWithControlID now l r id).1.Inv := by
  by_cases hcf : r = [] ∨ cr.conflicts l r = true
  · rw [register_conflict hcf]; exact hi
  obtain ⟨hr, hc⟩ := not_or.mp hcf
  replace hc : cr.conflicts l r = false := by simpa using hc
  constructor
  · intro r' k
    by_cases hr' : r' = []
    · have : cr.runIndex [] = none := by
        cases hx : cr.runIndex [] with
        | none => rfl
        | some k => exact absurd rfl ((hi.index [] k).mp hx).1
      simp [register_runIndex hr hc, hr', Ne.symm hr, this]
    rw [register_runIndex hr hc]
    refine Iff.trans ?_ (and_iff_right hr').symm
    rw [register_carries hi hr hc hr']
    by_cases hrr : r' = r
    · simp [hrr, eq_comm]
    simp only [hrr, if_false, and_false, false_or, not_false_eq_true, true_and, ne_eq, hr']
    split
    · -- the run that had the key is out, and had no other
      next hx =>
      obtain ⟨i, hci, hir⟩ := hx
      simp only [reduceCtorEq, false_iff, not_and, not_exists]
      intro hk j hcj hjr; exact hk (hi.key_unique hcj hci (hjr.trans hir.symm) (hjr ▸ hr'))
    · next hx =>
      rw [hi.index, and_iff_right hr']; exact ⟨fun h => ⟨fun hk => hx (hk ▸ h), h⟩, And.right⟩
  · intro k i h
    rw [register_clients hi hr hc] at h
    split at h
    · cases h; simp [registered, hr]
    · split at h
      · split at h
        · have := offline_eq_some h; simp [this]
        · next hcj _ => cases h; exact hi.online k i hcj
      · cases h

theorem Inv.online_register (hi : cr.Inv) (hc : (cr.registerWithControlID now l r id).2.2 = false) {c : Nat}
    (h : Online (cr.registerWithControlID now l r id).1 r' c) : (r' = r ∧ c = id) ∨ (r' ≠ r ∧ Online cr r' c) := by
  obtain ⟨k, i, hk, ho, rfl, rfl⟩ := h
  by_cases hr : r = []
  · rw [register_conflict (.inl hr)] at hk
    exact .inr ⟨hr ▸ (hi.online k i hk).mp ho, k, i, hk, ho, rfl, rfl⟩
  replace hc : cr.conflicts l r = false := by
    simp only [registerWithControlID, hr, if_false] at hc
    split at hc
    · cases hc
    · next h => simpa using h
  rw [register_clients hi hr hc] at hk
  split at hk
  · cases hk; exact .inl ⟨rfl, rfl⟩
  · split at hk
    · split at hk
      · simp [(offline_eq_some hk).2] at ho
      · next hcj hne => cases hk; exact .inr ⟨hne, k, i, hcj, ho, rfl, rfl⟩
    · cases hk

/-! ## Going offline -/

variable {cond : ClientInfo → Bool}

theorem release_clients : (cr.release now key r cond).clients k = match cr.clients k with
      | some i => if k = key ∧ i.runID = r ∧ cond i then offline i now else some i
      | none => none := by
  unfold release
  by_cases hk : k = key
  · subst hk
    cases hc : cr.clients k with
    | none => simp [hc]
    | some i =>
      by_cases h : i.runID = r ∧ cond i = true
      · simp [h, setClient]
      · simp [h, hc]
  · cases hc : cr.clients key with
    | none => cases hc' : cr.clients k <;> simp [hk]
    | some i =>
      by_cases h : i.runID = r ∧ cond i = true
      · cases hc' : cr.clients k <;> simp [h, setClient, hk, hc']
      · cases hc' : cr.clients k <;> simp [h, hk, hc']

theorem release_runIndex : (cr.release now key r cond).runIndex = cr.runIndex := by
  unfold release
  split
  · split <;> rfl
  · rfl

theorem markOffline_eq (now : Nat) (id : Option Nat) (hx : cr.runIndex r = some key) :
    ∃ rel, rel = cr.release now key r (fun i => id.all (i.controlID = ·)) ∧
      (((∃ i, rel.clients key = some i ∧ i.runID = r) ∧ cr.markOfflineByRunID now r id = rel) ∨
        ((¬ ∃ i, rel.clients key = some i ∧ i.runID = r) ∧ cr.markOfflineByRunID now r id = rel.setIndex r none)) := by
  refine ⟨_, rfl, ?_⟩
  simp only [markOfflineByRunID, hx]
  cases hc : (cr.release now key r fun i => id.all (i.controlID = ·)).clients key with
  | none => simp
  | some i => by_cases hir : i.runID = r <;> simp [hir]

theorem markOffline_clients (hi : cr.Inv) (id : Option Nat) (k : Str) : (cr.markOfflineByRunID now r id).clients k =
      match cr.clients k with
      | some i => if r ≠ [] ∧ i.runID = r ∧ id.all (i.controlID = ·) then offline i now else some i
      | none => none := by
  cases hx : cr.runIndex r with
  | none =>
    simp only [markOfflineByRunID, hx]
    cases hc : cr.clients k with
    | none => rfl
    | some i =>
      have hno : ¬ (r ≠ [] ∧ i.runID = r ∧ id.all (i.controlID = ·)) := fun ⟨hr, hir, _⟩ => by
        have := (hi.index r k).mpr ⟨hr, i, hc, hir⟩
        rw [hx] at this; cases this
      simp [hno]
  | some key =>
    obtain ⟨hr, p, hp, hpr⟩ := (hi.index r key).mp hx
    have hrel : (cr.markOfflineByRunID now r id).clients k =
        (cr.release now key r fun i => id.all (i.controlID = ·)).clients k := by
      obtain ⟨_, rfl, ⟨-, h⟩ | ⟨-, h⟩⟩ := markOffline_eq now id hx <;> rw [h]
      rfl
    rw [hrel, release_clients]
    cases hc : cr.clients k with
    | none => rfl
    | some i =>
      have hk : i.runID = r → k = key := fun h => hi.key_unique hc hp (h.trans hpr.symm) (h ▸ hr)
      by_cases hir : i.runID = r
      · simp [hir, hk hir, hr]
      · simp [hir]

theorem markOffline_carries (hi : cr.Inv) {id : Option Nat} (hr' : r' ≠ []) (hne : r' ≠ r) :
    (∃ i, (cr.markOfflineByRunID now r id).clients k = some i ∧ i.runID = r') ↔
      ∃ i, cr.clients k = some i ∧ i.runID = r' := by
  rw [markOffline_clients hi]
  cases hc : cr.clients k with
  | none => simp
  | some i =>
    by_cases hcond : r ≠ [] ∧ i.runID = r ∧ id.all (i.controlID = ·)
    · constructor
      · intro hex
        obtain ⟨j, hj, hjr⟩ := hex
        simp only [if_pos hcond] at hj; exact absurd (hjr ▸ (offline_eq_some hj).1) hr'
      · rintro ⟨j, hj, hjr⟩
        cases hj; exact absurd (hjr.symm.trans hcond.2.1) hne
    · simp [hcond]

theorem Inv.markOffline (hi : cr.Inv) (id : Option Nat) : (cr.markOfflineByRunID now r id).Inv := by
  cases hx : cr.runIndex r with
  | none => simpa only [markOfflineByRunID, hx] using hi
  | some key =>
    obtain ⟨hr, p, hp, hpr⟩ := (hi.index r key).mp hx
    have honly : ∀ k j, (cr.markOfflineByRunID now r id).clients k = some j → j.runID = r → k = key := by
      intro k j hj hjr
      rw [markOffline_clients hi] at hj
      split at hj
      · split at hj
        · exact absurd (hjr ▸ (offline_eq_some hj).1) hr
        · next hc _ => cases hj; exact hi.key_unique hc hp (hjr.trans hpr.symm) (hjr ▸ hr)
      · cases hj
    obtain ⟨rel, hrel, hcase⟩ := markOffline_eq now id hx
    have hrx : rel.runIndex = cr.runIndex := hrel ▸ release_runIndex
    constructor
    · intro r' k
      by_cases hrr : r' = r
      · subst hrr
        rcases hcase with ⟨hcar, heq⟩ | ⟨hno, heq⟩
        · rw [heq, hrx, hx]
          constructor
          · intro h; cases h; exact ⟨hr, hcar⟩
          · intro hex
            obtain ⟨-, j, hj, hjr⟩ := hex
            rw [honly k j (heq ▸ hj) hjr]
        · have hnone : (cr.markOfflineByRunID now r' id).runIndex r' = none := by simp [heq, setIndex]
          rw [hnone]
          simp only [reduceCtorEq, false_iff, not_and]
          rintro _ ⟨j, hj, hjr⟩
          exact hno ⟨j, by rw [← honly k j hj hjr]; rw [heq] at hj; exact hj, hjr⟩
      · have hsame : (cr.markOfflineByRunID now r id).runIndex r' = cr.runIndex r' := by
          rcases hcase with ⟨-, heq⟩ | ⟨-, heq⟩ <;> simp [heq, setIndex, hrx, hrr]
        rw [hsame, hi.index]
        by_cases hr' : r' = []
        · simp [hr']
        · rw [and_iff_right hr', and_iff_right hr', markOffline_carries hi hr' hrr]
    · intro k j hj
      rw [markOffline_clients hi] at hj
      split at hj
      · split at hj
        · have := offline_eq_some hj; simp [this]
        · next hc _ => cases hj; exact hi.online k j hc
      · cases hj

theorem Inv.online_markOffline (hi : cr.Inv) {c : Nat}
    (h : Online (cr.markOfflineByRunID now r (some id)) r' c) : Online cr r' c ∧ ¬ (r' = r ∧ c = id) := by
  obtain ⟨k, j, hj, ho, rfl, rfl⟩ := h
  rw [markOffline_clients hi] at hj
  split at hj
  · split at hj
    · simp [(offline_eq_some hj).2] at ho
    · next hc hcond =>
      cases hj
      refine ⟨⟨k, j, hc, ho, rfl, rfl⟩, fun ⟨h1, h2⟩ => hcond ⟨?_, h1, by simp [h2]⟩⟩
      exact h1 ▸ (hi.online k j hc).mp ho
  · cases hj

end Frp.Registry
