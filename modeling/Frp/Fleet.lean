import Frp.Slots
import Mathlib.Data.List.Induction
import Mathlib.Data.List.Nodup

/-!
# Fleets of instances

Configurations under their keys, each with a running instance or without one if that could
not be started. The order of a reload and which starts succeed are inputs; `log` is latest
first.
-/

namespace Frp

open Function

inductive RunEvent
  | started (id : Nat)
  | stopped (id : Nat)
  deriving DecidableEq

/-! ## Configurations by key -/

section
variable {K C : Type} [DecidableEq K] {key : C → K} {cfgs : List C} {k : K} {c : C}

def byKey (key : C → K) (cfgs : List C) : K → Option C :=
  cfgs.foldl (fun m c => update m (key c) (some c)) fun _ => none

theorem byKey_append : byKey key (cfgs ++ [c]) = update (byKey key cfgs) (key c) (some c) := by
  simp [byKey]

theorem byKey_eq_some : byKey key cfgs k = some c → c ∈ cfgs ∧ key c = k := by
  induction cfgs using List.reverseRecOn with
  | nil => intro h; cases h
  | append_singleton cfgs x ih =>
    intro h
    rw [byKey_append] at h
    rcases update_cases (· = some c) h with ⟨hk, h⟩ | ⟨-, h⟩
    · have hx := Option.some.inj h
      exact ⟨by simp [hx], by rw [hk, hx]⟩
    · exact ⟨List.mem_append_left _ (ih h).1, (ih h).2⟩

theorem byKey_of_mem (key : C → K) (hc : c ∈ cfgs) : ∃ c', byKey key cfgs (key c) = some c' := by
  induction cfgs using List.reverseRecOn with
  | nil => exact absurd hc List.not_mem_nil
  | append_singleton cfgs x ih =>
    rw [byKey_append]
    by_cases hx : key c = key x
    · exact ⟨x, by rw [hx, update_self]⟩
    · rw [update_of_ne hx]
      cases List.mem_append.mp hc with
      | inl hc => exact ih hc
      | inr hc => exact absurd (List.mem_singleton.mp hc ▸ rfl) hx

theorem byKey_iff (hn : (cfgs.map key).Nodup) : byKey key cfgs k = some c ↔ c ∈ cfgs ∧ key c = k := by
  constructor
  · exact byKey_eq_some
  · rintro ⟨hc, rfl⟩
    obtain ⟨c', hc'⟩ := byKey_of_mem key hc
    obtain ⟨hm, hk⟩ := byKey_eq_some hc'
    rw [hc', List.inj_on_of_nodup_map hn hm hc hk]

end

/-! ## Reloading -/

structure Fleet (K C : Type) where
  entries : K → Option (C × Option Nat) := fun _ => none
  next : Nat := 0
  log : List RunEvent := []

namespace Fleet

variable {K C : Type} [DecidableEq K]

def start (runs : Nat → Bool) (f : Fleet K C) (k : K) (c : C) : Fleet K C :=
  if runs f.next then
    ⟨update f.entries k (some (c, some f.next)), f.next + 1, .started f.next :: f.log⟩
  else ⟨update f.entries k (some (c, none)), f.next + 1, f.log⟩

def add (runs : Nat → Bool) (key : C → K) (f : Fleet K C) (c : C) : Fleet K C :=
  match f.entries (key c) with
  | some _ => f
  | none => f.start runs (key c) c

def revive (runs : Nat → Bool) (f : Fleet K C) (k : K) : Fleet K C :=
  match f.entries k with
  | some (c, none) => f.start runs k c
  | some (_, some _) | none => f

def Keys (f : Fleet K C) (order : List K) : Prop := ∀ k, k ∈ order ↔ (f.entries k).isSome = true

structure Ok (key : C → K) (f : Fleet K C) : Prop where
  named : ∀ k c i, f.entries k = some (c, i) → key c = k
  old : ∀ k c i, f.entries k = some (c, some i) → i < f.next
  alone : ∀ k k' c c' i, f.entries k = some (c, some i) → f.entries k' = some (c', some i) → k = k'
  live : ∀ k c i, f.entries k = some (c, some i) → .stopped i ∉ f.log
  past : ∀ i, .stopped i ∈ f.log → i < f.next

structure Reloaded (key : C → K) (cfgs : List C) (f f' : Fleet K C) : Prop where
  managed : ∀ k c, (∃ i, f'.entries k = some (c, i)) ↔ c ∈ cfgs ∧ key c = k
  kept : ∀ k c i, f.entries k = some (c, i) → c ∈ cfgs → f'.entries k = some (c, i)
  stopped : ∀ k c i, f.entries k = some (c, some i) → c ∉ cfgs → f'.log.count (.stopped i) = 1
  others : ∀ i, (∀ k c, f.entries k = some (c, some i) → c ∈ cfgs) →
    f'.log.count (.stopped i) = f.log.count (.stopped i)

variable {key : C → K} {runs : Nat → Bool} {wanted : K → Option C} {f : Fleet K C} {k k' : K} {c c' : C} {i : Nat}
  {inst : Option Nat} {cfgs : List C} {order : List K}

/-! ## The invariant -/

omit [DecidableEq K] in
theorem Ok.empty : Ok key ({} : Fleet K C) := by
  refine ⟨fun k c i h => ?_, fun k c i h => ?_, fun k k' c c' i h => ?_, fun k c i h => ?_,
    fun i h => absurd h List.not_mem_nil⟩
  all_goals cases h

theorem start_eq (runs : Nat → Bool) (f : Fleet K C) (k : K) (c : C) :
    ∃ inst log, f.start runs k c = ⟨update f.entries k (some (c, inst)), f.next + 1, log⟩ ∧
      (∀ i, inst = some i → i = f.next) ∧ ∀ i, log.count (.stopped i) = f.log.count (.stopped i) := by
  by_cases hr : runs f.next = true
  · exact ⟨some f.next, _, if_pos hr, fun i hi => (Option.some.inj hi).symm, fun i => by simp⟩
  · exact ⟨none, _, if_neg hr, nofun, fun i => rfl⟩

theorem Ok.start (h : Ok key f) (hc : key c = k) : Ok key (f.start runs k c) := by
  obtain ⟨inst, log, heq, hinst, hcount⟩ := f.start_eq runs k c
  rw [heq]
  have hlog : ∀ i, RunEvent.stopped i ∈ log → .stopped i ∈ f.log := by
    intro i
    rw [← List.count_pos_iff, ← List.count_pos_iff, hcount]; exact id
  have hback : ∀ {k' c' i}, update f.entries k (some (c, inst)) k' = some (c', some i) →
      (k' = k ∧ i = f.next) ∨ f.entries k' = some (c', some i) := by
    intro k' c' i hu
    rcases update_cases (· = some (c', some i)) hu with ⟨hk, hu⟩ | ⟨-, hu⟩
    · cases hu; exact .inl ⟨hk, hinst i rfl⟩
    · exact .inr hu
  refine ⟨fun k' c' i hu => ?_, fun k' c' i hu => ?_, fun k1 k2 c1 c2 i h1 h2 => ?_, fun k' c' i hu hm => ?_,
    fun i hm => Nat.lt_succ_of_lt (h.past i (hlog i hm))⟩
  · rcases update_cases (· = some (c', i)) hu with ⟨hk, hu⟩ | ⟨-, hu⟩
    · cases hu; exact hc.trans hk.symm
    · exact h.named k' c' i hu
  · rcases hback hu with ⟨-, rfl⟩ | hu
    · exact Nat.lt_succ_self _
    · exact Nat.lt_succ_of_lt (h.old k' c' i hu)
  · rcases hback h1 with ⟨hk1, rfl⟩ | h1
    · rcases hback h2 with ⟨hk2, -⟩ | h2
      · exact hk1.trans hk2.symm
      · exact absurd (h.old k2 c2 _ h2) (Nat.lt_irrefl _)
    · rcases hback h2 with ⟨-, rfl⟩ | h2
      · exact absurd (h.old k1 c1 _ h1) (Nat.lt_irrefl _)
      · exact h.alone k1 k2 c1 c2 i h1 h2
  · rcases hback hu with ⟨-, rfl⟩ | hu
    · exact absurd (h.past _ (hlog _ hm)) (Nat.lt_irrefl _)
    · exact h.live k' c' i hu (hlog i hm)

theorem Ok.add (h : Ok key f) : Ok key (f.add runs key c) := by
  unfold Fleet.add
  split
  · exact h
  · exact h.start rfl

theorem Ok.revive (h : Ok key f) : Ok key (f.revive runs k) := by
  unfold Fleet.revive
  split
  · rename_i c he
    exact h.start (h.named k c _ he)
  · exact h
  · exact h

theorem Ok.foldl_revive (h : Ok key f) (order : List K) : Ok key (order.foldl (Fleet.revive runs) f) := by
  induction order generalizing f with
  | nil => exact h
  | cons k rest ih => exact ih h.revive

/-! ## Adding what is missing -/

theorem add_cases (runs : Nat → Bool) (key : C → K) (f : Fleet K C) (c : C) :
    (f.add runs key c = f ∧ ∃ e, f.entries (key c) = some e) ∨
      (f.entries (key c) = none ∧ ∃ inst, (f.add runs key c).entries = update f.entries (key c) (some (c, inst)) ∧
        ∀ i, (f.add runs key c).log.count (.stopped i) = f.log.count (.stopped i)) := by
  unfold add
  cases he : f.entries (key c) with
  | some e => exact .inl ⟨rfl, e, rfl⟩
  | none =>
    obtain ⟨inst, log, heq, -, hcount⟩ := f.start_eq runs (key c) c
    exact .inr ⟨rfl, inst, by simp [heq], by simpa [heq] using hcount⟩

theorem foldl_add_kept {e : C × Option Nat} (cfgs : List C) : ∀ f : Fleet K C, f.entries k = some e →
    (cfgs.foldl (add runs key) f).entries k = some e := by
  induction cfgs with
  | nil => exact fun f he => he
  | cons c rest ih =>
    intro f he
    apply ih
    rcases add_cases runs key f c with ⟨heq, -⟩ | ⟨hnone, inst, heq, -⟩
    · rw [heq]; exact he
    · have hne : k ≠ key c := by
        intro hk
        rw [hk, hnone] at he; cases he
      rw [heq, update_of_ne hne]; exact he

theorem foldl_add_from (cfgs : List C) : ∀ f : Fleet K C, (cfgs.foldl (add runs key) f).entries k = some (c, inst) →
    f.entries k = some (c, inst) ∨ c ∈ cfgs ∧ key c = k := by
  induction cfgs with
  | nil => exact fun f he => .inl he
  | cons x rest ih =>
    intro f he
    rcases ih _ he with he | ⟨hc, hk⟩
    · rcases add_cases runs key f x with ⟨heq, -⟩ | ⟨-, inst', heq, -⟩
      · rw [heq] at he; exact .inl he
      · rw [heq] at he
        rcases update_cases (· = some (c, inst)) he with ⟨hk, hu⟩ | ⟨-, hu⟩
        · cases hu; exact .inr ⟨List.mem_cons_self, hk.symm⟩
        · exact .inl hu
    · exact .inr ⟨List.mem_cons_of_mem _ hc, hk⟩

theorem foldl_add_mem (runs : Nat → Bool) (cfgs : List C) : ∀ f : Fleet K C, c ∈ cfgs →
    ∃ e, (cfgs.foldl (add runs key) f).entries (key c) = some e := by
  induction cfgs with
  | nil => exact fun f hc => absurd hc List.not_mem_nil
  | cons x rest ih =>
    intro f hc
    cases hc with
    | head =>
      rcases add_cases runs key f c with ⟨heq, e, he⟩ | ⟨-, inst, heq, -⟩
      · exact ⟨e, foldl_add_kept rest _ (by rw [heq]; exact he)⟩
      · exact ⟨(c, inst), foldl_add_kept rest _ (by rw [heq, update_self])⟩
    | tail _ hc => exact ih _ hc

theorem foldl_add_count (cfgs : List C) : ∀ f : Fleet K C,
    (cfgs.foldl (add runs key) f).log.count (.stopped i) = f.log.count (.stopped i) := by
  induction cfgs with
  | nil => exact fun f => rfl
  | cons c rest ih =>
    intro f
    rw [List.foldl_cons, ih]
    rcases add_cases runs key f c with ⟨heq, -⟩ | ⟨-, inst, -, hcount⟩
    · rw [heq]
    · exact hcount i

/-! ## Dropping what is not wanted -/

variable [DecidableEq C]

def drop (wanted : K → Option C) (f : Fleet K C) (k : K) : Fleet K C :=
  match f.entries k with
  | none => f
  | some (c, inst) =>
    if wanted k = some c then f
    else ⟨update f.entries k none, f.next, inst.toList.map .stopped ++ f.log⟩

def reload (runs : Nat → Bool) (key : C → K) (order : List K) (cfgs : List C) (f : Fleet K C) : Fleet K C :=
  cfgs.foldl (add runs key) (order.foldl (drop (byKey key cfgs)) f)

variable {log : List RunEvent}

theorem mem_stopped {inst : Option Nat} :
    RunEvent.stopped i ∈ inst.toList.map .stopped ++ log ↔ inst = some i ∨ .stopped i ∈ log := by
  cases inst with
  | none => simp
  | some => simp [eq_comm]

theorem drop_cases (wanted : K → Option C) (f : Fleet K C) (k : K) :
    (f.drop wanted k = f ∧ ∀ c inst, f.entries k = some (c, inst) → wanted k = some c) ∨
      ∃ c inst, f.entries k = some (c, inst) ∧ wanted k ≠ some c ∧
        f.drop wanted k = ⟨update f.entries k none, f.next, inst.toList.map .stopped ++ f.log⟩ := by
  unfold drop
  cases he : f.entries k with
  | none => exact .inl ⟨rfl, fun c inst h => by cases h⟩
  | some e =>
    by_cases hw : wanted k = some e.1
    · refine .inl ⟨by simp [hw], fun c inst h => ?_⟩
      cases h; exact hw
    · exact .inr ⟨e.1, e.2, rfl, hw, by simp [hw]⟩

theorem Ok.drop (h : Ok key f) : Ok key (f.drop wanted k) := by
  rcases drop_cases wanted f k with ⟨heq, -⟩ | ⟨c, inst, he, -, heq⟩
  · rw [heq]; exact h
  · rw [heq]
    have hback : ∀ {k' e}, update f.entries k none k' = some e → k' ≠ k ∧ f.entries k' = some e := by
      intro k' e hu
      rcases update_cases (· = some e) hu with ⟨-, hu⟩ | hu
      · cases hu
      · exact hu
    refine ⟨fun k' c' i hu => h.named k' c' i (hback hu).2, fun k' c' i hu => h.old k' c' i (hback hu).2,
      fun k1 k2 c1 c2 i h1 h2 => h.alone k1 k2 c1 c2 i (hback h1).2 (hback h2).2, fun k' c' i hu hm => ?_,
      fun i hm => ?_⟩
    · obtain ⟨hne, hold⟩ := hback hu
      rcases mem_stopped.mp hm with hi | hm
      · exact hne (h.alone k' k c' c i hold (hi ▸ he))
      · exact h.live k' c' i hold hm
    · rcases mem_stopped.mp hm with hi | hm
      · exact h.old k c i (hi ▸ he)
      · exact h.past i hm

theorem Ok.foldl_drop (h : Ok key f) (wanted : K → Option C) (order : List K) :
    Ok key (order.foldl (Fleet.drop wanted) f) := by
  induction order generalizing f with
  | nil => exact h
  | cons k rest ih => exact ih h.drop

theorem Ok.reload (h : Ok key f) : Ok key (f.reload runs key order cfgs) := by
  unfold Fleet.reload
  have hd := h.foldl_drop (byKey key cfgs) order
  generalize order.foldl (Fleet.drop (byKey key cfgs)) f = g at hd
  generalize hkey : byKey key cfgs = w
  clear hkey
  induction cfgs generalizing g with
  | nil => exact hd
  | cons c rest ih => exact ih _ hd.add

/-! ## What the first pass leaves -/

theorem drop_entries_of_ne (h : k' ≠ k) : (f.drop wanted k).entries k' = f.entries k' := by
  rcases drop_cases wanted f k with ⟨heq, -⟩ | ⟨c, inst, -, -, heq⟩
  · rw [heq]
  · rw [heq]; exact update_of_ne h _ _

theorem drop_entries_wanted (h : wanted k = some c) (he : f.entries k = some (c, inst)) :
    (f.drop wanted k).entries k = some (c, inst) := by
  rcases drop_cases wanted f k with ⟨heq, -⟩ | ⟨c', inst', he', hw, -⟩
  · rw [heq, he]
  · rw [he] at he'; cases he'
    exact absurd h hw

theorem foldl_drop_wanted (h : wanted k = some c) (order : List K) :
    ∀ f : Fleet K C, f.entries k = some (c, inst) → (order.foldl (drop wanted) f).entries k = some (c, inst) := by
  induction order with
  | nil => exact fun f he => he
  | cons k' rest ih =>
    intro f he
    apply ih
    by_cases hk : k = k'
    · subst hk; exact drop_entries_wanted h he
    · rw [drop_entries_of_ne hk]; exact he

theorem foldl_drop_left (order : List K) : ∀ f : Fleet K C, (order.foldl (drop wanted) f).entries k = some (c, inst) →
    f.entries k = some (c, inst) ∧ (k ∈ order → wanted k = some c) := by
  induction order with
  | nil => exact fun f he => ⟨he, fun h => absurd h List.not_mem_nil⟩
  | cons k' rest ih =>
    intro f he
    obtain ⟨hleft, hrest⟩ := ih _ he
    rcases drop_cases wanted f k' with ⟨heq, hw⟩ | ⟨c', inst', -, -, heq⟩
    · rw [heq] at hleft
      refine ⟨hleft, fun hm => ?_⟩
      cases hm with
      | head => exact hw c inst hleft
      | tail _ hm => exact hrest hm
    · rw [heq] at hleft
      rcases update_cases (· = some (c, inst)) hleft with ⟨-, hu⟩ | ⟨hne, hu⟩
      · cases hu
      · exact ⟨hu, fun hm => hrest ((List.mem_cons.mp hm).resolve_left hne)⟩

theorem count_stopped : (inst.toList.map RunEvent.stopped ++ log).count (.stopped i) =
    (if inst = some i then 1 else 0) + log.count (.stopped i) := by
  cases inst with
  | none => simp
  | some => simp [List.count_cons, Nat.add_comm]

theorem foldl_drop_others (order : List K) : ∀ f : Fleet K C,
    (∀ k ∈ order, ∀ c, f.entries k = some (c, some i) → wanted k = some c) →
      (order.foldl (drop wanted) f).log.count (.stopped i) = f.log.count (.stopped i) := by
  induction order with
  | nil => exact fun f _ => rfl
  | cons k rest ih =>
    intro f h
    obtain ⟨hk, hrest⟩ := List.forall_mem_cons.mp h
    have hnext : ∀ k' ∈ rest, ∀ c, (f.drop wanted k).entries k' = some (c, some i) → wanted k' = some c :=
      fun k' hk' c he => hrest k' hk' c (foldl_drop_left [k] f he).1
    rw [List.foldl_cons, ih _ hnext]
    rcases drop_cases wanted f k with ⟨heq, -⟩ | ⟨c, inst, he, hw, heq⟩
    · rw [heq]
    · have hi : inst ≠ some i := fun hi => hw (hk c (hi ▸ he))
      rw [heq, count_stopped, if_neg hi, Nat.zero_add]

theorem foldl_drop_stops (order : List K) : ∀ f : Fleet K C, Ok key f → k ∈ order → f.entries k = some (c, some i) →
    wanted k ≠ some c → (order.foldl (drop wanted) f).log.count (.stopped i) = 1 := by
  induction order with
  | nil => exact fun f _ hk => absurd hk List.not_mem_nil
  | cons k' rest ih =>
    intro f hok hk he hw
    by_cases hkk : k = k'
    · subst hkk
      rcases drop_cases wanted f k with ⟨-, hall⟩ | ⟨c', inst', he', -, heq⟩
      · exact absurd (hall c _ he) hw
      · rw [he] at he'; cases he'
        -- no other key has the instance, so the rest of the pass does not stop it
        rw [List.foldl_cons, foldl_drop_others, heq, count_stopped, if_pos rfl,
          List.count_eq_zero_of_not_mem (hok.live k c i he)]
        intro k' hk' c' hc'
        rw [heq] at hc'
        rcases update_cases (· = some (c', some i)) hc' with ⟨-, hu⟩ | ⟨hne, hu⟩
        · cases hu
        · exact absurd (hok.alone k' k c' c i hu he) hne
    · refine ih _ hok.drop ((List.mem_cons.mp hk).resolve_left hkk) ?_ hw
      rw [drop_entries_of_ne hkk]; exact he

/-! ## The whole reload -/

theorem reloaded (runs : Nat → Bool) (hok : Ok key f) (hkeys : f.Keys order) (hn : (cfgs.map key).Nodup) :
    Reloaded key cfgs f (f.reload runs key order cfgs) := by
  have hmem : ∀ {k e}, f.entries k = some e → k ∈ order := fun he => (hkeys _).mpr (he ▸ rfl)
  have hwanted : ∀ {k c i}, f.entries k = some (c, i) → (byKey key cfgs k = some c ↔ c ∈ cfgs) := by
    intro k c i he
    rw [byKey_iff hn]; exact and_iff_left (hok.named k c i he)
  have hfrom : ∀ k c, (∃ i, (f.reload runs key order cfgs).entries k = some (c, i)) → c ∈ cfgs ∧ key c = k := by
    intro k c h
    obtain ⟨i, hi⟩ := h
    rcases foldl_add_from cfgs _ hi with hi | h
    · obtain ⟨he, hw⟩ := foldl_drop_left order f hi
      exact (byKey_iff hn).mp (hw (hmem he))
    · exact h
  refine ⟨fun k c => ⟨hfrom k c, fun h => ?_⟩, fun k c i he hc => ?_, fun k c i he hc => ?_, fun i h => ?_⟩
  · obtain ⟨hc, rfl⟩ := h
    obtain ⟨e, he⟩ := foldl_add_mem runs cfgs (order.foldl (drop (byKey key cfgs)) f) hc
    obtain ⟨hc', hk⟩ := hfrom (key c) e.1 ⟨e.2, he⟩
    have heq := List.inj_on_of_nodup_map hn hc' hc hk
    exact ⟨e.2, he.trans (by rw [← heq])⟩
  · exact foldl_add_kept cfgs _ (foldl_drop_wanted ((hwanted he).mpr hc) order f he)
  · unfold reload
    rw [foldl_add_count]
    exact foldl_drop_stops order f hok (hmem he) he fun hw => hc ((hwanted he).mp hw)
  · unfold reload
    rw [foldl_add_count]
    exact foldl_drop_others order f fun k _ c he => (hwanted he).mpr (h k c he)

theorem reload_again (hn : (cfgs.map key).Nodup)
    (h : ∀ k c, (∃ i, f.entries k = some (c, i)) ↔ c ∈ cfgs ∧ key c = k) : f.reload runs key order cfgs = f := by
  have hdrop : order.foldl (drop (byKey key cfgs)) f = f := by
    induction order with
    | nil => rfl
    | cons k rest ih =>
      have : f.drop (byKey key cfgs) k = f := by
        rcases drop_cases (byKey key cfgs) f k with ⟨heq, -⟩ | ⟨c, inst, he, hw, -⟩
        · exact heq
        · exact absurd ((byKey_iff hn).mpr ((h k c).mp ⟨inst, he⟩)) hw
      rw [List.foldl_cons, this, ih]
  unfold reload
  rw [hdrop]
  have hadd : ∀ l : List C, (∀ c ∈ l, c ∈ cfgs) → l.foldl (add runs key) f = f := by
    intro l hl
    induction l with
    | nil => rfl
    | cons c rest ih =>
      obtain ⟨hc, hrest⟩ := List.forall_mem_cons.mp hl
      have : f.add runs key c = f := by
        obtain ⟨inst, he⟩ := (h (key c) c).mpr ⟨hc, rfl⟩
        rcases add_cases runs key f c with ⟨heq, -⟩ | ⟨hnone, -⟩
        · exact heq
        · rw [hnone] at he; cases he
      rw [List.foldl_cons, this, ih hrest]
  exact hadd cfgs fun c hc => hc

end Fleet

end Frp
