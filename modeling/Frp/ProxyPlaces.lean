import Frp.ProxyNames
import Frp.Slots
import Mathlib.Data.List.Nodup

/-!
# Where the proxies are

The invariant of the registrations: each control holds the proxies of its map and those it
is at; a started proxy is live with its control or has been closed once.
-/

namespace Frp

open Function ControlPc

/-! ## What a control is at -/

namespace ControlPc

def hand : ControlPc → List Pxy
  | created p | counted p | checked p | ran p | refused p | filed p | failed p | dropped p | closed p => [p]
  | draining rest => rest
  | drainClosed p rest => p :: rest
  | off | idle | done | finished => []

def inManager : ControlPc → List Pxy
  | filed p | dropped p | closed p => [p]
  | draining rest => rest
  | drainClosed p rest => p :: rest
  | _ => []

def live : ControlPc → List Pxy
  | ran p | refused p | filed p | dropped p => [p]
  | draining rest => rest
  | drainClosed _ rest => rest
  | _ => []

def unrun : ControlPc → List Pxy
  | created p | counted p | checked p => [p]
  | _ => []

def drained : ControlPc → Bool
  | draining _ | drainClosed _ _ | finished => true
  | _ => false

theorem inManager_sub (q : ControlPc) : ∀ p ∈ q.inManager, p ∈ q.hand := by
  cases q <;> simp [inManager, hand]

theorem unrun_sub (q : ControlPc) : ∀ p ∈ q.unrun, p ∈ q.hand := by
  cases q <;> simp [unrun, hand]

theorem live_sub (q : ControlPc) : ∀ p ∈ q.live, p ∈ q.hand := by
  cases q <;> simp +contextual [live, hand]

end ControlPc

attribute [local simp] ProxyWorld.init ControlPc.hand ControlPc.live ControlPc.inManager

namespace ProxyWorld

variable {s s' : ProxyWorld} {c : Nat}

structure At (s : ProxyWorld) (c : Nat) (P : Str → Option Pxy) (q : ControlPc) : Prop where
  key : ∀ n p, P n = some p → p.name = n ∧ p.owner = c ∧ s.started p = true
  hand : ∀ p ∈ q.hand, p.owner = c ∧ p.id < s.next ∧ P p.name ≠ some p
  nodup : q.hand.Nodup
  live : ∀ p ∈ q.live, s.started p = true
  unrun : ∀ p ∈ q.unrun, s.started p = false
  empty : q.drained = true → ∀ n, P n = none

def FiledAt (P : Str → Option Pxy) (q : ControlPc) (p : Pxy) : Prop := P p.name = some p ∨ p ∈ q.inManager

def LiveAt (P : Str → Option Pxy) (q : ControlPc) (p : Pxy) : Prop := P p.name = some p ∨ p ∈ q.live

structure Inv (s : ProxyWorld) : Prop where
  at_ : ∀ c, s.At c (s.proxies c) (s.pc c)
  filed : ∀ n p, s.pxys n = some p ↔ p.name = n ∧ FiledAt (s.proxies p.owner) (s.pc p.owner) p
  live : ∀ p, LiveAt (s.proxies p.owner) (s.pc p.owner) p → s.closes p = 0
  closed : ∀ p, s.started p = true → ¬ LiveAt (s.proxies p.owner) (s.pc p.owner) p → s.closes p = 1
  unstarted : ∀ p, s.started p = false → s.closes p = 0
  fresh : ∀ p, s.started p = true → p.id < s.next
  registered : ∀ p, s.registered p = true → s.started p = true

theorem Inv.init : ProxyWorld.init.Inv where
  at_ c := ⟨by simp, by simp,
    by simp, by simp, fun _ _ => rfl,
    fun _ _ => rfl⟩
  filed := by simp [FiledAt]
  live _ _ := rfl
  closed := by simp
  unstarted _ _ := rfl
  fresh := by simp
  registered := by simp

structure Frame (s s' : ProxyWorld) (c : Nat) (P : Str → Option Pxy) (q : ControlPc) : Prop where
  pc : s'.pc = update s.pc c q
  proxies : s'.proxies = update s.proxies c P
  next : s.next ≤ s'.next
  started : ∀ p, p.owner ≠ c → s'.started p = s.started p
  closes : ∀ p, p.owner ≠ c → s'.closes p = s.closes p
  pxys : ∀ n p, p.owner ≠ c → (s'.pxys n = some p ↔ s.pxys n = some p)

variable {P : Str → Option Pxy} {q : ControlPc}

theorem Frame.self (hf : Frame s s' c P q) : s'.pc c = q ∧ s'.proxies c = P := by
  rw [hf.pc, hf.proxies, update_self, update_self]; exact ⟨rfl, rfl⟩

theorem Frame.other (hf : Frame s s' c P q) {d : Nat} (hd : d ≠ c) :
    s'.pc d = s.pc d ∧ s'.proxies d = s.proxies d := by
  rw [hf.pc, hf.proxies, update_of_ne hd, update_of_ne hd]; exact ⟨rfl, rfl⟩

namespace Inv

variable (h : s.Inv)
include h

theorem move (hf : Frame s s' c P q) (hat : s'.At c P q)
    (filed : ∀ n p, p.owner = c → (s'.pxys n = some p ↔ p.name = n ∧ FiledAt P q p))
    (live : ∀ p, p.owner = c → LiveAt P q p → s'.closes p = 0)
    (closed : ∀ p, p.owner = c → s'.started p = true → ¬ LiveAt P q p → s'.closes p = 1)
    (unstarted : ∀ p, p.owner = c → s'.started p = false → s'.closes p = 0)
    (fresh : ∀ p, p.owner = c → s'.started p = true → p.id < s'.next)
    (registered : ∀ p, s'.registered p = true → s'.started p = true) : s'.Inv where
  at_ d := by
    by_cases hd : d = c
    · subst hd
      rw [hf.self.1, hf.self.2]; exact hat
    · rw [(hf.other hd).1, (hf.other hd).2]
      have ho := h.at_ d
      refine ⟨?_, ?_, ho.nodup, ?_, ?_, ho.empty⟩
      · intro n p hp
        obtain ⟨h1, h2, h3⟩ := ho.key n p hp
        exact ⟨h1, h2, by rw [hf.started p (by rw [h2]; exact hd)]; exact h3⟩
      · intro p hp
        obtain ⟨h1, h2, h3⟩ := ho.hand p hp
        exact ⟨h1, Nat.lt_of_lt_of_le h2 hf.next, h3⟩
      · intro p hp
        have h1 := (ho.hand p (live_sub _ p hp)).1
        rw [hf.started p (by rw [h1]; exact hd)]
        exact ho.live p hp
      · intro p hp
        have h1 := (ho.hand p (unrun_sub _ p hp)).1
        rw [hf.started p (by rw [h1]; exact hd)]
        exact ho.unrun p hp
  filed n p := by
    by_cases hp : p.owner = c
    · rw [filed n p hp, hp, hf.self.1, hf.self.2]
    · rw [hf.pxys n p hp, (hf.other hp).1, (hf.other hp).2]; exact h.filed n p
  live p hl := by
    by_cases hp : p.owner = c
    · rw [hp, hf.self.1, hf.self.2] at hl; exact live p hp hl
    · rw [(hf.other hp).1, (hf.other hp).2] at hl
      rw [hf.closes p hp]; exact h.live p hl
  closed p hs hl := by
    by_cases hp : p.owner = c
    · rw [hp, hf.self.1, hf.self.2] at hl; exact closed p hp hs hl
    · rw [(hf.other hp).1, (hf.other hp).2] at hl
      rw [hf.started p hp] at hs
      rw [hf.closes p hp]; exact h.closed p hs hl
  unstarted p hs := by
    by_cases hp : p.owner = c
    · exact unstarted p hp hs
    · rw [hf.started p hp] at hs
      rw [hf.closes p hp]; exact h.unstarted p hs
  fresh p hs := by
    by_cases hp : p.owner = c
    · exact fresh p hp hs
    · rw [hf.started p hp] at hs; exact Nat.lt_of_lt_of_le (h.fresh p hs) hf.next
  registered := registered

/-! ## Steps that move a proxy -/

theorem refile (hf : Frame s s' c P q) (hat : s'.At c P q) (hs : s'.started = s.started)
    (hc : s'.closes = s.closes) (hr : ∀ p, s'.registered p = true → s'.started p = true)
    (filed : ∀ n p, p.owner = c → (s'.pxys n = some p ↔ p.name = n ∧ FiledAt P q p))
    (hl : ∀ p, p.owner = c → (LiveAt P q p ↔ LiveAt (s.proxies c) (s.pc c) p)) : s'.Inv := by
  apply h.move hf hat filed
  · intro p hp hlive
    rw [hc]; exact h.live p (by rw [hp]; exact (hl p hp).mp hlive)
  · intro p hp hst hlive
    rw [hc]; exact h.closed p (hs ▸ hst) (by rw [hp]; exact fun hl' => hlive ((hl p hp).mpr hl'))
  · intro p _ hst
    rw [hc]; exact h.unstarted p (hs ▸ hst)
  · intro p _ hst; exact Nat.lt_of_lt_of_le (h.fresh p (hs ▸ hst)) hf.next
  · exact hr

theorem remap (hf : Frame s s' c P q) (hat : s'.At c P q) (hx : s'.pxys = s.pxys)
    (hs : s'.started = s.started) (hc : s'.closes = s.closes) (hr : ∀ p, s'.registered p = true → s'.started p = true)
    (hm : ∀ p, p.owner = c → (FiledAt P q p ↔ FiledAt (s.proxies c) (s.pc c) p))
    (hl : ∀ p, p.owner = c → (LiveAt P q p ↔ LiveAt (s.proxies c) (s.pc c) p)) : s'.Inv := by
  refine h.refile hf hat hs hc hr (fun n p hp => ?_) hl
  rw [hx, h.filed, hm p hp, hp]

theorem quiet (hpc : s'.pc = update s.pc c q) (hp : s'.proxies = s.proxies)
    (hx : s'.pxys = s.pxys) (hs : s'.started = s.started) (hc : s'.closes = s.closes)
    (hr : s'.registered = s.registered) (hn : s.next ≤ s'.next)
    (hm : q.inManager = (s.pc c).inManager) (hl : q.live = (s.pc c).live)
    (hd : q.drained = true → (s.pc c).drained = true) (hu : ∀ p ∈ q.unrun, s.started p = false)
    (hh : ∀ p ∈ q.hand, p.owner = c ∧ p.id < s'.next ∧ s.proxies c p.name ≠ some p) (hnd : q.hand.Nodup) :
    s'.Inv := by
  have hat := h.at_ c
  refine h.remap ⟨hpc, ?_, hn, ?_, ?_, ?_⟩ ⟨?_, hh, hnd, ?_, ?_, ?_⟩ hx hs hc ?_ ?_ ?_
  · rw [hp, update_eq_self]
  · intro p _; rw [hs]
  · intro p _; rw [hc]
  · intro n p _; rw [hx]
  · rw [hs]; exact hat.key
  · rw [hl, hs]; exact hat.live
  · rw [hs]; exact hu
  · intro hq; exact hat.empty (hd hq)
  · rw [hr, hs]; exact h.registered
  · intro p _; rw [FiledAt, FiledAt, hm]
  · intro p _; rw [LiveAt, LiveAt, hl]

variable {p : Pxy}

theorem callClose (hh : q.hand = (s.pc c).hand) (hm : q.inManager = (s.pc c).inManager)
    (hd : q.drained = (s.pc c).drained) (hu : q.unrun = []) (hl : ∀ r, r ∈ (s.pc c).live ↔ r = p ∨ r ∈ q.live)
    (hp : p ∉ q.live) : ((s.callClose p).goto c q).Inv := by
  have hat := h.at_ c
  have hlive : p ∈ (s.pc c).live := (hl p).mpr (.inl rfl)
  obtain ⟨hown, -, hnot⟩ := hat.hand p (live_sub _ p hlive)
  have hne : ∀ r, r ≠ p → ((s.callClose p).goto c q).closes r = s.closes r := fun r hr => update_of_ne hr _ _
  have heq : ((s.callClose p).goto c q).closes p = 1 := by
    have h0 := h.live p (by rw [hown]; exact .inr hlive)
    show update s.closes p (s.closes p + 1) p = 1
    rw [update_self, h0]
  refine h.move ⟨rfl, (update_eq_self c _).symm, Nat.le_refl _, fun _ _ => rfl, ?_,
    fun _ _ _ => Iff.rfl⟩ ⟨hat.key, hh ▸ hat.hand, hh ▸ hat.nodup, ?_, by simp [hu],
      hd ▸ hat.empty⟩ ?_ ?_ ?_ ?_ ?_ h.registered
  · intro r hr; exact hne r fun hrp => hr (hrp ▸ hown)
  · intro r hr; exact hat.live r ((hl r).mpr (.inr hr))
  · intro n r hr
    rw [FiledAt, hm, ← hr]; exact h.filed n r
  · intro r hr hlr
    by_cases hrp : r = p
    · subst hrp
      rcases hlr with hlr | hlr
      · exact absurd hlr hnot
      · exact absurd hlr hp
    · rw [hne r hrp]
      apply h.live r
      rw [hr]; exact hlr.imp_right fun hm => (hl r).mpr (.inr hm)
  · intro r hr hst hlr
    by_cases hrp : r = p
    · rw [hrp]; exact heq
    · rw [hne r hrp]
      apply h.closed r hst
      rw [hr]
      intro hlr'
      refine hlr (hlr'.imp_right fun hm => ?_)
      exact ((hl r).mp hm).resolve_left hrp
  · intro r hr hst
    by_cases hrp : r = p
    · subst hrp
      have hs := hat.live r hlive
      rw [show s.started r = false from hst] at hs; cases hs
    · rw [hne r hrp]; exact h.unstarted r hst
  · intro r _ hst; exact h.fresh r hst

theorem delete (hh : (s.pc c).hand = p :: q.hand) (hd : q.drained = (s.pc c).drained)
    (hu : q.unrun = []) (hm : ∀ r, r ∈ (s.pc c).inManager ↔ r = p ∨ r ∈ q.inManager) (hl : q.live = (s.pc c).live) :
    ((s.setPxy p.name none).goto c q).Inv := by
  have hat := h.at_ c
  have hmp : p ∈ (s.pc c).inManager := (hm p).mpr (.inl rfl)
  obtain ⟨hown, -, hnot⟩ := hat.hand p (inManager_sub _ p hmp)
  have hfiled : s.pxys p.name = some p := (h.filed _ p).mpr ⟨rfl, by rw [hown]; exact .inr hmp⟩
  have hnd := hat.nodup
  rw [hh] at hnd
  obtain ⟨hpq, hnd⟩ := List.nodup_cons.mp hnd
  have hpxys : ∀ n r, ((s.setPxy p.name none).goto c q).pxys n = some r ↔ s.pxys n = some r ∧ r ≠ p := fun n r =>
    update_none_iff Pxy.name (fun n r hr => ((h.filed n r).mp hr).1) hfiled
  refine h.refile (P := s.proxies c) ⟨rfl, (update_eq_self c _).symm, Nat.le_refl _, fun _ _ => rfl,
    fun _ _ => rfl, ?_⟩ ⟨hat.key, ?_, hnd, hl ▸ hat.live, by simp [hu], hd ▸ hat.empty⟩ rfl rfl h.registered ?_ ?_
  · intro n r hr
    rw [hpxys n r]; exact ⟨fun h' => h'.1, fun h' => ⟨h', fun hrp => hr (hrp ▸ hown)⟩⟩
  · intro r hr; exact hat.hand r (by rw [hh]; exact List.mem_cons_of_mem p hr)
  · intro n r hr
    rw [hpxys n r, h.filed n r, hr, FiledAt, FiledAt, hm r]
    constructor
    · intro h'; exact ⟨h'.1.1, h'.1.2.imp_right fun hr' => hr'.resolve_left h'.2⟩
    · intro h'
      refine ⟨⟨h'.1, h'.2.imp_right .inr⟩, fun hrp => ?_⟩
      subst hrp
      rcases h'.2 with hmap | hmq
      · exact hnot hmap
      · exact hpq (inManager_sub q r hmq)
  · intro r _; rw [LiveAt, LiveAt, hl]

theorem add (hp : s.pc c = .ran p) (hfree : s.pxys p.name = none) :
    ((s.setPxy p.name (some p)).goto c (.filed p)).Inv := by
  have hat := h.at_ c
  rw [hp] at hat
  obtain ⟨hown, -, -⟩ := hat.hand p List.mem_cons_self
  have hpxys : ∀ n r, ((s.setPxy p.name (some p)).goto c (.filed p)).pxys n = some r ↔
      s.pxys n = some r ∨ n = p.name ∧ r = p := fun n r => update_some_iff hfree
  refine h.refile ⟨rfl, (update_eq_self c _).symm, Nat.le_refl _, fun _ _ => rfl,
    fun _ _ => rfl, ?_⟩ { hat with unrun := by simp [unrun], empty := fun hq => by cases hq } rfl rfl h.registered ?_ ?_
  · intro n r hr
    rw [hpxys n r]
    refine ⟨fun h' => h'.resolve_right fun h'' => hr (h''.2 ▸ hown), .inl⟩
  · intro n r hr
    rw [hpxys n r, h.filed n r, hr, FiledAt, FiledAt, hp]
    simp only [inManager, List.not_mem_nil, or_false, List.mem_singleton]
    constructor
    · intro h'
      rcases h' with ⟨hn, hmap⟩ | ⟨hn, hrp⟩
      · exact ⟨hn, .inl hmap⟩
      · exact ⟨by rw [hrp, hn], .inr hrp⟩
    · intro h'
      rcases h'.2 with hmap | hrp
      · exact .inl ⟨h'.1, hmap⟩
      · exact .inr ⟨by rw [← h'.1, hrp], hrp⟩
  · intro r _
    rw [hp]; exact Iff.rfl

theorem run (hp : s.pc c = .checked p) : ({ s with started := update s.started p true }.goto c (.ran p)).Inv := by
  have hat := h.at_ c
  rw [hp] at hat
  obtain ⟨hown, hid, hnot⟩ := hat.hand p List.mem_cons_self
  have hnew := hat.unrun p List.mem_cons_self
  have hne : ∀ r, r ≠ p → update s.started p true r = s.started r := fun r hr => update_of_ne hr _ _
  have hmono : ∀ r, s.started r = true → update s.started p true r = true := fun r hr =>
    update_keeps (· = true) hr fun _ => rfl
  have hlive : ∀ r, LiveAt (s.proxies c) (.ran p) r ↔ s.proxies c r.name = some r ∨ r = p := by
    intro r; rw [LiveAt, ControlPc.live, List.mem_singleton]
  have hold : ∀ r, r.owner = c → (LiveAt (s.proxies r.owner) (s.pc r.owner) r ↔ s.proxies c r.name = some r) := by
    intro r hr
    rw [hr, hp]; simp [LiveAt]
  refine h.move ⟨rfl, (update_eq_self c _).symm, Nat.le_refl _, ?_, fun _ _ => rfl,
    fun _ _ _ => Iff.rfl⟩ ⟨?_, hat.hand, hat.nodup, ?_, by simp [ControlPc.unrun],
      fun hq => by cases hq⟩ ?_ ?_ ?_ ?_ ?_ ?_
  · intro r hr; exact hne r fun hrp => hr (hrp ▸ hown)
  · intro n r hr
    obtain ⟨h1, h2, h3⟩ := hat.key n r hr
    exact ⟨h1, h2, hmono r h3⟩
  · intro r hr
    obtain rfl := List.mem_singleton.mp hr
    exact update_self _ _ _
  · intro n r hr
    have hfiled := h.filed n r
    rw [hr, hp] at hfiled; exact hfiled
  · intro r hr hlr
    rcases (hlive r).mp hlr with hmap | hrp
    · exact h.live r ((hold r hr).mpr hmap)
    · rw [hrp]; exact h.unstarted p hnew
  · intro r hr hst hlr
    have hrp : r ≠ p := fun hrp => hlr ((hlive r).mpr (.inr hrp))
    exact h.closed r (hne r hrp ▸ hst) fun hl' => hlr ((hlive r).mpr (.inl ((hold r hr).mp hl')))
  · intro r _ hst; exact h.unstarted r (of_update (· = false) hst nofun)
  · intro r _ hst
    rcases update_cases (· = true) hst with ⟨rfl, -⟩ | ⟨-, hst⟩
    · exact hid
    · exact h.fresh r hst
  · intro r hr; exact hmono r (h.registered r hr)

theorem insert (hp : s.pc c = .filed p) : ({ s.setProxies c (update (s.proxies c) p.name (some p)) with
        registered := update s.registered p true }.goto c .idle).Inv := by
  have hat := h.at_ c
  rw [hp] at hat
  obtain ⟨hown, -, hnot⟩ := hat.hand p List.mem_cons_self
  have hst := hat.live p List.mem_cons_self
  -- the name is of `p` in the manager, so no other proxy of the map has it
  have hfiled : s.pxys p.name = some p :=
    (h.filed _ p).mpr ⟨rfl, by rw [hown, hp]; exact .inr List.mem_cons_self⟩
  have hfree : s.proxies c p.name = none := by
    cases hm : s.proxies c p.name with
    | none => rfl
    | some r =>
      obtain ⟨hrn, hro, -⟩ := hat.key _ r hm
      have hr := (h.filed p.name r).mpr ⟨hrn, .inl (by rw [hro, hrn]; exact hm)⟩
      rw [hfiled] at hr; cases hr
      exact absurd hm hnot
  have hmap : ∀ n r, update (s.proxies c) p.name (some p) n = some r ↔
      s.proxies c n = some r ∨ n = p.name ∧ r = p := fun n r => update_some_iff hfree
  refine h.remap ⟨rfl, rfl, Nat.le_refl _, fun _ _ => rfl, fun _ _ => rfl, fun _ _ _ => Iff.rfl⟩
    ⟨?_, by simp, by simp, by simp, by simp [ControlPc.unrun],
      fun hq => by cases hq⟩ rfl rfl rfl ?_ ?_ ?_
  · intro n r hr
    rcases (hmap n r).mp hr with hr | ⟨hn, hrp⟩
    · exact hat.key n r hr
    · subst hrp; exact ⟨hn.symm, hown, hst⟩
  · intro r hr
    rcases update_cases (· = true) hr with ⟨rfl, -⟩ | ⟨-, hr⟩
    · exact hst
    · exact h.registered r hr
  · intro r _
    rw [FiledAt, FiledAt, hmap, hp]
    simp only [ControlPc.inManager, List.not_mem_nil, or_false, List.mem_singleton]
    exact or_congr_right ⟨fun h' => h'.2, fun h' => ⟨by rw [h'], h'⟩⟩
  · intro r _
    rw [LiveAt, LiveAt, hmap, hp]
    simp only [ControlPc.live, List.not_mem_nil, or_false, List.mem_singleton]
    exact or_congr_right ⟨fun h' => h'.2, fun h' => ⟨by rw [h'], h'⟩⟩

theorem drop {name : Str} {ports : Int} (hp : s.pc c = .idle) (hmap : s.proxies c name = some p) :
    (((s.count c ports).setProxies c (update (s.proxies c) name none)).goto c (.dropped p)).Inv := by
  have hat := h.at_ c
  rw [hp] at hat
  obtain ⟨hn, hown, hst⟩ := hat.key name p hmap
  subst hn
  have hrest : ∀ n r, update (s.proxies c) p.name none n = some r ↔ s.proxies c n = some r ∧ r ≠ p := fun n r =>
    update_none_iff Pxy.name (fun n r hr => (hat.key n r hr).1) hmap
  have hsplit : ∀ r, update (s.proxies c) p.name none r.name = some r ∨ r = p ↔
      s.proxies c r.name = some r := by
    intro r
    rw [hrest]
    constructor
    · intro h'
      rcases h' with h' | rfl
      · exact h'.1
      · exact hmap
    · intro h'
      by_cases hrp : r = p
      · exact .inr hrp
      · exact .inl ⟨h', hrp⟩
  refine h.remap ⟨rfl, rfl, Nat.le_refl _, fun _ _ => rfl, fun _ _ => rfl, fun _ _ _ => Iff.rfl⟩
    ⟨?_, ?_, by simp, ?_, by simp [ControlPc.unrun], fun hq => by cases hq⟩ rfl rfl rfl h.registered
    ?_ ?_
  · intro n r hr; exact hat.key n r ((hrest n r).mp hr).1
  · intro r hr
    obtain rfl := List.mem_singleton.mp hr
    exact ⟨hown, h.fresh r hst, fun hr' => ((hrest _ r).mp hr').2 rfl⟩
  · intro r hr
    obtain rfl := List.mem_singleton.mp hr
    exact hst
  · intro r _
    rw [FiledAt, FiledAt, hp, ControlPc.inManager, List.mem_singleton, hsplit]; simp
  · intro r _
    rw [LiveAt, LiveAt, hp, ControlPc.live, List.mem_singleton, hsplit]; simp

theorem takeProxies {rest : List Pxy} (hp : s.pc c = .done) (hnd : rest.Nodup)
    (hrest : ∀ p, p ∈ rest ↔ ∃ n, s.proxies c n = some p) :
    ((s.setProxies c fun _ => none).goto c (.draining rest)).Inv := by
  have hat := h.at_ c
  rw [hp] at hat
  have hmem : ∀ p, p ∈ rest ↔ s.proxies c p.name = some p := by
    intro p
    rw [hrest]
    constructor
    · intro ⟨n, hn⟩
      rw [(hat.key n p hn).1]; exact hn
    · intro hn; exact ⟨_, hn⟩
  have hkey : ∀ p ∈ rest, p.owner = c ∧ s.started p = true := fun p hpr => (hat.key _ p ((hmem p).mp hpr)).2
  refine h.remap ⟨rfl, rfl, Nat.le_refl _, fun _ _ => rfl, fun _ _ => rfl, fun _ _ _ => Iff.rfl⟩
    ⟨by simp, ?_, hnd, fun p hpr => (hkey p hpr).2, by simp [ControlPc.unrun], fun _ _ => rfl⟩ rfl rfl rfl h.registered
    ?_ ?_
  · intro p hpr; exact ⟨(hkey p hpr).1, h.fresh p (hkey p hpr).2, by simp⟩
  · intro p _
    rw [FiledAt, FiledAt, hp, ControlPc.inManager, hmem]; simp
  · intro p _
    rw [LiveAt, LiveAt, hp, ControlPc.live, hmem]; simp

end Inv

end ProxyWorld

end Frp
