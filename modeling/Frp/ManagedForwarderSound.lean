import Frp.ManagedForwarder
import Frp.Slots

/-!
# The managed forwarder closes what it dials

Each dialled connection is with the dispatcher, or has a reader that closes it;
`readerGroup` counts the readers, and `closeAll` closes every connection a reader may be
blocked on.
-/

namespace Frp

open Function

namespace ForwardDispatchPc

def fresh : ForwardDispatchPc → Option Nat
  | dialled _ _ c | late c => some c
  | _ => none

def dials : ForwardDispatchPc → Option UDPAddr
  | dialling raddr _ | dialled raddr _ _ => some raddr
  | _ => none

def entry : ForwardDispatchPc → Option (UDPAddr × Nat)
  | checking raddr _ c _ | writing raddr c | removing raddr c | closing raddr c => some (raddr, c)
  | _ => none

def first : ForwardDispatchPc → Option Nat
  | checking _ _ c false => some c
  | _ => none

def closes : ForwardDispatchPc → Option Nat
  | closing _ c => some c
  | _ => none

def leaves : ForwardDispatchPc → Bool
  | returning | closingAll | waiting | joining | returned => true
  | _ => false

def closedAll : ForwardDispatchPc → Bool
  | waiting | joining | returned => true
  | _ => false

def joined : ForwardDispatchPc → Bool
  | joining | returned => true
  | _ => false

end ForwardDispatchPc

open ForwardDispatchPc

variable {cfg : ForwarderConfig}

structure ConnOk (cfg : ForwarderConfig) (map : Str → Option Nat) (d : ForwardDispatchPc) (c : Nat) (m : ManagedConn) :
    Prop where
  raw : m.reader = .absent → m.closeOnce = false ∧ m.writes = [] ∧ m.closes = if d.fresh = some c then 0 else 1
  once : m.reader ≠ .absent → m.closes = m.closeOnce.toNat ∧ d.fresh ≠ some c
  past : m.reader.past = true → m.closeOnce = true
  serving : m.reader.serving = true → map (cfg.string m.raddr) = some c ∨ m.closeOnce = true ∨ d.closes = some c
  writes : ∀ i w, m.writes[i]? = some w →
    cfg.string w.raddr = cfg.string m.raddr ∧ w.buf = cfg.finalBuf (i != 0) w.raddr w.content
  first : m.reader ≠ .absent → m.writes = [] → d.first = some c ∨ d.leaves = true

structure ForwardDispatchPc.Leads (d d' : ForwardDispatchPc) (k : Nat) : Prop where
  fresh : d'.fresh = some k ↔ d.fresh = some k
  closes : d.closes = some k → d'.closes = some k
  first : d.first = some k → d'.first = some k ∨ d'.leaves = true
  leaves : d.leaves = true → d'.leaves = true

attribute [local simp] ForwardDispatchPc.fresh closes leaves first

open ForwardReaderPc

section
variable {s t : ManagedForwarder} {d d' : ForwardDispatchPc} {map map' : Str → Option Nat} {c k : Nat}
  {m m' : ManagedConn}

theorem ForwardDispatchPc.Leads.refl : Leads d d k := ⟨Iff.rfl, id, .inl, id⟩

theorem ConnOk.move (h : ConnOk cfg map d k m) (hl : Leads d d' k)
    (hmap : map (cfg.string m.raddr) = some k → map' (cfg.string m.raddr) = some k) : ConnOk cfg map' d' k m where
  raw hr := by simp only [hl.fresh]; exact h.raw hr
  once hr := ⟨(h.once hr).1, fun hf => (h.once hr).2 (hl.fresh.mp hf)⟩
  past := h.past
  serving hr := (h.serving hr).imp hmap (Or.imp_right hl.closes)
  writes := h.writes
  first hr hw := (h.first hr hw).elim hl.first fun ho => .inr (hl.leaves ho)

theorem DispatchMove.leads (h : DispatchMove cfg s d d') (k : Nat) : Leads d d' k := by
  cases h <;> constructor <;> simp

theorem ForwarderConfig.finalBuf_eq (cfg : ForwarderConfig) (ok : Bool) (a : UDPAddr) (b : Str) :
    cfg.finalBuf ok a b =
      (if ok = false ∧ cfg.proxyProtocolVersion ≠ [] then
        (cfg.buildProxyProtocolHeader a cfg.dstAddr cfg.proxyProtocolVersion).getD [] else []) ++ b := by
  simp only [ForwarderConfig.finalBuf]
  split
  · cases cfg.buildProxyProtocolHeader a cfg.dstAddr cfg.proxyProtocolVersion <;> rfl
  · rfl

variable {r : ForwardReaderPc}

theorem ConnOk.reader (h : ConnOk cfg map d c m) (hm : m.reader ≠ .absent) (hr : r ≠ .absent)
    (hpast : r.past = true → m.closeOnce = true)
    (hserving : r.serving = true → map' (cfg.string m.raddr) = some c ∨ m.closeOnce = true ∨ d.closes = some c) :
    ConnOk cfg map' d c { m with reader := r } where
  raw ha := absurd ha hr
  once _ := h.once hm
  past := hpast
  serving := hserving
  writes := h.writes
  first _ := h.first hm

theorem ConnOk.close (h : ConnOk cfg map d c m) (hm : m.reader ≠ .absent) (hr : r ≠ .absent)
    (hl : d' = d ∨ ∃ a, d = .closing a c ∧ d' = .selecting) : ConnOk cfg map' d' c { m.close with reader := r } where
  raw ha := absurd ha hr
  once _ := by
    have hclose : m.close.closes = 1 := by
      simp only [ManagedConn.close, (h.once hm).1]
      cases m.closeOnce <;> rfl
    refine ⟨hclose, ?_⟩
    rcases hl with rfl | ⟨a, -, rfl⟩
    · exact (h.once hm).2
    · nofun
  past _ := rfl
  serving _ := .inr (.inl rfl)
  writes := h.writes
  first _ hw := by
    have hfirst := h.first hm hw
    rcases hl with rfl | ⟨a, rfl, rfl⟩
    · exact hfirst
    · rcases hfirst with hf | hf <;> cases hf

theorem ConnOk.closeLate (h : ConnOk cfg map (.late c) c m) (hm : m.reader = .absent) :
    ConnOk cfg map .returning c { m with closes := m.closes + 1 } := by
  obtain ⟨honce, hw, hz⟩ := h.raw hm
  refine ⟨fun _ => ⟨honce, hw, ?_⟩, fun hr => absurd hm hr, h.past, fun hs => ?_, h.writes, fun hr => absurd hm hr⟩
  · rw [hz]; simp
  · rw [hm] at hs; cases hs

theorem ConnOk.write {a : UDPAddr} {b : Str} {ok : Bool} (h : ConnOk cfg map (.checking a b c ok) c m)
    (hm : m.reader ≠ .absent) (ha : cfg.string m.raddr = cfg.string a) (hok : ok = !m.writes.isEmpty) :
    ConnOk cfg map (.writing a c) c { m with writes := m.writes ++ [⟨a, b, cfg.finalBuf ok a b⟩] } where
  raw hr := absurd hr hm
  once _ := ⟨(h.once hm).1, nofun⟩
  past := h.past
  serving hs := (h.serving hs).imp_right (Or.imp_right nofun)
  writes i w hw := by
    rcases getElem?_append_singleton_iff.mp hw with ⟨-, hw⟩ | ⟨rfl, rfl⟩
    · exact h.writes i w hw
    · have hlen : (m.writes.length != 0) = ok := by
        rw [hok]
        cases m.writes <;> rfl
      exact ⟨ha.symm, by rw [hlen]⟩
  first _ hw := by
    have hlen := congrArg List.length hw
    simp at hlen

theorem ForwardReaderPc.listed_ne_absent (h : r.listed = true) : r ≠ .absent := by
  intro hr
  rw [hr] at h; cases h

theorem ForwardReaderPc.serving_listed (h : r.serving = true) : r.listed = true := by
  cases r <;> first | rfl | cases h

theorem ForwardReaderPc.listed_live (h : r.listed = true) : r.live = true ∧ r.past = false := by
  cases r <;> first | exact ⟨rfl, rfl⟩ | cases h

theorem ReaderMove.serving {r r' : ForwardReaderPc} (h : ReaderMove cfg s m r r') :
    r.serving = true ∧ r'.listed = true := by
  cases h <;> exact ⟨rfl, rfl⟩

namespace ManagedForwarder

structure Inv (cfg : ForwarderConfig) (s : ManagedForwarder) : Prop where
  conn : ∀ c m, s.conns[c]? = some m → ConnOk cfg s.udpConnMap s.dispatcher c m
  mapped : ∀ k c, s.udpConnMap k = some c → ∃ m, s.conns[c]? = some m ∧ cfg.string m.raddr = k ∧ m.reader.listed = true
  group : s.readerGroup = s.conns.countP (·.reader.live)
  fresh : ∀ c, s.dispatcher.fresh = some c → ∃ m, s.conns[c]? = some m ∧ m.reader = .absent ∧
    ∀ a, s.dispatcher.dials = some a → m.raddr = a
  dials : ∀ a, s.dispatcher.dials = some a → s.udpConnMap (cfg.string a) = none
  entry : ∀ a c, s.dispatcher.entry = some (a, c) →
    ∃ m, s.conns[c]? = some m ∧ m.reader ≠ .absent ∧ cfg.string m.raddr = cfg.string a
  checking : ∀ a b c ok m, s.dispatcher = .checking a b c ok → s.conns[c]? = some m → ok = !m.writes.isEmpty
  stopped : s.closeAll ≠ .going → s.stopped = true
  todo : ∀ t l c, s.closeAll = .running t l → c ∈ l → ∃ m, s.conns[c]? = some m ∧ m.reader ≠ .absent
  listed : ∀ k c m, s.udpConnMap k = some c → s.conns[c]? = some m →
    s.closeAll = .going ∨ m.closeOnce = true ∨ ∃ t l, s.closeAll = .running t l ∧ c ∈ l
  closedAll : s.dispatcher.closedAll = true → s.closeAll = .stopped
  joined : s.dispatcher.joined = true → s.readerGroup = 0

theorem Inv.mapped_at {key : Str} (hi : s.Inv cfg) (hk : s.udpConnMap key = some c) (hc : s.conns[c]? = some m) :
    cfg.string m.raddr = key ∧ m.reader.listed = true := by
  obtain ⟨x, hx, h⟩ := hi.mapped key c hk
  cases hc.symm.trans hx
  exact h

theorem Inv.entry_at {a : UDPAddr} (hi : s.Inv cfg) (he : s.dispatcher.entry = some (a, c))
    (hc : s.conns[c]? = some m) : m.reader ≠ .absent ∧ cfg.string m.raddr = cfg.string a := by
  obtain ⟨x, hx, h⟩ := hi.entry a c he
  cases hc.symm.trans hx
  exact h

/-! ## Steps of the dispatcher alone -/

theorem Inv.move (hi : s.Inv cfg) (h : DispatchMove cfg s s.dispatcher d) : Inv cfg { s with dispatcher := d } := by
  generalize hd : s.dispatcher = d₀ at h
  have hl := DispatchMove.leads h
  refine ⟨fun c m hc => (hi.conn c m hc).move (hd ▸ hl c) id, hi.mapped, hi.group, fun c hf => ?_, fun a ha => ?_,
    fun a c he => ?_, fun a b c ok m hch hc => ?_, hi.stopped, hi.todo, hi.listed, fun hcl => ?_, fun hj => ?_⟩
  · obtain ⟨m, hc, hr, hm⟩ := hi.fresh c (hd ▸ (hl c).fresh.mp hf)
    refine ⟨m, hc, hr, fun a ha => hm a ?_⟩
    cases h with
    | late => cases ha
    | _ => cases hf
  · cases h with
    | absent _ hnone => cases ha; exact hnone
    | _ => cases ha
  · cases h with
    | found _ hmap =>
      cases he
      obtain ⟨m, hc, hk, hr⟩ := hi.mapped _ _ hmap
      exact ⟨m, hc, listed_ne_absent hr, hk⟩
    | writeFails => exact hi.entry a c (hd ▸ he)
    | _ => cases he
  · -- an entry of the map has been written to, by the packet it was dialled for
    cases h with
    | found _ hmap =>
      cases hch
      cases hw : m.writes with
      | nil =>
        have hfirst := (hi.conn c m hc).first (listed_ne_absent (hi.mapped_at hmap hc).2) hw
        rw [hd] at hfirst
        rcases hfirst with hfirst | hfirst <;> cases hfirst
      | cons => rfl
    | _ => cases hch
  · cases h with
    | closedAll hst => exact hst
    | wait | join => exact hi.closedAll (hd ▸ rfl)
    | _ => cases hcl
  · cases h with
    | wait hg => exact hg
    | join => exact hi.joined (hd ▸ rfl)
    | _ => cases hj

/-! ## Steps that change a connection -/

structure Keeps (m m' : ManagedConn) : Prop where
  raddr : m'.raddr = m.raddr
  absent : m'.reader = .absent ↔ m.reader = .absent
  once : m.closeOnce = true → m'.closeOnce = true
  live : m'.reader.live = true → m.reader.live = true

theorem Keeps.entry (hraddr : m'.raddr = m.raddr) (hm : m.reader.live = true) (hm' : m'.reader ≠ .absent)
    (honce : m.closeOnce = true → m'.closeOnce = true) : Keeps m m' where
  raddr := hraddr
  absent := by
    refine ⟨fun h => absurd h hm', fun h => ?_⟩
    rw [h] at hm; cases hm
  once := honce
  live _ := hm

structure Unmaps (c : Nat) (m' : ManagedConn) (map map' : Str → Option Nat) : Prop where
  sub : ∀ k x, map' k = some x → map k = some x
  listed : ∀ k, map' k = some c → m'.reader.listed = true
  keep : ∀ k x, x ≠ c → map k = some x → map' k = some x

inductive Handles (c : Nat) : ForwardDispatchPc → ForwardDispatchPc → Prop
  | stay {p : ForwardDispatchPc} : Handles c p p
  | late : Handles c (.late c) .returning
  | write {a b ok} : Handles c (.checking a b c ok) (.writing a c)
  | remove {a} : Handles c (.removing a c) (.closing a c)
  | close {a} : Handles c (.closing a c) .selecting

namespace Handles

theorem leads (h : Handles c d d') (hk : k ≠ c) : Leads d d' k := by
  have hck : c ≠ k := Ne.symm hk
  cases h with
  | stay => exact .refl
  | @write a b ok => cases ok <;> constructor <;> simp [hck]
  | _ => constructor <;> simp [hck]

theorem stays (h : Handles c d d')
    (hd : d'.fresh.isSome = true ∨ d'.dials.isSome = true ∨ d'.closedAll = true ∨ d'.joined = true) : d' = d := by
  cases h with
  | stay => rfl
  | _ => simp [ForwardDispatchPc.dials, ForwardDispatchPc.closedAll, ForwardDispatchPc.joined] at hd

theorem entry {e : UDPAddr × Nat} (h : Handles c d d') (he : d'.entry = some e) : d.entry = some e := by
  cases h with
  | close => cases he
  | _ => exact he

end Handles

theorem Inv.change {n : Nat} {out : List UDPPacket} (hi : s.Inv cfg) (hc : s.conns[c]? = some m) (hm : Keeps m m')
    (hh : Handles c s.dispatcher d) (hmap : Unmaps c m' s.udpConnMap map) (hok : ConnOk cfg map d c m')
    (hw : ∀ a b k ok, d = .checking a b k ok → m'.writes = m.writes)
    (hn : n + m.reader.live.toNat = s.readerGroup + m'.reader.live.toNat) :
    Inv cfg
      { s with
        conns := s.conns.set c m', udpConnMap := map, readerGroup := n, dispatcher := d, sendCh := out } := by
  have hget : ∀ {k : Nat} {x}, (s.conns.set c m')[k]? = some x ↔ k = c ∧ x = m' ∨ k ≠ c ∧ s.conns[k]? = some x :=
    getElem?_set_iff hc
  -- a connection of the old list, in the new one
  have hold : ∀ {k : Nat} {x}, s.conns[k]? = some x → ∃ y, (s.conns.set c m')[k]? = some y ∧ Keeps x y := by
    intro k x hx
    by_cases hk : k = c
    · subst hk
      cases hc.symm.trans hx
      exact ⟨m', hget.mpr (.inl ⟨rfl, rfl⟩), hm⟩
    · exact ⟨x, hget.mpr (.inr ⟨hk, hx⟩), rfl, Iff.rfl, id, id⟩
  refine ⟨fun k x hx => ?_, fun k x hx => ?_, ?_, fun k hf => ?_, fun a ha => ?_, fun a k he => ?_,
    fun a b k ok x hch hx => ?_, hi.stopped, fun u l k hl hk => ?_, fun k x y hx hy => ?_, fun hcl => ?_, fun hj => ?_⟩
  · rcases hget.mp hx with ⟨rfl, rfl⟩ | ⟨hk, hx⟩
    · exact hok
    · exact (hi.conn k x hx).move (hh.leads hk) (hmap.keep _ k hk)
  · have hin := hmap.sub k x hx
    by_cases hxc : x = c
    · subst hxc
      exact ⟨m', hget.mpr (.inl ⟨rfl, rfl⟩), hm.raddr ▸ (hi.mapped_at hin hc).1, hmap.listed k hx⟩
    · obtain ⟨y, hy, h⟩ := hi.mapped k x hin
      exact ⟨y, hget.mpr (.inr ⟨hxc, hy⟩), h⟩
  · have hcount := countP_set_add (·.reader.live) (b := m') hc
    have hg := hi.group
    show n = (s.conns.set c m').countP (·.reader.live)
    omega
  · have hd := hh.stays (.inl (hf ▸ rfl))
    obtain ⟨x, hx, hr, ha⟩ := hi.fresh k (hd ▸ hf)
    obtain ⟨y, hy, hxy⟩ := hold hx
    refine ⟨y, hy, hxy.absent.mpr hr, fun a hda => ?_⟩
    rw [hxy.raddr]; exact ha a (hd ▸ hda)
  · have hnone := hi.dials a (hh.stays (.inr (.inl (ha ▸ rfl))) ▸ ha)
    show map (cfg.string a) = none
    cases hk : map (cfg.string a) with
    | none => rfl
    | some x => rw [hmap.sub _ x hk] at hnone; cases hnone
  · obtain ⟨x, hx, hr, ha⟩ := hi.entry a k (hh.entry he)
    obtain ⟨y, hy, hxy⟩ := hold hx
    exact ⟨y, hy, fun h => hr (hxy.absent.mp h), hxy.raddr ▸ ha⟩
  · have hd : s.dispatcher = .checking a b k ok := by
      subst hch
      generalize s.dispatcher = d₀ at hh
      cases hh; rfl
    rcases hget.mp hx with ⟨rfl, rfl⟩ | ⟨_, hx⟩
    · rw [hw a b k ok hch]; exact hi.checking a b k ok m hd hc
    · exact hi.checking a b k ok x hd hx
  · obtain ⟨x, hx, hr⟩ := hi.todo u l k hl hk
    obtain ⟨y, hy, hxy⟩ := hold hx
    exact ⟨y, hy, fun h => hr (hxy.absent.mp h)⟩
  · rcases hget.mp hy with ⟨rfl, rfl⟩ | ⟨_, hy⟩
    · exact (hi.listed k x m (hmap.sub k x hx) hc).imp_right (Or.imp_left hm.once)
    · exact hi.listed k x y (hmap.sub k x hx) hy
  · exact hi.closedAll (hh.stays (.inr (.inr (.inl hcl))) ▸ hcl)
  · have hz := hi.joined (hh.stays (.inr (.inr (.inr hj))) ▸ hj)
    have hle : m'.reader.live.toNat ≤ m.reader.live.toNat := by
      cases hl' : m'.reader.live with
      | false => exact Nat.zero_le _
      | true => rw [hm.live hl']
    show n = 0
    omega

theorem Inv.unmaps_same (hi : s.Inv cfg) (hc : s.conns[c]? = some m)
    (h : m.reader.listed = true → m'.reader.listed = true) : Unmaps c m' s.udpConnMap s.udpConnMap where
  sub _ _ := id
  listed _ hk := h (hi.mapped_at hk hc).2
  keep _ _ _ := id

theorem removeManagedConn_keep {key k' : Str} (s : ManagedForwarder) {x : Nat} (hx : s.udpConnMap k' = some x)
    (hne : x ≠ c) : (s.removeManagedConn key c).udpConnMap k' = some x := by
  simp only [removeManagedConn]
  split
  next hk =>
    refine update_keeps (· = some x) hx fun h => ?_
    exact absurd (Option.some.inj (h.symm.trans hk)) hne
  next => exact hx

theorem removeManagedConn_sub {key k' : Str} {s : ManagedForwarder} {x : Nat}
    (hx : (s.removeManagedConn key c).udpConnMap k' = some x) : s.udpConnMap k' = some x ∧ (k' = key → x ≠ c) := by
  simp only [removeManagedConn] at hx
  split at hx
  next =>
    rcases update_cases (· = some x) hx with ⟨-, hx⟩ | ⟨hne, hx⟩
    · cases hx
    · exact ⟨hx, fun h => absurd h hne⟩
  next hk =>
    refine ⟨hx, fun h hxc => hk ?_⟩
    rw [← h, ← hxc]; exact hx

namespace Inv

variable (hi : s.Inv cfg)
include hi

theorem unmaps_removed {key : Str} (hc : s.conns[c]? = some m) (hkey : cfg.string m.raddr = key) :
    Unmaps c m' s.udpConnMap (s.removeManagedConn key c).udpConnMap where
  sub _ _ hx := (removeManagedConn_sub hx).1
  listed k hk := by
    obtain ⟨hin, hne⟩ := removeManagedConn_sub hk
    exact absurd rfl (hne ((hi.mapped_at hin hc).1.symm.trans hkey))
  keep _ _ hne hx := removeManagedConn_keep s hx hne

/-! ## A new connection -/

theorem dial {a : UDPAddr} {b : Str} (hd : s.dispatcher = .dialling a b) :
    Inv cfg { s with conns := s.conns ++ [{ raddr := a }], dispatcher := .dialled a b s.conns.length } := by
  refine ⟨fun k x hx => ?_, fun k x hx => ?_, ?_, fun k hf => ?_, fun a' ha => ?_, nofun, nofun, hi.stopped,
    fun t l k hl hk => ?_, fun k x y hx hy => ?_, nofun, nofun⟩
  · rcases getElem?_append_singleton_iff.mp hx with ⟨hk, hx⟩ | ⟨rfl, rfl⟩
    · refine (hi.conn k x hx).move ?_ id
      rw [hd]
      constructor <;> simp [Nat.ne_of_gt hk]
    · constructor <;> simp [past, serving]
  · obtain ⟨y, hy, hr⟩ := hi.mapped k x hx
    exact ⟨y, getElem?_append_old hy, hr⟩
  · rw [List.countP_append, hi.group]; rfl
  · cases hf
    exact ⟨_, getElem?_append_singleton_iff.mpr (.inr ⟨rfl, rfl⟩), rfl, fun _ ha => Option.some.inj ha⟩
  · cases ha; exact hi.dials a (hd ▸ rfl)
  · obtain ⟨x, hx, hr⟩ := hi.todo t l k hl hk
    exact ⟨x, getElem?_append_old hx, hr⟩
  · obtain ⟨z, hz, -⟩ := hi.mapped k x hx
    cases (getElem?_append_old hz).symm.trans hy
    exact hi.listed k x y hx hz

theorem install {a : UDPAddr} {b : Str} (hd : s.dispatcher = .dialled a b c) (hs : ¬ s.halts)
    (hc : s.conns[c]? = some m) : Inv cfg { s.setConn c { m with reader := .reading } with
        udpConnMap := update s.udpConnMap (cfg.string a) (some c)
        readerGroup := s.readerGroup + 1
        dispatcher := .checking a b c false } := by
  have hget : ∀ {k : Nat} {x}, (s.conns.set c { m with reader := .reading })[k]? = some x ↔
      k = c ∧ x = { m with reader := .reading } ∨ k ≠ c ∧ s.conns[k]? = some x := getElem?_set_iff hc
  have hself := hget.mpr (.inl ⟨rfl, rfl⟩)
  have hgoing : s.closeAll = .going := Classical.byContradiction fun h => hs (.inl (hi.stopped h))
  have hnone : s.udpConnMap (cfg.string a) = none := hi.dials a (hd ▸ rfl)
  obtain ⟨hr, hraddr⟩ : m.reader = .absent ∧ m.raddr = a := by
    obtain ⟨x, hx, hr, ha⟩ := hi.fresh c (hd ▸ rfl)
    cases hc.symm.trans hx
    exact ⟨hr, ha a (hd ▸ rfl)⟩
  obtain ⟨honce, hw, hz⟩ := (hi.conn c m hc).raw hr
  -- the other entries are of other connections
  have hother : ∀ {k x}, s.udpConnMap k = some x → x ≠ c := by
    intro k x hx h
    subst h; exact listed_ne_absent (hi.mapped_at hx hc).2 hr
  refine ⟨fun k x hx => ?_, fun k x hx => ?_, ?_, nofun, nofun, fun a' k he => ?_, fun a' b' k ok x hch hx => ?_,
    fun h => absurd hgoing h, fun t l k hl => ?_, fun _ _ _ _ _ => .inl hgoing, nofun, nofun⟩
  · rcases hget.mp hx with ⟨rfl, rfl⟩ | ⟨hk, hx⟩
    · refine ⟨nofun, fun _ => ⟨?_, nofun⟩, nofun, fun _ => .inl ?_, fun i w hi => ?_, fun _ _ => .inl rfl⟩
      · rw [hz, honce, hd]; exact if_pos rfl
      · show update _ _ _ (cfg.string m.raddr) = _
        rw [hraddr, update_self]
      · rw [hw] at hi; cases hi
    · refine (hi.conn k x hx).move ?_ fun hmap => ?_
      · rw [hd]
        constructor <;> simp [Ne.symm hk]
      · refine update_keeps (· = some k) hmap fun h => ?_
        rw [hnone] at h; cases h
  · rcases update_cases (· = some x) hx with ⟨hk, hxc⟩ | ⟨-, hx⟩
    · cases hxc; exact ⟨_, hself, (congrArg cfg.string hraddr).trans hk.symm, rfl⟩
    · obtain ⟨y, hy, hl⟩ := hi.mapped k x hx
      exact ⟨y, hget.mpr (.inr ⟨hother hx, hy⟩), hl⟩
  · have hcount := countP_set_add (·.reader.live) (b := { m with reader := .reading }) hc
    have hg := hi.group
    rw [hr] at hcount
    change _ + 0 = _ + 1 at hcount
    show s.readerGroup + 1 = (s.conns.set c { m with reader := .reading }).countP (·.reader.live)
    omega
  · cases he; exact ⟨_, hself, nofun, congrArg cfg.string hraddr⟩
  · cases hch
    cases hself.symm.trans hx
    rw [hw]; rfl
  · rw [show s.closeAll = .running t l from hl] at hgoing; cases hgoing

/-! ## closeAll -/

variable {u : ForwardCloser} {entries : List Nat}

theorem closeBegin (hg : s.closeAll = .going) (he : ∀ c, c ∈ entries ↔ ∃ k, s.udpConnMap k = some c) :
    Inv cfg { s with stopped := true, closeAll := .running u entries } := by
  refine { hi with
    stopped := fun _ => rfl, todo := fun v l c hl hc => ?_
    listed := fun k c m hk _ => .inr (.inr ⟨u, entries, rfl, (he c).mpr ⟨k, hk⟩⟩), closedAll := fun hcl => ?_ }
  · cases hl
    obtain ⟨k, hk⟩ := (he c).mp hc
    obtain ⟨m, hm, -, hr⟩ := hi.mapped k c hk
    exact ⟨m, hm, listed_ne_absent hr⟩
  · cases hg.symm.trans (hi.closedAll hcl)

theorem listed_closing {key : Str}
    (hcl : s.closeAll = .running u entries) (hk : s.udpConnMap key = some c) (hc : s.conns[c]? = some m) :
    m.closeOnce = true ∨ c ∈ entries := by
  rcases hi.listed key c m hk hc with hg | ho | ⟨v, l, hl, hx⟩
  · cases hcl.symm.trans hg
  · exact .inl ho
  · cases hcl.symm.trans hl
    exact .inr hx

theorem closeNext
    (hcl : s.closeAll = .running u (c :: entries)) (hc : s.conns[c]? = some m) (honce : m.closeOnce = true) :
    Inv cfg { s with closeAll := .running u entries } := by
  refine { hi with
    stopped := fun _ => hi.stopped (by rw [hcl]; nofun), todo := fun v l x hl hx => ?_
    listed := fun k x y hk hy => ?_, closedAll := fun h => ?_ }
  · cases hl; exact hi.todo u _ x hcl (List.mem_cons_of_mem _ hx)
  · rcases hi.listed_closing hcl hk hy with ho | hx
    · exact .inr (.inl ho)
    · rcases List.mem_cons.mp hx with rfl | hx
      · cases hc.symm.trans hy
        exact .inr (.inl honce)
      · exact .inr (.inr ⟨u, entries, rfl, hx⟩)
  · cases hcl.symm.trans (hi.closedAll h)

theorem closeEnd (hcl : s.closeAll = .running u []) : Inv cfg { s with closeAll := .stopped } := by
  refine { hi with
    stopped := fun _ => hi.stopped (by rw [hcl]; nofun), todo := nofun
    listed := fun k x y hk hy => ?_, closedAll := fun _ => rfl }
  exact .inr (.inl ((hi.listed_closing hcl hk hy).resolve_right List.not_mem_nil))

/-! ## Every step -/

theorem goes {q : List (Option UDPPacket)} {b : Bool} (hl : ∀ k, Leads s.dispatcher d k)
    (hf : d.fresh = none) (hd : d.dials = none) (he : d.entry = none) (hcl : d.closedAll = false)
    (hj : d.joined = false) : Inv cfg { s with readCh := q, cancelled := b, dispatcher := d } := by
  refine ⟨fun c m hc => (hi.conn c m hc).move (hl c) id, hi.mapped, hi.group, fun c h => ?_, fun a h => ?_,
    fun a c h => ?_, fun a b c ok m h _ => ?_, hi.stopped, hi.todo, hi.listed, fun h => ?_, fun h => ?_⟩
  · cases hf.symm.trans h
  · cases hd.symm.trans h
  · cases he.symm.trans h
  · rw [show d = _ from h] at he; cases he
  · cases hcl.symm.trans h
  · cases hj.symm.trans h

theorem reads {r : ForwardReaderPc} {out : List UDPPacket} (hc : s.conns[c]? = some m)
    (hs : m.reader.serving = true) (hr : r.listed = true) :
    Inv cfg { s.setConn c { m with reader := r } with sendCh := out } := by
  have hl := serving_listed hs
  have hm := listed_ne_absent hl
  have hr' := listed_ne_absent hr
  have hlive := listed_live hl
  refine hi.change hc (.entry rfl hlive.1 hr' id) .stay (hi.unmaps_same hc fun _ => hr)
    ((hi.conn c m hc).reader hm hr' (fun h => ?_) fun _ => (hi.conn c m hc).serving hs) (fun _ _ _ _ _ => rfl) ?_
  · cases (listed_live hr).2.symm.trans h
  · rw [hlive.1, (listed_live hr).1]; rfl

theorem step {e : ForwardEvent} (hst : ManagedStep cfg s e t) : t.Inv cfg := by
  cases hst with
  | enqueue | closeReadCh | cancelParent | skip | watch | watched => exact { hi with }
  | move h => exact hi.move h
  | take hd | cancel hd =>
    refine hi.goes (fun k => ?_) rfl rfl rfl rfl rfl
    rw [hd]
    constructor <;> simp
  | dial hd => exact hi.dial hd
  | install hd hs hc => exact hi.install hd hs hc
  | @closeLate c m hd hc =>
    obtain ⟨x, hx, hr, -⟩ := hi.fresh c (hd ▸ rfl)
    cases hc.symm.trans hx
    exact hi.change hc ⟨rfl, Iff.rfl, id, id⟩ (hd ▸ .late) (hi.unmaps_same hc id) ((hd ▸ hi.conn c m hc).closeLate hr)
      nofun rfl
  | @write a b c ok m hd _ hc =>
    obtain ⟨hr, ha⟩ := hi.entry_at (by rw [hd]; rfl) hc
    exact hi.change hc ⟨rfl, Iff.rfl, id, id⟩ (hd ▸ .write) (hi.unmaps_same hc id)
      ((hd ▸ hi.conn c m hc).write hr ha (hi.checking a b c ok m hd hc)) nofun rfl
  | @remove a c hd =>
    obtain ⟨m, hc, hr, ha⟩ := hi.entry a c (hd ▸ rfl)
    have hself : s.conns.set c m = s.conns := by
      obtain ⟨hlt, rfl⟩ := List.getElem?_eq_some_iff.mp hc
      exact List.set_getElem_self hlt
    have hok := hi.conn c m hc
    rw [hd] at hok
    have hnew : Inv cfg
        { s.removeManagedConn (cfg.string a) c with conns := s.conns.set c m, dispatcher := .closing a c } :=
      hi.change hc ⟨rfl, Iff.rfl, id, id⟩ (hd ▸ .remove) (hi.unmaps_removed hc ha)
        { hok with serving := fun _ => .inr (.inr rfl) } nofun rfl
    rw [hself] at hnew; exact hnew
  | @close a c m hd hc =>
    have hr := (hi.entry_at (by rw [hd]; rfl) hc).1
    exact hi.change hc ⟨rfl, Iff.rfl, fun _ => rfl, id⟩ (hd ▸ .close) (hi.unmaps_same hc id)
      ((hi.conn c m hc).close hr hr (.inr ⟨a, hd, rfl⟩)) nofun rfl
  | closeBegin u entries _ hg he => exact hi.closeBegin hg he
  | @closeNext u c entries m hcl hc =>
    obtain ⟨x, hx, hr⟩ := hi.todo u _ c hcl List.mem_cons_self
    cases hc.symm.trans hx
    have hset : (s.setConn c m.close).Inv cfg := hi.change hc ⟨rfl, Iff.rfl, fun _ => rfl, id⟩ .stay
      (hi.unmaps_same hc id) ((hi.conn c m hc).close hr hr (.inl rfl)) (fun _ _ _ _ _ => rfl) rfl
    exact hset.closeNext hcl ((getElem?_set_iff hc).mpr (.inl ⟨rfl, rfl⟩)) rfl
  | closeEnd hcl => exact hi.closeEnd hcl
  | reader hc h => exact hi.reads hc h.serving.1 h.serving.2
  | send hc hr => exact hi.reads hc (hr ▸ rfl) rfl
  | @readerRemove c m hc hr =>
    have hm : m.reader ≠ .absent := by rw [hr]; nofun
    refine hi.change hc (.entry rfl (hr ▸ rfl) nofun id) .stay (hi.unmaps_removed hc rfl)
      ((hi.conn c m hc).reader hm nofun nofun nofun) (fun _ _ _ _ _ => rfl) ?_
    rw [hr]; rfl
  | @readerClose c m hc hr =>
    have hm : m.reader ≠ .absent := by rw [hr]; nofun
    refine hi.change hc (.entry rfl (hr ▸ rfl) nofun fun _ => rfl) .stay
      (hi.unmaps_same hc fun h => ?_) ((hi.conn c m hc).close hm nofun (.inl rfl)) (fun _ _ _ _ _ => rfl) ?_
    · rw [hr] at h; cases h
    · rw [hr]; rfl
  | @readerExit c m hc hr =>
    have hm : m.reader ≠ .absent := by rw [hr]; nofun
    have hpos : 0 < s.conns.countP (·.reader.live) := by
      refine List.countP_pos_iff.mpr ⟨m, List.mem_of_getElem? hc, ?_⟩
      rw [hr]; rfl
    have hg := hi.group
    refine hi.change hc (.entry rfl (hr ▸ rfl) nofun id) .stay (hi.unmaps_same hc fun h => ?_)
      ((hi.conn c m hc).reader hm nofun (fun _ => (hi.conn c m hc).past (hr ▸ rfl)) nofun)
      (fun _ _ _ _ _ => rfl) ?_
    · rw [hr] at h; cases h
    · rw [hr]
      show s.readerGroup - 1 + 1 = s.readerGroup + 0
      omega

end Inv

theorem Reachable.inv (h : s.Reachable cfg) : s.Inv cfg := by
  refine Reach.invariant (fun s h0 => ?_) (fun s e t _ hi hst => hi.step hst) h
  subst h0
  exact ⟨nofun, nofun, rfl, nofun, nofun, nofun, nofun, fun h => absurd rfl h, nofun, nofun, nofun, nofun⟩

/-! ## What callers rely on -/

theorem Inv.closes_le (hi : s.Inv cfg) (hm : m ∈ s.conns) : m.closes ≤ 1 := by
  obtain ⟨c, hc⟩ := List.mem_iff_getElem?.mp hm
  by_cases hr : m.reader = .absent
  · rw [((hi.conn c m hc).raw hr).2.2]
    split <;> decide
  · rw [((hi.conn c m hc).once hr).1]; exact Bool.toNat_le _

theorem Inv.closed (hi : s.Inv cfg) (hd : s.dispatcher = .returned) (hm : m ∈ s.conns) :
    m.closes = 1 ∧ m.reader.live = false := by
  obtain ⟨c, hc⟩ := List.mem_iff_getElem?.mp hm
  have hzero : s.conns.countP (·.reader.live) = 0 := hi.group ▸ hi.joined (hd ▸ rfl)
  have hlive : m.reader.live = false := by
    have := List.countP_eq_zero.mp hzero m hm
    simpa using this
  refine ⟨?_, hlive⟩
  cases hr : m.reader with
  | absent => rw [((hi.conn c m hc).raw hr).2.2, hd]; rfl
  | exited =>
    rw [((hi.conn c m hc).once (by rw [hr]; nofun)).1, (hi.conn c m hc).past (hr ▸ rfl)]
    rfl
  | _ => rw [hr] at hlive; cases hlive

theorem Inv.unblocked (hi : s.Inv cfg) (hd : s.dispatcher = .waiting) (hm : m ∈ s.conns)
    (hr : m.reader.serving = true) : m.closes = 1 := by
  obtain ⟨c, hc⟩ := List.mem_iff_getElem?.mp hm
  have hstopped : s.closeAll = .stopped := hi.closedAll (hd ▸ rfl)
  have hok := hi.conn c m hc
  have honce : m.closeOnce = true := by
    rcases hok.serving hr with hmap | ho | hcl
    · rcases hi.listed _ c m hmap hc with hg | ho | ⟨u, l, hl, -⟩
      · cases hstopped.symm.trans hg
      · exact ho
      · cases hstopped.symm.trans hl
    · exact ho
    · rw [hd] at hcl; cases hcl
  rw [(hok.once (listed_ne_absent (serving_listed hr))).1, honce]; rfl

theorem Inv.map_empty (hi : s.Inv cfg) (hd : s.dispatcher = .returned) (key : Str) : s.udpConnMap key = none := by
  cases hk : s.udpConnMap key with
  | none => rfl
  | some c =>
    obtain ⟨m, hc, -, hr⟩ := hi.mapped key c hk
    have hlive := (hi.closed hd (List.mem_of_getElem? hc)).2
    cases (listed_live hr).1.symm.trans hlive

/-- Only the first write on a connection has a proxy protocol header, and only if the header
can be built. -/
structure Managed (cfg : ForwarderConfig) (s : ManagedForwarder) : Prop where
  single : ∀ k k' c c' m m', s.udpConnMap k = some c → s.udpConnMap k' = some c' → s.conns[c]? = some m →
    s.conns[c']? = some m' → cfg.string m.raddr = cfg.string m'.raddr → c = c'
  stale : ∀ r t, ManagedStep cfg s (.reader r) t → ∀ k c, s.udpConnMap k = some c → c ≠ r → t.udpConnMap k = some c
  once : ∀ m ∈ s.conns, m.closes ≤ 1
  unblocked : s.dispatcher = .waiting → ∀ m ∈ s.conns, m.reader = .reading → m.closes = 1
  joined : s.dispatcher = .returned →
    (∀ k, s.udpConnMap k = none) ∧ ∀ m ∈ s.conns, m.closes = 1 ∧ (m.reader = .absent ∨ m.reader = .exited)
  header : ∀ m ∈ s.conns, ∀ i w, m.writes[i]? = some w → cfg.string w.raddr = cfg.string m.raddr ∧
    w.buf = (if i = 0 ∧ cfg.proxyProtocolVersion ≠ [] then
      (cfg.buildProxyProtocolHeader w.raddr cfg.dstAddr cfg.proxyProtocolVersion).getD [] else []) ++ w.content

end ManagedForwarder

open ManagedForwarder in
theorem ManagedStep.stale {r : Nat} {key : Str} (hst : ManagedStep cfg s (.reader r) t) (hk : s.udpConnMap key = some c)
    (hne : c ≠ r) : t.udpConnMap key = some c := by
  generalize he : ForwardEvent.reader r = e at hst
  cases hst with
  | readerRemove => cases he; exact removeManagedConn_keep s hk hne
  | closeBegin u | @closeNext u | @closeEnd u => cases u <;> cases he
  | reader | send | readerClose | readerExit => exact hk
  | _ => cases he

/-! ## Two runs -/

def ManagedForwarder.oneWrite (cfg : ForwarderConfig) (a : UDPAddr) (b : Str) : ManagedForwarder where
  conns := [{ raddr := a, reader := .reading, writes := [⟨a, b, cfg.finalBuf false a b⟩] }]
  udpConnMap := update (fun _ => none) (cfg.string a) (some 0)
  readerGroup := 1
  dispatcher := .writing a 0

theorem ManagedForwarder.oneWrite_reachable (cfg : ForwarderConfig) (a : UDPAddr) (b : Str) :
    (oneWrite cfg a b).Reachable cfg := by
  have h := (.start rfl : Reachable cfg {})
    |>.next (.enqueue (some ⟨b, none, some a⟩) rfl)
    |>.next (.take rfl rfl rfl)
    |>.next (.move (.absent (by simp [halts]) rfl))
    |>.next (.dial rfl)
    |>.next (.install rfl (by simp [halts]) rfl)
    |>.next (.write rfl rfl rfl)
  exact h

theorem ManagedForwarder.oneWrite_returns (cfg : ForwarderConfig) (a : UDPAddr) (b : Str) :
    ∃ s : ManagedForwarder, s.Reachable cfg ∧ s.dispatcher = .returned ∧
      s.conns = [⟨a, true, 1, .exited, [⟨a, b, cfg.finalBuf false a b⟩]⟩] := by
  have hentries : ∀ c, c ∈ [0] ↔ ∃ k, update (fun _ => none) (cfg.string a) (some 0) k = some c := by
    intro c
    refine ⟨fun hc => ⟨cfg.string a, ?_⟩, fun ⟨k, hk⟩ => ?_⟩
    · rw [List.mem_singleton.mp hc]; exact update_self ..
    · rcases update_cases (· = some c) hk with ⟨-, hk⟩ | ⟨-, hk⟩
      · exact List.mem_singleton.mpr (Option.some.inj hk).symm
      · cases hk
  have h1 := (oneWrite_reachable cfg a b).next (.move (.wrote rfl rfl))
  have h := h1
    |>.next .closeReadCh
    |>.next (.move (.readClosed rfl rfl))
    |>.next (.cancel rfl)
    |>.next (.watch rfl rfl)
    |>.next (.closeBegin .watcher [0] rfl rfl hentries)
    |>.next (.closeNext rfl rfl)
    |>.next (.closeEnd rfl)
    |>.next (.watched rfl rfl)
    |>.next (.move (.closedAll rfl))
    |>.next (.reader (c := 0) rfl .readFails)
    |>.next (.readerRemove (c := 0) rfl rfl)
    |>.next (.readerClose (c := 0) rfl rfl)
    |>.next (.readerExit (c := 0) rfl rfl)
    |>.next (.move (.wait rfl))
  exact ⟨_, h.next (.move (.join rfl)), rfl, rfl⟩

/-- A header of version 2 for two IPv4 addresses. A port of more than 16 bits, which a packet of JSON
can have, is refused. -/
def proxyV2 : ForwarderConfig where
  dstAddr := ⟨[127, 0, 0, 1], 53, []⟩
  bufSize := 1500
  proxyProtocolVersion := lit "v2"
  string a := a.ip ++ beBytes 8 a.port.toNat
  buildProxyProtocolHeader src dst _ :=
    if 0 ≤ src.port ∧ src.port < 65536 ∧ 0 ≤ dst.port ∧ dst.port < 65536 then
      some ([13, 10, 13, 10, 0, 13, 10, 81, 85, 73, 84, 10, 0x21, 0x12, 0, 12] ++ src.ip ++ dst.ip ++
        beBytes 2 src.port.toNat ++ beBytes 2 dst.port.toNat)
    else none

def userAt (port : Int) : UDPAddr := ⟨[192, 0, 2, 1], port, []⟩

open ManagedForwarder in
/-- One connection for a remote address, closed exactly once, with its reader gone when the forwarder
returns; the header stands before the first packet written, if it can be built. -/
theorem managed_forwarder_joins (h : s.Reachable cfg) : s.Managed cfg := by
  have hi := h.inv
  refine ⟨fun k k' c c' m m' hk hk' hc hc' heq => ?_, fun r t hst k c hk hne => hst.stale hk hne,
    fun m hm => hi.closes_le hm, fun hd m hm hr => hi.unblocked hd hm (hr ▸ rfl),
      fun hd => ⟨hi.map_empty hd, fun m hm => ?_⟩,
    fun m hm i w hw => ?_⟩
  · rw [(hi.mapped_at hk hc).1, (hi.mapped_at hk' hc').1] at heq
    subst heq; exact Option.some.inj (hk.symm.trans hk')
  · obtain ⟨hclosed, hlive⟩ := hi.closed hd hm
    refine ⟨hclosed, ?_⟩
    cases hr : m.reader with
    | absent => exact .inl rfl
    | exited => exact .inr rfl
    | _ => rw [hr] at hlive; cases hlive
  · obtain ⟨c, hc⟩ := List.mem_iff_getElem?.mp hm
    obtain ⟨hraddr, hbuf⟩ := (hi.conn c m hc).writes i w hw
    refine ⟨hraddr, ?_⟩
    rw [hbuf, cfg.finalBuf_eq]; simp only [bne_eq_false_iff_eq]

theorem managed_forwarder_joins_query :
    ∃ s : ManagedForwarder, s.Reachable proxyV2 ∧ s.dispatcher = .returned ∧ s.Managed proxyV2 ∧
      s.conns.map (fun m => (m.closes, m.writes.map fun w => w.buf.drop 16)) =
        [(1, [[192, 0, 2, 1, 127, 0, 0, 1, 156, 64, 0, 53] ++ lit "query"])] := by
  obtain ⟨s, hs, hd, hc⟩ := ManagedForwarder.oneWrite_returns proxyV2 (userAt 40000) (lit "query")
  exact ⟨s, hs, hd, managed_forwarder_joins hs, by rw [hc]; decide⟩

theorem managed_forwarder_unbuilt :
    ∃ s : ManagedForwarder, proxyV2.proxyProtocolVersion = lit "v2" ∧ s.Reachable proxyV2 ∧
      s.conns.map (fun m => (m.raddr.port, m.writes.map ForwardWrite.buf)) = [(70000, [lit "query"])] :=
  ⟨_, rfl, ManagedForwarder.oneWrite_reachable _ (userAt 70000) (lit "query"), by decide⟩

end

end Frp
