import Frp.Bridge
import Mathlib.Algebra.BigOperators.Group.List.Basic
import Mathlib.Data.List.Forall2

/-!
# What the bridge delivers

Each direction forwards a prefix of its stream. Unless a peer is gone, it stops short of the
end only when the other one has come to its own.
-/

namespace Frp

open Function Encoding Bridge V2ReadWriter Reads

theorem lt_of_drop_cons {α : Type} {ms rest : List α} {m : α} {k : Nat} (h : ms.drop k = m :: rest) :
    k < ms.length ∧ m ∈ ms ∧ ms.drop (k + 1) = rest := by
  have hlt : k < ms.length := by
    by_contra hk
    rw [List.drop_eq_nil_of_le (Nat.le_of_not_lt hk)] at h; cases h
  refine ⟨hlt, List.mem_of_mem_drop (h ▸ List.mem_cons_self), ?_⟩
  rw [← List.drop_drop, h]; rfl

section
variable [JSON]

def Dir.forwarded (d : Dir) (ms : List Message) : List Message := ms.filter fun m => d.handle m = .write

def contentTotal (ms : List Message) : Nat := (ms.map Message.contentLen).sum

variable {m : Message}

theorem Dir.forwarded_take_succ (d : Dir) {ms rest : List Message} {k : Nat} (h : ms.drop k = m :: rest) :
    d.forwarded (ms.take (k + 1)) = d.forwarded (ms.take k) ++ d.forwarded [m] := by
  have hm : ms[k]? = some m := by rw [← List.head?_drop, h]; rfl
  unfold Dir.forwarded
  rw [List.take_add_one, hm, List.filter_append]; rfl

theorem Dir.forwarded_write {d : Dir} (h : d.handle m = .write) : d.forwarded [m] = [m] := by
  simp [Dir.forwarded, h]

theorem Dir.forwarded_drop {d : Dir} (h : d.handle m = .drop) : d.forwarded [m] = [] := by
  simp [Dir.forwarded, h]

theorem contentTotal_append (ms : List Message) (m : Message) :
    contentTotal (ms ++ [m]) = contentTotal ms + m.contentLen := by
  simp [contentTotal]

section
variable [V1Codec]

def Sent (c : Encoding) (out : Str) (ms : List Message) : Prop :=
  ∃ frames : List (Str × Message), (∀ x ∈ frames, ReadAs c.readMsg x.1 x.2) ∧
    out = (frames.map Prod.fst).flatten ∧ List.Forall₂ SameMessage ms (frames.map Prod.snd)

def Delivered (c : Encoding) (out : Str) (ms : List Message) : Prop :=
  ∃ ms' e, Reads c.readMsg out ms' e ∧ List.Forall₂ SameMessage ms ms'

theorem Sent.nil (c : Encoding) : Sent c [] [] := ⟨[], by simp, rfl, .nil⟩

variable {ms : List Message} {c : Encoding}

theorem Sent.snoc {out s : Str} {m m' : Message} (h : Sent c out ms)
    (hr : ReadAs c.readMsg s m') (hs : SameMessage m m') : Sent c (out ++ s) (ms ++ [m]) := by
  obtain ⟨frames, hf, rfl, hsame⟩ := h
  refine ⟨frames ++ [(s, m')], ?_, by simp, ?_⟩
  · intro x hx
    rcases List.mem_append.mp hx with hx | hx
    · exact hf x hx
    · obtain rfl := List.mem_singleton.mp hx
      exact hr
  · rw [List.map_append]; exact List.rel_append hsame (.cons hs .nil)

theorem Sent.delivered {out t : Str} (h : Sent c out ms)
    (ht : ∃ e, c.readMsg t = .error e) : Delivered c (out ++ t) ms := by
  obtain ⟨frames, hf, rfl, hsame⟩ := h
  obtain ⟨e, he⟩ := ht
  refine ⟨frames.map Prod.snd, e, ?_, hsame⟩
  have hr := flatten hf (stop he)
  rwa [List.append_nil] at hr

/-- The streams are read as `ms`, and what is forwarded can be sent to the other side. -/
structure Forwardable (c : Sides) (streams : Dir → Str) (ms : Dir → List Message) : Prop where
  reads : ∀ d, ∃ e, Reads (c.src d).readMsg (streams d) (ms d) e
  handled : ∀ d, ∀ m ∈ ms d, d.handle m = .drop ∨ d.handle m = .write ∧ (c.dst d).Accepts m

/-! ## One direction -/

structure LaneAt (src dst : Encoding) (d : Dir) (ms : List Message) (k : Nat) (down : Bool) (l : Lane) :
    Prop where
  le : k ≤ ms.length
  count : l.count = contentTotal (d.forwarded (ms.take k))
  pc : match l.pc with
    | .reading => Sent dst l.output (d.forwarded (ms.take k)) ∧ ∃ e, Reads src.readMsg l.input (ms.drop k) e
    | .handling m => Sent dst l.output (d.forwarded (ms.take k)) ∧
        ∃ rest, ms.drop k = m :: rest ∧ ∃ e, Reads src.readMsg l.input rest e
    | .ended _ => Delivered dst l.output (d.forwarded (ms.take k)) ∧ (down = false → k = ms.length)
    | .done _ => Delivered dst l.output (d.forwarded (ms.take k)) ∧ down = true

def LanePc.weight (n k : Nat) : LanePc → Nat
  | .reading => 3 * (n - k) + 3
  | .handling _ => 3 * (n - k) + 2
  | .ended _ => 1
  | .done _ => 0

variable {src dst : Encoding} {d : Dir} {ms : List Message} {k : Nat} {down : Bool} {l l' : Lane}

theorem LaneAt.delivered (hL : CodecLaws) (h : LaneAt src dst d ms k down l) :
    Delivered dst l.output (d.forwarded (ms.take k)) := by
  obtain ⟨-, -, hpc⟩ := h
  have hsent : Sent dst l.output (d.forwarded (ms.take k)) →
      Delivered dst l.output (d.forwarded (ms.take k)) := by
    intro hs
    have hd := hs.delivered (readMsg_nil hL dst)
    rwa [List.append_nil] at hd
  cases hl : l.pc with
  | reading | handling => rw [hl] at hpc; exact hsent hpc.1
  | ended | done => rw [hl] at hpc; exact hpc.1

theorem LaneAt.goDown (h : LaneAt src dst d ms k down l) : LaneAt src dst d ms k true l := by
  obtain ⟨hle, hcount, hpc⟩ := h
  refine ⟨hle, hcount, ?_⟩
  cases hl : l.pc with
  | reading | handling => rw [hl] at hpc; exact hpc
  | ended => rw [hl] at hpc; exact ⟨hpc.1, by simp⟩
  | done => rw [hl] at hpc; exact ⟨hpc.1, rfl⟩

theorem readMsg_all_valid (hL : CodecLaws) {s : Str} {e : CodecError}
    (h : Reads c.readMsg s ms e) : ∀ m ∈ ms, m.Valid := by
  induction h with
  | stop => simp
  | next hr _ ih =>
    intro m hm
    rcases List.mem_cons.mp hm with rfl | hm
    · exact readMsg_valid hL hr
    · exact ih m hm

section
variable (hL : CodecLaws) (hv : ∀ m ∈ ms, m.Valid)
  (hh : ∀ m ∈ ms, d.handle m = .drop ∨ d.handle m = .write ∧ dst.Accepts m) (h : LaneAt src dst d ms k down l)
include hL hv hh h

theorem LaneAt.carries (m : Message) (hl : l.pc = .handling m) (hw : d.handle m = .write) :
    ∃ s m', Carries dst m s m' := by
  have hpc := h.pc
  rw [hl] at hpc
  obtain ⟨-, rest, hdrop, -⟩ := hpc
  obtain ⟨-, hmem, -⟩ := lt_of_drop_cons hdrop
  exact Encoding.carries hL (hv _ hmem) ((hh _ hmem).resolve_left (by simp [hw])).2

theorem LaneStep.laneAt (hst : LaneStep src dst d down l l') : ∃ k', k ≤ k' ∧ LaneAt src dst d ms k' down l' ∧
    l'.pc.weight ms.length k' < l.pc.weight ms.length k := by
  have hdel := h.delivered hL
  have hcar := h.carries hL hv hh
  obtain ⟨hle, hcount, hpc⟩ := h
  cases hst with
  | read hl hr =>
    rw [hl] at hpc ⊢
    obtain ⟨hs, e, hreads⟩ := hpc
    refine ⟨k, Nat.le_refl k, ⟨hle, hcount, hs, ?_⟩, by simp [LanePc.weight]⟩
    generalize ms.drop k = todo at hreads ⊢
    cases hreads with
    | stop hr' => rw [hr] at hr'; cases hr'
    | next hr' hrest =>
      rw [hr] at hr'; cases hr'
      exact ⟨_, rfl, e, hrest⟩
  | readError hl hr =>
    rw [hl] at hpc ⊢
    obtain ⟨hs, e, hreads⟩ := hpc
    have hall : ms.drop k = [] := by
      generalize ms.drop k = todo at hreads
      cases hreads with
      | stop => rfl
      | next hr' => rw [hr] at hr'; cases hr'
    refine ⟨k, Nat.le_refl k, ⟨hle, hcount, hdel, fun _ => ?_⟩, by simp [LanePc.weight]⟩
    exact Nat.le_antisymm hle (List.drop_eq_nil_iff.mp hall)
  | readFails e hl =>
    rw [hl]; exact ⟨k, Nat.le_refl k, ⟨hle, hcount, hdel, by simp⟩, by simp [LanePc.weight]⟩
  | write hl hw hout =>
    obtain ⟨s, m', hc⟩ := hcar _ hl hw
    rw [hl] at hpc ⊢
    obtain ⟨hs, rest, hdrop, e, hreads⟩ := hpc
    obtain ⟨hlt, -, hnext⟩ := lt_of_drop_cons hdrop
    rw [hc.write] at hout; cases hout
    have hfw := d.forwarded_take_succ hdrop
    rw [Dir.forwarded_write hw] at hfw
    refine ⟨k + 1, by omega, ⟨hlt, ?_, ?_, e, ?_⟩, by simp only [LanePc.weight]; omega⟩
    · rw [hfw, contentTotal_append, ← hcount]
    · rw [hfw]; exact hs.snoc hc.read hc.same
    · rw [hnext]; exact hreads
  | writeError hl hw hout =>
    obtain ⟨s, m', hc⟩ := hcar _ hl hw
    rw [hc.write] at hout; cases hout
  | writeFails e n hl hw hout hn =>
    obtain ⟨s, m', hc⟩ := hcar _ hl hw
    rw [hl] at hpc ⊢
    obtain ⟨hs, -⟩ := hpc
    rw [hc.write] at hout; cases hout
    refine ⟨k, Nat.le_refl k, ⟨hle, hcount, hs.delivered ?_, by simp⟩, by simp [LanePc.weight]⟩
    rcases hn with rfl | hn
    · exact readMsg_nil hL dst
    · exact hc.cut n hn
  | drop hl hd =>
    rw [hl] at hpc ⊢
    obtain ⟨hs, rest, hdrop, e, hreads⟩ := hpc
    obtain ⟨hlt, hmem, hnext⟩ := lt_of_drop_cons hdrop
    have hfw := d.forwarded_take_succ hdrop
    rw [Dir.forwarded_drop hd, List.append_nil] at hfw
    refine ⟨k + 1, by omega, ⟨hlt, by rw [hfw]; exact hcount, by rw [hfw]; exact hs, e, ?_⟩,
      by simp only [LanePc.weight]; omega⟩
    rw [hnext]; exact hreads
  | reject hl hrej =>
    rw [hl] at hpc
    obtain ⟨-, rest, hdrop, -⟩ := hpc
    obtain ⟨-, hmem, -⟩ := lt_of_drop_cons hdrop
    rcases hh _ hmem with hd | ⟨hw, -⟩
    · rw [hrej] at hd; cases hd
    · rw [hrej] at hw; cases hw

theorem LaneAt.step_or_ended :
    (∃ l', LaneStep src dst d down l l') ∨ (∃ err, l.pc = .ended err) ∨ ∃ err, l.pc = .done err := by
  obtain ⟨-, -, hpc⟩ := h
  cases hl : l.pc with
  | reading =>
    cases hr : src.readMsg l.input with
    | error => exact .inl ⟨_, .readError hl hr⟩
    | ok => exact .inl ⟨_, .read hl hr⟩
  | handling m =>
    rw [hl] at hpc
    obtain ⟨-, rest, hdrop, -⟩ := hpc
    obtain ⟨-, hmem, -⟩ := lt_of_drop_cons hdrop
    rcases hh m hmem with hd | ⟨hw, ha⟩
    · exact .inl ⟨_, .drop hl hd⟩
    · obtain ⟨s, m', hc⟩ := Encoding.carries hL (hv m hmem) ha
      exact .inl ⟨_, .write hl hw (hc.write l.output)⟩
  | ended err => exact .inr (.inl ⟨err, rfl⟩)
  | done err => exact .inr (.inr ⟨err, rfl⟩)

end

variable {err : Option BridgeError}

theorem LaneAt.whole_of_ended (h : LaneAt src dst d ms k down l)
    (hpc : l.pc = .ended err ∨ l.pc = .done err) (hopen : down = false) : k = ms.length := by
  have hd := h.pc
  rcases hpc with hpc | hpc
  · rw [hpc] at hd; exact hd.2 hopen
  · rw [hpc, hopen] at hd; cases hd.2

/-! ## Both directions -/

structure BridgeAt (c : Sides) (ms : Dir → List Message) (k : Dir → Nat) (s : Bridge) : Prop where
  lane : ∀ d, LaneAt (c.src d) (c.dst d) d (ms d) (k d) s.down (s.lane d)
  whole : s.lost = false → s.closing = true → ∃ d, k d = (ms d).length

def Bridge.weight (ms : Dir → List Message) (k : Dir → Nat) (s : Bridge) : Nat :=
  (s.lane .proxyToVisitor).pc.weight (ms .proxyToVisitor).length (k .proxyToVisitor) +
    (s.lane .visitorToProxy).pc.weight (ms .visitorToProxy).length (k .visitorToProxy) + (if s.lost then 0 else 1)

variable {c : Sides} {streams : Dir → Str} {msgs : Dir → List Message} {n : Dir → Nat} {s t : Bridge}

theorem Forwardable.valid (hL : CodecLaws) (hf : Forwardable c streams msgs) (d : Dir) : ∀ m ∈ msgs d, m.Valid := by
  obtain ⟨e, he⟩ := hf.reads d
  exact readMsg_all_valid hL he

theorem Forwardable.init (hf : Forwardable c streams msgs) : BridgeAt c msgs (fun _ => 0) (init streams) where
  lane d := ⟨Nat.zero_le _, rfl, Sent.nil _, hf.reads d⟩
  whole _ h := by cases h

theorem LaneAt.mono {down' : Bool} (h : LaneAt src dst d ms k down l) (hd : down = true → down' = true) :
    LaneAt src dst d ms k down' l := by
  cases down' with
  | true => exact h.goDown
  | false =>
    have hup : down = false := by simpa using hd
    rwa [hup] at h

theorem BridgeAt.move {d : Dir} {l : Lane} {k : Nat} {closing : Bool} (h : BridgeAt c msgs n s)
    (hcl : s.closing = true → closing = true) (hk : n d ≤ k)
    (hl : LaneAt (c.src d) (c.dst d) d (msgs d) k (closing || s.lost) l)
    (hwhole : s.lost = false → closing = true → s.closing = true ∨ k = (msgs d).length)
    (hlt : l.pc.weight (msgs d).length k < (s.lane d).pc.weight (msgs d).length (n d)) :
    BridgeAt c msgs (update n d k) ⟨update s.lane d l, closing, s.lost⟩ ∧
      weight msgs (update n d k) ⟨update s.lane d l, closing, s.lost⟩ < s.weight msgs n := by
  refine ⟨⟨?_, ?_⟩, ?_⟩
  · intro d'
    show LaneAt _ _ _ _ _ (closing || s.lost) (update s.lane d l d')
    by_cases hd : d' = d
    · subst hd; simpa using hl
    · rw [update_of_ne hd, update_of_ne hd]
      refine (h.lane d').mono fun hdown => ?_
      rw [Bridge.down, Bool.or_eq_true] at hdown
      rw [Bool.or_eq_true]; exact hdown.imp_left hcl
  · intro hlost hc
    rcases hwhole hlost hc with hs | hk
    · obtain ⟨d', hd'⟩ := h.whole hlost hs
      refine ⟨d', ?_⟩
      by_cases hd : d' = d
      · subst hd
        have hle := hl.le
        rw [update_self]; omega
      · rw [update_of_ne hd]; exact hd'
    · exact ⟨d, by rw [update_self]; exact hk⟩
  · cases d <;> simp [weight] <;> omega

theorem BridgeAt.whole_of_ended (h : BridgeAt c msgs n s) {d : Dir}
    (hpc : (s.lane d).pc = .ended err ∨ (s.lane d).pc = .done err) (hlost : s.lost = false) :
    (s.closing = false → n d = (msgs d).length) ∧ ∃ d', n d' = (msgs d').length := by
  have hwhole : s.closing = false → n d = (msgs d).length := fun hs =>
    (h.lane d).whole_of_ended hpc (by simp [Bridge.down, hs, hlost])
  refine ⟨hwhole, ?_⟩
  cases hs : s.closing with
  | true => exact h.whole hlost hs
  | false => exact ⟨d, hwhole hs⟩

section
variable (hL : CodecLaws) (hf : Forwardable c streams msgs)
include hL hf

theorem BridgeStep.bridgeAt {d : Dir} (h : BridgeAt c msgs n s) (hst : BridgeStep c s d t) :
    ∃ n', BridgeAt c msgs n' t ∧ t.weight msgs n' < s.weight msgs n := by
  cases hst with
  | lane hl =>
    obtain ⟨k, hk, hat, hlt⟩ := hl.laneAt hL (hf.valid hL d) (hf.handled d) (h.lane d)
    exact ⟨_, h.move id hk hat (fun _ => .inl) hlt⟩
  | lose hlost =>
    refine ⟨n, ⟨fun d' => (h.lane d').mono fun _ => by simp [Bridge.down], ?_⟩, by simp [weight, hlost]⟩
    intro hnot; cases hnot
  | @closeBoth err hpc =>
    have hd := h.lane d
    have hout := hd.delivered hL
    have hat : LaneAt (c.src d) (c.dst d) d (msgs d) (n d) (true || s.lost) { s.lane d with pc := .done err } :=
      ⟨hd.le, hd.count, hout, rfl⟩
    refine ⟨_, h.move (fun _ => rfl) (Nat.le_refl _) hat ?_ (by rw [hpc]; simp [LanePc.weight])⟩
    intro hlost _
    have hended := hd.pc
    rw [hpc] at hended
    cases hs : s.closing with
    | true => exact .inl rfl
    | false => exact .inr (hended.2 (by simp [Bridge.down, hs, hlost]))

theorem BridgeAt.of_reach (hr : Reach (· = init streams) (BridgeStep c) s) : ∃ n, BridgeAt c msgs n s := by
  induction hr with
  | start h0 => exact ⟨_, h0 ▸ hf.init⟩
  | next _ hst ih =>
    obtain ⟨n, hn⟩ := ih
    obtain ⟨n', hn', -⟩ := hst.bridgeAt hL hf hn
    exact ⟨n', hn'⟩

/-- Every step lowers the weight, so no run of the bridge is infinite. -/
theorem BridgeAt.terminates : ∀ (w : Nat) {n : Dir → Nat} {s : Bridge}, BridgeAt c msgs n s → s.weight msgs n ≤ w →
    Acc (fun t s => ∃ d, BridgeStep c s d t) s := by
  intro w
  induction w with
  | zero =>
    intro n s h hw
    refine ⟨_, fun t ⟨d, hst⟩ => ?_⟩
    obtain ⟨n', -, hlt⟩ := hst.bridgeAt hL hf h
    omega
  | succ w ih =>
    intro n s h hw
    refine ⟨_, fun t ⟨d, hst⟩ => ?_⟩
    obtain ⟨n', hn', hlt⟩ := hst.bridgeAt hL hf h
    exact ih hn' (by omega)

theorem BridgeAt.step_or_returned (h : BridgeAt c msgs n s) : (∃ d t, BridgeStep c s d t) ∨ s.returned := by
  by_cases hst : ∃ d t, BridgeStep c s d t
  · exact .inl hst
  · refine .inr fun d => ?_
    rcases (h.lane d).step_or_ended hL (hf.valid hL d) (hf.handled d) with ⟨l, hl⟩ | ⟨err, hend⟩ | hdone
    · exact absurd ⟨d, _, .lane hl⟩ hst
    · exact absurd ⟨d, _, .closeBoth hend⟩ hst
    · exact hdone

end

/-- What the other side reads from a direction is the packets, and to the visitor the pings, of a
prefix of the sender's stream; unless a peer is gone, one of the two is whole. -/
theorem joinSUDPMessageBridge_delivers (hL : CodecLaws) (hf : Forwardable c streams msgs)
    (hr : Reach (· = Bridge.init streams) (BridgeStep c) s) :
    Acc (fun t s => ∃ d, BridgeStep c s d t) s ∧ ((∃ d t, BridgeStep c s d t) ∨ s.returned) ∧
    ∃ n : Dir → Nat,
      (∀ d, n d ≤ (msgs d).length ∧
        Delivered (c.dst d) (s.lane d).output (d.forwarded ((msgs d).take (n d))) ∧
        (s.lane d).count = contentTotal (d.forwarded ((msgs d).take (n d)))) ∧
      ∀ d err, (s.lane d).pc = .ended err ∨ (s.lane d).pc = .done err → s.lost = false →
        (s.closing = false → n d = (msgs d).length) ∧ ∃ d', n d' = (msgs d').length := by
  obtain ⟨n, hn⟩ := BridgeAt.of_reach hL hf hr
  refine ⟨BridgeAt.terminates hL hf _ hn (Nat.le_refl _), hn.step_or_returned hL hf, n, ?_, ?_⟩
  · intro d; exact ⟨(hn.lane d).le, (hn.lane d).delivered hL, (hn.lane d).count⟩
  · intro d err hpc hlost; exact hn.whole_of_ended hpc hlost

end

end

section
attribute [local instance] JSON.samples

@[reducible] def V1Codec.framed : V1Codec where
  readMsg s := (V2ReadWriter.readMsg s).mapError fun e => if e = .eof then .eof else .failed
  pack m := if (V2ReadWriter.writeMsg [] m).2 = none then some (V2ReadWriter.writeMsg [] m).1 else none
  limit _ := True

attribute [local instance] V1Codec.framed

theorem JSON.samples_laws : JSONLaws where
  plain := JSON.samples_inverse
  valid s p h := by
    change (if s = emptyJSON then _ else if s = sampleJSON then _ else _) = some p at h
    split_ifs at h
    · cases h; simp [UDPPacket.Valid]
    · cases h
      exact ⟨fun _ ha => Option.mem_some.mp ha ▸ rfl, fun _ ha => Option.mem_some.mp ha ▸ rfl⟩
  packet p s _ h := by
    change (if p = ⟨[], none, none⟩ then _ else if p = samplePacket.normal then _ else _) = some s at h
    split_ifs at h with hp hs
    · cases h
      subst hp; exact ⟨_, rfl, .normal ⟨[], none, none⟩⟩
    · cases h
      subst hs; exact ⟨samplePacket, rfl, rfl, .some ⟨rfl, rfl, rfl⟩, .some ⟨rfl, rfl, rfl⟩⟩

theorem V1Codec.framed_pack {m : Message} {s : Str} (hv : m.Valid) (h : V1Codec.pack m = some s) :
    ∃ f m', f.Fits ∧ decodeV2MessageFrame f = .ok m' ∧ SameMessage m m' ∧ s = f.bytes := by
  change (if (V2ReadWriter.writeMsg [] m).2 = none then _ else _) = some s at h
  by_cases hw : (V2ReadWriter.writeMsg [] m).2 = none
  · rw [if_pos hw] at h
    obtain ⟨f, m', hf, he, hd, hs⟩ := V2ReadWriter.frame_of_write JSON.samples_laws hv hw
    refine ⟨f, m', hf, hd, hs, ?_⟩
    cases h; simp [V2ReadWriter.writeMsg, he, writeFrame_fits [] hf]
  · rw [if_neg hw] at h; cases h

theorem V1Codec.framed_laws : CodecLaws where
  toJSONLaws := JSON.samples_laws
  v1_eof := rfl
  v1_valid _ _ _ h := readMsg_valid JSON.samples_laws (ok_of_mapError h)
  v1_read m s hv _ h := by
    obtain ⟨f, m', hf, hd, hs, rfl⟩ := V1Codec.framed_pack hv h
    exact ⟨m', hs, fun t => mapError_ok (readMsg_frame hf hd t)⟩
  v1_cut m s k hv h hk := by
    obtain ⟨f, m', hf, -, -, rfl⟩ := V1Codec.framed_pack hv h
    exact mapError_error (readMsg_cut hf hk)

def silentProxy : Dir → Str
  | .proxyToVisitor => []
  | .visitorToProxy => (Encoding.v2Binary.writeMsg [] (.udpPacket samplePacket)).1

def addresslessProxy : Dir → Str
  | .proxyToVisitor => (Encoding.v2.writeMsg [] (.udpPacket ⟨[], none, none⟩)).1
  | .visitorToProxy => []

theorem bridge_loses_packets :
    (bridgeSides (lit "v1") [] (lit "v2") (lit "binary-v1") = .ok ⟨.v1, .v2Binary⟩ ∧
      Reads Encoding.v2Binary.readMsg (silentProxy .visitorToProxy) [.udpPacket samplePacket.normal]
        (.read .eof) ∧
      ∃ s, Reach (· = Bridge.init silentProxy) (BridgeStep ⟨.v1, .v2Binary⟩) s ∧ s.returned ∧
        (s.lane .visitorToProxy).output = [] ∧ (s.lane .visitorToProxy).count = 0) ∧
    (bridgeSides (lit "v2") [] (lit "v2") (lit "binary-v1") = .ok ⟨.v2, .v2Binary⟩ ∧
      Reads Encoding.v2.readMsg (addresslessProxy .proxyToVisitor) [.udpPacket ⟨[], none, none⟩] (.read .eof) ∧
      ∃ s, Reach (· = Bridge.init addresslessProxy) (BridgeStep ⟨.v2, .v2Binary⟩) s ∧
        (s.lane .proxyToVisitor).pc = .ended (some (.codec (.write (.udp (.err .missingRemoteAddr))))) ∧
        (s.lane .proxyToVisitor).output = []) := by
  refine ⟨⟨rfl, next rfl (.stop rfl), ?_⟩, rfl, next rfl (.stop rfl), ?_⟩
  · have h : Reach (· = init silentProxy) (BridgeStep ⟨.v1, .v2Binary⟩) _ := .start rfl
    have h := h
      |>.next (.lane (d := .proxyToVisitor) (.readError rfl rfl))
      |>.next (.closeBoth (d := .proxyToVisitor) rfl)
      |>.next (.lane (d := .visitorToProxy) (.readFails .closed rfl))
      |>.next (.closeBoth (d := .visitorToProxy) rfl)
    refine ⟨_, h, ?_, rfl, rfl⟩
    intro d
    cases d with
    | proxyToVisitor | visitorToProxy => exact ⟨none, rfl⟩
  · have h : Reach (· = init addresslessProxy) (BridgeStep ⟨.v2, .v2Binary⟩) _ := .start rfl
    have h := h.next (.lane (d := .proxyToVisitor)
      (.read rfl (show _ = Except.ok (_, []) from rfl)))
    have h := h.next (.lane (d := .proxyToVisitor)
      (.writeError (e := .write (.udp (.err .missingRemoteAddr))) rfl rfl
        (show _ = ([], _) from rfl)))
    exact ⟨_, h, rfl, rfl⟩

def pingAndPacket : Dir → List Message
  | .proxyToVisitor => [.plain .ping ()]
  | .visitorToProxy => [.plain .ping (), .udpPacket samplePacket.normal]

def pingAndPacketBytes : Dir → Str
  | .proxyToVisitor => (Encoding.v2.writeMsg [] (.plain .ping ())).1
  | .visitorToProxy =>
    (Encoding.v2Binary.writeMsg (Encoding.v2Binary.writeMsg [] (.plain .ping ())).1 (.udpPacket samplePacket)).1

set_option maxRecDepth 2000 in
theorem pingAndPacket_forwardable : Forwardable ⟨.v2, .v2Binary⟩ pingAndPacketBytes pingAndPacket where
  reads d := by
    cases d with
    | proxyToVisitor => exact ⟨.read .eof, next rfl (.stop rfl)⟩
    | visitorToProxy =>
      exact ⟨.read .eof, next (t := (v2Binary.writeMsg [] (.udpPacket samplePacket)).1) rfl
        (next rfl (.stop rfl))⟩
  handled d m hm := by
    cases d with
    | proxyToVisitor =>
      obtain rfl := List.mem_singleton.mp hm
      exact .inr ⟨rfl, rfl, fun _ => trivial⟩
    | visitorToProxy =>
      rcases List.mem_cons.mp hm with rfl | hm
      · exact .inl rfl
      · obtain rfl := List.mem_singleton.mp hm
        exact .inr ⟨rfl, rfl, fun _ => trivial⟩

set_option maxRecDepth 2000 in
theorem pingAndPacket_ends : ∃ s, Reach (· = Bridge.init pingAndPacketBytes) (BridgeStep ⟨.v2, .v2Binary⟩) s ∧
    (∀ d, (s.lane d).pc = .ended none) ∧ s.lost = false ∧ s.closing = false := by
  have h := (.start rfl : Reach (· = init pingAndPacketBytes) (BridgeStep ⟨.v2, .v2Binary⟩) _)
    |>.next (.lane (d := .proxyToVisitor) (.read rfl (show _ = Except.ok (_, []) from rfl)))
    |>.next (.lane (d := .proxyToVisitor) (.write rfl rfl rfl))
    |>.next (.lane (d := .visitorToProxy)
      (.read rfl (show _ = Except.ok (_, (v2Binary.writeMsg [] (.udpPacket samplePacket)).1) from rfl)))
    |>.next (.lane (d := .visitorToProxy) (.drop rfl rfl))
    |>.next (.lane (d := .visitorToProxy) (.read rfl (show _ = Except.ok (_, []) from rfl)))
    |>.next (.lane (d := .visitorToProxy) (.write rfl rfl rfl))
    |>.next (.lane (d := .proxyToVisitor) (.readError rfl rfl))
    |>.next (.lane (d := .visitorToProxy) (.readError rfl rfl))
  refine ⟨_, h, ?_, rfl, rfl⟩
  intro d
  cases d with
  | proxyToVisitor | visitorToProxy => rfl

theorem joinSUDPMessageBridge_delivers_mixed :
    Forwardable ⟨.v2, .v2Binary⟩ pingAndPacketBytes pingAndPacket ∧
    ∃ s, Reach (· = Bridge.init pingAndPacketBytes) (BridgeStep ⟨.v2, .v2Binary⟩) s ∧
      Delivered .v2Binary (s.lane .proxyToVisitor).output [.plain .ping ()] ∧
      Delivered .v2 (s.lane .visitorToProxy).output [.udpPacket samplePacket.normal] ∧
      (s.lane .visitorToProxy).count = 7 := by
  obtain ⟨s, hr, hend, hlost, hopen⟩ := pingAndPacket_ends
  obtain ⟨-, -, n, hn, hwhole⟩ := joinSUDPMessageBridge_delivers V1Codec.framed_laws pingAndPacket_forwardable hr
  have hall : ∀ d, n d = (pingAndPacket d).length := fun d => (hwhole d none (.inl (hend d)) hlost).1 hopen
  have hping := hn .proxyToVisitor
  have hpacket := hn .visitorToProxy
  rw [hall] at hping hpacket
  exact ⟨pingAndPacket_forwardable, s, hr, hping.2.1, hpacket.2.1, hpacket.2.2⟩

end

end Frp
