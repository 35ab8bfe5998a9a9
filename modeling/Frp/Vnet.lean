import Frp.Slots
import Frp.VnetMessage

/-!
# Routes of the virtual network

`pkg/vnet/controller.go`: the router by destinations of the client side, the router by seen
sources of the server side, and the read loops, which take their connection out of its router
before they close it. A section under a router's lock is one step. Every loop has a connection
of its own.
-/

namespace Frp

open Function

/-! ## Addresses and packets -/

structure IPNet where
  ip : Str
  mask : Str

def networkNumberAndMask (n : IPNet) : Str × Str :=
  let ip := (to4 n.ip).getD n.ip
  if ip.length = ipv4len ∧ n.mask.length = ipv6len then (ip, n.mask.drop 12)
  else if (ip.length = ipv4len ∨ ip.length = ipv6len) ∧ n.mask.length = ip.length then (ip, n.mask)
  else ([], [])

def IPNet.contains (n : IPNet) (ip : Str) : Bool :=
  let (nn, m) := networkNumberAndMask n
  let ip := (to4 ip).getD ip
  ip.length == nn.length && List.zipWith (· &&& ·) nn m == List.zipWith (· &&& ·) ip m

/-- The source and the destination in the header: `ipv4.ParseHeader` if `waterutil.IsIPv4`,
`ipv6.ParseHeader` if `waterutil.IsIPv6`. -/
class IPHeader where
  parseHeader : Str → Option (Str × Str)

open IPHeader

/-- `net.IP.String`. -/
class IPText where
  string : Str → Str

def maxPacketSize : Nat := 1420

/-! ## Routers and read loops -/

structure RouteElement where
  routes : List IPNet
  conn : Nat

/-- The loop of a client's connection knows the name its route was registered with. -/
inductive LoopPc
  | unused
  | client (name : Str)
  | server
  | registering (key : Str)
  | removed
  | closed

def LoopPc.serving : LoopPc → Bool
  | server | registering _ => true
  | _ => false

structure VnetController where
  routes : Str → Option RouteElement := fun _ => none
  srcIPConns : Str → Option Nat := fun _ => none
  loops : Nat → LoopPc := fun _ => .unused
  next : Nat := 0

inductive VnetEvent
  | registered (c : Nat) (key : Str)
  | other

namespace VnetController

def setLoop (s : VnetController) (c : Nat) (p : LoopPc) : VnetController := { s with loops := update s.loops c p }

def addRoute (s : VnetController) (name : Str) (routes : List IPNet) : VnetController :=
  { s.setLoop s.next (.client name) with routes := update s.routes name (some ⟨routes, s.next⟩), next := s.next + 1 }

def delRoute (s : VnetController) (name : Str) : VnetController := { s with routes := update s.routes name none }

def storeSrcIP (s : VnetController) (key : Str) (c : Nat) : VnetController :=
  { s with srcIPConns := if s.srcIPConns key = some c then s.srcIPConns else update s.srcIPConns key (some c) }

def cleanupConnIPs (s : VnetController) (c : Nat) : VnetController :=
  { s with srcIPConns := fun key => if s.srcIPConns key = some c then none else s.srcIPConns key }

/-- What `findConn` may return: the map is gone through in any order. -/
def FindConn (s : VnetController) (dst : Str) (c : Nat) : Prop :=
  ∃ name re, s.routes name = some re ∧ re.conn = c ∧ ∃ route ∈ re.routes, route.contains dst = true

/-- What `findConn` or then `findConnBySrc` finds for `handlePacket`; the state may change between. -/
def Target [IPText] (s : VnetController) (dst : Str) (c : Nat) : Prop :=
  s.FindConn dst c ∨ s.srcIPConns (IPText.string dst) = some c

inductive Step [IPText] [IPHeader] (s : VnetController) : VnetEvent → VnetController → Prop
  | registerClientRoute (name : Str) (routes : List IPNet) : Step s .other (s.addRoute name routes)
  | unregisterClientRoute (name : Str) : Step s .other (s.delRoute name)
  | removeConnRoute {c n name re} : s.loops c = .client n → s.routes name = some re → re.conn = c →
      Step s .other ((s.delRoute name).setLoop c .removed)
  | noConnRoute {c n} : s.loops c = .client n → (∀ name re, s.routes name = some re → re.conn ≠ c) →
      Step s .other (s.setLoop c .removed)
  | startServerConnReadLoop : Step s .other { s.setLoop s.next .server with next := s.next + 1 }
  | sameSrcIP {c data src dst} : s.loops c = .server → parseHeader data = some (src, dst) →
      s.srcIPConns (IPText.string src) = some c → Step s (.registered c (IPText.string src)) s
  | otherSrcIP {c data src dst} : s.loops c = .server → parseHeader data = some (src, dst) →
      s.srcIPConns (IPText.string src) ≠ some c → Step s .other (s.setLoop c (.registering (IPText.string src)))
  | storeSrcIP {c key} : s.loops c = .registering key →
      Step s (.registered c key) ((s.storeSrcIP key c).setLoop c .server)
  | cleanupConnIPs {c} : s.loops c = .server → Step s .other ((s.cleanupConnIPs c).setLoop c .removed)
  | close {c} : s.loops c = .removed → Step s .other (s.setLoop c .closed)

/-- For each address the connection that sent from it last. Histories are latest first. -/
def lastSender : List VnetEvent → Str → Option Nat
  | [] => fun _ => none
  | .registered c key :: log => update (lastSender log) key (some c)
  | .other :: log => lastSender log

structure Inv (last : Str → Option Nat) (s : VnetController) : Prop where
  used : ∀ c, s.loops c ≠ .unused → c < s.next
  known : ∀ key c, last key = some c → c < s.next
  client : ∀ name re, s.routes name = some re → s.loops re.conn = .client name
  source : ∀ key c, s.srcIPConns key = some c ↔ last key = some c ∧ (s.loops c).serving = true

variable {last : Str → Option Nat} {s t : VnetController} {c : Nat} {p q : LoopPc} {e : VnetEvent}

namespace Inv

variable (h : s.Inv last)
include h

theorem setLoop {m : Str → Option Nat} (hc : s.loops c = q) (hq : q ≠ .unused)
    (hfree : ∀ name re, s.routes name = some re → re.conn ≠ c)
    (hsource : ∀ key x, m key = some x ↔ last key = some x ∧ (update s.loops c p x).serving = true) :
    Inv last ({ s with srcIPConns := m }.setLoop c p) := by
  refine ⟨fun x hx => ?_, h.known, fun name re hre => ?_, hsource⟩
  · rcases update_cases (· ≠ LoopPc.unused) hx with ⟨rfl, -⟩ | ⟨-, hx⟩
    · exact h.used x (hc.symm ▸ hq)
    · exact h.used x hx
  · exact (update_of_ne (hfree name re hre) ..).trans (h.client name re hre)

theorem source_same (hc : s.loops c = q) (hp : p.serving = q.serving) (key : Str) (x : Nat) :
    s.srcIPConns key = some x ↔ last key = some x ∧ (update s.loops c p x).serving = true := by
  rw [update_same LoopPc.serving (hc.symm ▸ hp)]; exact h.source key x

theorem source_cleanup (key : Str) (x : Nat) :
    (if s.srcIPConns key = some c then none else s.srcIPConns key) = some x ↔
      last key = some x ∧ (update s.loops c .removed x).serving = true := by
  have hs := h.source key x
  by_cases hx : x = c
  · subst hx
    rw [update_self]
    grind [LoopPc.serving]
  · rw [update_of_ne hx]
    grind

theorem conn_ne (hc : s.loops c = q) (hq : ∀ name, q ≠ .client name) (name : Str) (re : RouteElement)
    (hre : s.routes name = some re) : re.conn ≠ c := by
  rintro rfl; exact hq name (hc.symm.trans (h.client name re hre))

theorem start : Inv last { s.setLoop s.next p with next := s.next + 1 } := by
  have hold : ∀ x, x < s.next → update s.loops s.next p x = s.loops x := fun x hx => update_of_ne (Nat.ne_of_lt hx) ..
  refine ⟨fun x hx => ?_, fun key x hx => Nat.lt_succ_of_lt (h.known key x hx), fun name re hre => ?_, fun key x => ?_⟩
  · rcases update_cases (· ≠ LoopPc.unused) hx with ⟨rfl, -⟩ | ⟨-, hx⟩
    · exact Nat.lt_succ_self _
    · exact Nat.lt_succ_of_lt (h.used x hx)
  · have hc := h.client name re hre
    exact (hold _ (h.used _ (by simp [hc]))).trans hc
  · refine (h.source key x).trans (and_congr_right fun hx => ?_)
    rw [← hold x (h.known key x hx)]; rfl

theorem addRoute (name : Str) (routes : List IPNet) : (s.addRoute name routes).Inv last := by
  refine { h.start with client := fun n re hre => ?_ }
  rcases update_cases (· = some re) hre with ⟨rfl, hnew⟩ | ⟨-, hre⟩
  · cases hnew; exact update_self ..
  · exact h.start.client n re hre

theorem delRoute (name : Str) : (s.delRoute name).Inv last :=
  { h with client := fun n re hre => h.client n re (of_update (· = some re) hre nofun) }

theorem storeSrcIP (hc : s.loops c = q) (hq : q.serving = true) (key : Str) :
    (s.storeSrcIP key c).Inv (update last key (some c)) := by
  refine { h with known := fun k x hx => ?_, source := fun k x => ?_ }
  · rcases update_cases (· = some x) hx with ⟨-, hx⟩ | ⟨-, hx⟩
    · cases hx; exact h.used c fun hu => by simp [← hc, hu, LoopPc.serving] at hq
    · exact h.known k x hx
  · have hmap : (s.storeSrcIP key c).srcIPConns = update s.srcIPConns key (some c) := by
      rw [VnetController.storeSrcIP]
      split
      next heq => rw [← heq, update_eq_self]
      next => rfl
    rw [hmap]
    by_cases hk : k = key
    · rw [hk, update_self, update_self, Option.some.injEq]
      refine ⟨fun hx => ⟨hx, ?_⟩, And.left⟩
      rw [← hx]; exact hc.symm ▸ hq
    · rw [update_of_ne hk, update_of_ne hk]; exact h.source k x

end Inv

variable {log : List VnetEvent}

theorem Step.inv [IPText] [IPHeader] (hst : s.Step e t) (h : s.Inv (lastSender log)) :
    t.Inv (lastSender (e :: log)) := by
  cases hst with
  | registerClientRoute name routes => exact h.addRoute name routes
  | unregisterClientRoute name => exact h.delRoute name
  | @removeConnRoute c n name re hc hre hconn =>
    refine (h.delRoute name).setLoop hc nofun (fun n' re' hre' heq => ?_) ((h.delRoute name).source_same hc rfl)
    -- no other name has the connection
    rcases update_cases (· = some re') hre' with ⟨-, hnone⟩ | ⟨hne, hre'⟩
    · cases hnone
    · have hsame := (h.client n' re' hre').symm.trans ((heq.trans hconn.symm).symm ▸ h.client name re hre)
      exact hne (LoopPc.client.inj hsame)
  | noConnRoute hc hfree => exact h.setLoop hc nofun hfree (h.source_same hc rfl)
  | startServerConnReadLoop => exact h.start
  | @sameSrcIP c _ src _ hc _ hsame =>
    have hs := h.storeSrcIP hc rfl (IPText.string src)
    rwa [VnetController.storeSrcIP, if_pos hsame] at hs
  | otherSrcIP hc => exact h.setLoop hc nofun (h.conn_ne hc nofun) (h.source_same hc rfl)
  | @storeSrcIP c key hc =>
    have hs := h.storeSrcIP hc rfl key
    exact hs.setLoop hc nofun (hs.conn_ne hc nofun) (hs.source_same hc rfl)
  | cleanupConnIPs hc => exact h.setLoop hc nofun (h.conn_ne hc nofun) h.source_cleanup
  | close hc => exact h.setLoop hc nofun (h.conn_ne hc nofun) (h.source_same hc rfl)

def Init (s : VnetController) : Prop := s = {}

theorem inv_of_traced [IPText] [IPHeader] (h : Traced Init Step log s) : s.Inv (lastSender log) := by
  refine h.invariant (I := fun log s => s.Inv (lastSender log)) (fun s h0 => ?_) fun log s e t hi hst => hst.inv hi
  rw [h0]; exact ⟨fun _ hc => absurd rfl hc, nofun, nofun, fun _ _ => by simp [lastSender]⟩

section
variable [IPText] [IPHeader] {log : List VnetEvent}

/-- A router only has connections of loops that have not ended; for a source it is the one that sent
from it last. -/
theorem vnet_routes_live (h : Traced Init Step log s) :
    (∀ name re, s.routes name = some re → s.loops re.conn = .client name) ∧
      ∀ key c, s.srcIPConns key = some c ↔ lastSender log key = some c ∧ (s.loops c).serving = true :=
  ⟨(inv_of_traced h).client, (inv_of_traced h).source⟩

/-- A packet from the device goes to a connection in use, as one message which the other end reads
as the packet. -/
theorem vnet_packet_delivered (hnil : parseHeader [] = none) (h : Traced Init Step log s) {buf src dst : Str}
    (hlen : buf.length ≤ maxPacketSize) (hbuf : parseHeader buf = some (src, dst)) (hc : s.Target dst c) :
    ((∃ name, s.FindConn dst c ∧ s.loops c = .client name) ∨
      lastSender log (IPText.string dst) = some c ∧ (s.loops c).serving = true) ∧
      ∀ w, writeMessage w buf = (w ++ vnetFrame buf, none) ∧
        ∀ rest, readMessage (vnetFrame buf ++ rest) = .ok (buf, rest) := by
  have hi := inv_of_traced h
  refine ⟨?_, fun w => ?_⟩
  · rcases hc with hc | hc
    · obtain ⟨name, re, hre, rfl, hroute⟩ := hc
      exact .inl ⟨name, ⟨name, re, hre, rfl, hroute⟩, hi.client name re hre⟩
    · exact .inr ((hi.source _ c).mp hc)
  · have hpos : buf.length ≠ 0 := by
      intro hzero
      rw [List.length_eq_zero_iff.mp hzero, hnil] at hbuf; cases hbuf
    unfold maxPacketSize at hlen
    have hmod : buf.length % 2 ^ 32 = buf.length := Nat.mod_eq_of_lt (by omega)
    have hacc : MessageAccepted buf := ⟨hmod.symm ▸ hpos, by rw [hmod, maxMessageSize]; omega⟩
    refine ⟨writeMessage_accepted hacc w, fun rest => ?_⟩
    rw [readMessage_frame hacc, hmod, List.take_length, List.drop_length, List.nil_append]

end

section
@[reducible] def IPText.bytes : IPText := ⟨id⟩

/-- IPv4 without options. -/
@[reducible] def IPHeader.plainV4 : IPHeader where
  parseHeader buf :=
    if buf.head? = some 0x45 ∧ 20 ≤ buf.length then
      some (v4InV6Prefix ++ (buf.drop 12).take 4, v4InV6Prefix ++ (buf.drop 16).take 4)
    else none

attribute [local instance] IPText.bytes IPHeader.plainV4

def ping (src dst : UInt8) : Str := 0x45 :: List.replicate 11 0 ++ [10, 0, 0, src, 10, 0, 0, dst]

theorem ping_seen : ∃ log s, Traced Init Step log s ∧ s.srcIPConns (v4InV6Prefix ++ [10, 0, 0, 2]) = some 0 := by
  have h : Traced Init Step [] {} := .start rfl
  have h := h.next .startServerConnReadLoop
  have h := h.next (Step.otherSrcIP (c := 0) rfl (show parseHeader (ping 2 1) = some _ from rfl) nofun)
  exact ⟨_, _, h.next (.storeSrcIP (c := 0) rfl), rfl⟩

theorem vnet_routes_live_ping : ∃ log s, Traced Init Step log s ∧
    lastSender log (v4InV6Prefix ++ [10, 0, 0, 2]) = some 0 ∧ (s.loops 0).serving = true := by
  obtain ⟨log, s, h, hs⟩ := ping_seen
  exact ⟨log, s, h, ((vnet_routes_live h).2 _ 0).mp hs⟩

theorem vnet_packet_delivered_pong : ∃ log s, Traced Init Step log s ∧
    s.Target (v4InV6Prefix ++ [10, 0, 0, 2]) 0 ∧ readMessage (vnetFrame (ping 1 2)) = .ok (ping 1 2, []) := by
  obtain ⟨log, s, h, hs⟩ := ping_seen
  have hbuf : parseHeader (ping 1 2) = some _ := rfl
  have hread := ((vnet_packet_delivered rfl h (by decide) hbuf (.inr hs)).2 []).2 []
  rw [List.append_nil] at hread; exact ⟨log, s, h, .inr hs, hread⟩

end

end VnetController

end Frp
