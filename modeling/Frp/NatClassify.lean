import Mathlib.Algebra.Ring.Int.Defs
import Mathlib.Algebra.Ring.Nat
import Mathlib.Data.List.TakeWhile
import Frp.Str

/-!
# NAT features

`ClassifyNATFeature` of `pkg/nathole/classify.go`: one pass over the addresses a peer was
seen with. `NetErrors` supplies the texts of the errors of `net.SplitHostPort` and
`strconv.Atoi`.
-/

namespace Frp

class NetErrors where
  splitHostPort : Str → Str
  atoi : Str → Str

def wrapInt (x : Int) : Int := x.bmod (2 ^ 64)

variable {x : Int}

theorem wrapInt_eq (h : -2 ^ 63 ≤ x) (h' : x < 2 ^ 63) : wrapInt x = x :=
  Int.bmod_eq_of_le (by simpa using h) (by simpa using h')

theorem wrapInt_over (h : 2 ^ 63 ≤ x) (h' : x < 2 ^ 64) : wrapInt x = x - 2 ^ 64 := by
  rw [wrapInt, Int.bmod_def, Int.emod_eq_of_lt (by omega) (by omega), if_neg (by omega)]; rfl

def decimal (n : Nat) (b : UInt8) : Option Nat := if 48 ≤ b ∧ b ≤ 57 then some (n * 10 + (b.toNat - 48)) else none

def cutSign : Str → Bool × Str
  | [] => (false, [])
  | b :: r => if b = 45 then (true, r) else if b = 43 then (false, r) else (false, b :: r)

def intRange (x : Int) : Option Int := if -2 ^ 63 ≤ x ∧ x < 2 ^ 63 then some x else none

/-- `strconv.Atoi`; `none` is any of its errors. -/
def atoi (s : Str) : Option Int :=
  if (cutSign s).2 = [] then none
  else ((cutSign s).2.foldlM decimal 0).bind fun n => intRange (if (cutSign s).1 then -n else n)

theorem intRange_eq_some {x y : Int} (h : intRange x = some y) : -2 ^ 63 ≤ y ∧ y < 2 ^ 63 := by
  unfold intRange at h
  split at h
  · rename_i hx
    rw [← Option.some.inj h]; exact hx
  · cases h

theorem atoi_bounds {s : Str} (h : atoi s = some x) : -2 ^ 63 ≤ x ∧ x < 2 ^ 63 := by
  unfold atoi at h
  split at h
  · cases h
  · obtain ⟨n, -, h⟩ := Option.bind_eq_some_iff.mp h
    exact intRange_eq_some h

example : atoi (lit "-080") = some (-80) ∧ atoi (lit "9223372036854775808") = none ∧ atoi (lit "+") = none := by decide

inductive NatType
  | easyNAT
  | hardNAT
  deriving DecidableEq

inductive NatBehavior
  | noChange
  | ipChanged
  | portChanged
  | bothChanged
  deriving DecidableEq

structure NatFeature where
  natType : NatType
  behavior : NatBehavior
  portsDifference : Int
  regularPortsChange : Bool
  publicNetwork : Bool
  deriving DecidableEq

def NatType.text : NatType → Str
  | easyNAT => lit "EasyNAT"
  | hardNAT => lit "HardNAT"

def NatBehavior.text : NatBehavior → Str
  | noChange => lit "BehaviorNoChange"
  | ipChanged => lit "BehaviorIPChanged"
  | portChanged => lit "BehaviorPortChanged"
  | bothChanged => lit "BehaviorBothChanged"

structure NatAddr where
  ip : Str
  port : Str
  portNum : Int
  deriving DecidableEq

def parseAddr [NetErrors] (addr : Str) : Except Str NatAddr :=
  match addr.splitHostPort with
  | none => .error (NetErrors.splitHostPort addr)
  | some (ip, port) =>
    match atoi port with
    | none => .error (NetErrors.atoi port)
    | some portNum => .ok ⟨ip, port, portNum⟩

structure NatScan where
  publicNetwork : Bool := false
  ipChanged : Bool := false
  portChanged : Bool := false
  baseIP : Str := []
  basePort : Str := []
  portMax : Int := 0
  portMin : Int := 0

namespace NatScan

def address (localIPs : List Str) (s : NatScan) (a : NatAddr) : NatScan :=
  if s.baseIP = [] then
    { s with
      publicNetwork := s.publicNetwork || localIPs.contains a.ip
      baseIP := a.ip
      basePort := a.port
      portMax := a.portNum
      portMin := a.portNum }
  else
    { s with
      publicNetwork := s.publicNetwork || localIPs.contains a.ip
      portMax := max s.portMax a.portNum
      portMin := min s.portMin a.portNum
      ipChanged := s.ipChanged || s.baseIP != a.ip
      portChanged := s.portChanged || s.basePort != a.port }

def addresses [NetErrors] (localIPs : List Str) (s : NatScan) : List Str → Except Str NatScan
  | [] => .ok s
  | addr :: rest =>
    match parseAddr addr with
    | .error err => .error err
    | .ok a => (s.address localIPs a).addresses localIPs rest

def behavior (s : NatScan) : NatBehavior :=
  match s.ipChanged, s.portChanged with
  | true, true => .bothChanged
  | true, false => .ipChanged
  | false, true => .portChanged
  | false, false => .noChange

def feature (s : NatScan) : NatFeature :=
  let difference := if s.behavior = .portChanged then wrapInt (s.portMax - s.portMin) else 0
  { natType := if s.behavior = .noChange then .easyNAT else .hardNAT
    behavior := s.behavior
    portsDifference := difference
    regularPortsChange := difference ≤ 5 && 1 ≤ difference
    publicNetwork := s.publicNetwork }

end NatScan

def classifyNATFeature [NetErrors] (addresses localIPs : List Str) : Except Str NatFeature :=
  if addresses.length ≤ 1 then .error (lit "not enough addresses")
  else (({} : NatScan).addresses localIPs addresses).map NatScan.feature

variable {a : NatAddr} {addr : Str}

theorem parseAddr_bounds [NetErrors] (h : parseAddr addr = .ok a) : -2 ^ 63 ≤ a.portNum ∧ a.portNum < 2 ^ 63 := by
  unfold parseAddr at h
  split at h
  · cases h
  · split at h
    · cases h
    · rename_i hp
      cases h; exact atoi_bounds hp

theorem parseAddr_isOk [NetErrors] (h : (parseAddr addr).isOk = true) : ∃ a, parseAddr addr = .ok a := by
  cases ha : parseAddr addr with
  | error => rw [ha] at h; cases h
  | ok a => exact ⟨a, rfl⟩

def natAddrs [NetErrors] (addrs : List Str) : List NatAddr := addrs.filterMap fun addr => (parseAddr addr).toOption

theorem natAddrs_cons [NetErrors] {rest : List Str} (h : parseAddr addr = .ok a) :
    natAddrs (addr :: rest) = a :: natAddrs rest := by
  simp [natAddrs, h, Except.toOption]

theorem natAddrs_bounds [NetErrors] {addrs : List Str} (h : a ∈ natAddrs addrs) :
    -2 ^ 63 ≤ a.portNum ∧ a.portNum < 2 ^ 63 := by
  obtain ⟨addr, -, ha⟩ := List.mem_filterMap.mp h
  cases hp : parseAddr addr with
  | error => rw [hp] at ha; cases ha
  | ok =>
    rw [hp] at ha; cases ha
    exact parseAddr_bounds hp

/-! ## What the loop finds out -/

def NatBehavior.ip : NatBehavior → Bool
  | ipChanged | bothChanged => true
  | noChange | portChanged => false

def NatBehavior.port : NatBehavior → Bool
  | portChanged | bothChanged => true
  | noChange | ipChanged => false

namespace NatScan

variable {localIPs : List Str} {s t : NatScan} {seen ps qs : List NatAddr} {a b : NatAddr}

theorem addresses_ok [NetErrors] {addrs : List Str} (h : ∀ addr ∈ addrs, (parseAddr addr).isOk = true) :
    s.addresses localIPs addrs = .ok ((natAddrs addrs).foldl (address localIPs) s) := by
  induction addrs generalizing s with
  | nil => rfl
  | cons addr rest ih =>
    have hrest := fun x hx => h x (List.mem_cons_of_mem _ hx)
    obtain ⟨a, ha⟩ := parseAddr_isOk (h addr List.mem_cons_self)
    rw [natAddrs_cons ha, addresses, ha, List.foldl_cons]; exact ih hrest

theorem foldl_publicNetwork :
    (ps.foldl (address localIPs) s).publicNetwork = true ↔ s.publicNetwork = true ∨ ∃ a ∈ ps, a.ip ∈ localIPs := by
  induction ps generalizing s with
  | nil => simp
  | cons a ps ih =>
    have hstep : (s.address localIPs a).publicNetwork = (s.publicNetwork || localIPs.contains a.ip) := by
      unfold address
      split <;> rfl
    rw [List.foldl_cons, ih, hstep]; simp [or_assoc]

structure Follows (b : NatAddr) (seen : List NatAddr) (s : NatScan) : Prop where
  base : s.baseIP = b.ip ∧ s.basePort = b.port
  ip : s.ipChanged = true ↔ ∃ a ∈ seen, a.ip ≠ b.ip
  port : s.portChanged = true ↔ ∃ a ∈ seen, a.port ≠ b.port
  max : ∀ a ∈ seen, a.portNum ≤ s.portMax
  min : ∀ a ∈ seen, s.portMin ≤ a.portNum
  maxSeen : ∃ a ∈ seen, a.portNum = s.portMax
  minSeen : ∃ a ∈ seen, a.portNum = s.portMin

theorem Follows.address (h : Follows b seen s) (hb : b.ip ≠ []) (a : NatAddr) :
    Follows b (seen ++ [a]) (s.address localIPs a) := by
  have hbase : s.baseIP ≠ [] := h.base.1 ▸ hb
  simp only [NatScan.address, if_neg hbase]
  constructor
  · exact h.base
  · simp only [Bool.or_eq_true, h.ip, h.base.1, bne_iff_ne, List.mem_append, List.mem_singleton, or_and_right,
      exists_or, exists_eq_left, ne_comm]
  · simp only [Bool.or_eq_true, h.port, h.base.2, bne_iff_ne, List.mem_append, List.mem_singleton, or_and_right,
      exists_or, exists_eq_left, ne_comm]
  · intro x hx
    rcases List.mem_append.mp hx with hx | hx
    · exact Int.le_trans (h.max x hx) (Int.le_max_left _ _)
    · rw [List.mem_singleton.mp hx]; exact Int.le_max_right _ _
  · intro x hx
    rcases List.mem_append.mp hx with hx | hx
    · exact Int.le_trans (Int.min_le_left _ _) (h.min x hx)
    · rw [List.mem_singleton.mp hx]; exact Int.min_le_right _ _
  · obtain ⟨x, hx, hmax⟩ := h.maxSeen
    rcases Int.le_total s.portMax a.portNum with hle | hle
    · exact ⟨a, by simp, (Int.max_eq_right hle).symm⟩
    · exact ⟨x, List.mem_append_left _ hx, hmax.trans (Int.max_eq_left hle).symm⟩
  · obtain ⟨x, hx, hmin⟩ := h.minSeen
    rcases Int.le_total s.portMin a.portNum with hle | hle
    · exact ⟨x, List.mem_append_left _ hx, hmin.trans (Int.min_eq_left hle).symm⟩
    · exact ⟨a, by simp, (Int.min_eq_right hle).symm⟩

theorem Follows.foldl (hb : b.ip ≠ []) : ∀ {rest seen : List NatAddr} {s : NatScan}, Follows b seen s →
    Follows b (seen ++ rest) (rest.foldl (NatScan.address localIPs) s) := by
  intro rest
  induction rest with
  | nil =>
    intro seen s h
    rw [List.append_nil]; exact h
  | cons a rest ih =>
    intro seen s h
    rw [List.append_cons]; exact ih (h.address hb a)

structure Describes (ps : List NatAddr) (s : NatScan) : Prop where
  ip : s.ipChanged = true ↔ ∃ a ∈ ps, ∃ b ∈ ps, a.ip ≠ b.ip
  port : s.portChanged = true ↔ ∃ a ∈ ps, ∃ b ∈ ps, a.port ≠ b.port
  max : ∀ a ∈ ps, a.portNum ≤ s.portMax
  min : ∀ a ∈ ps, s.portMin ≤ a.portNum
  maxSeen : ∃ a ∈ ps, a.portNum = s.portMax
  minSeen : ∃ a ∈ ps, a.portNum = s.portMin

theorem exists_ne_base_iff {α β : Type*} {f : α → β} {l : List α} {b : α} (hb : b ∈ l) :
    (∃ a ∈ l, f a ≠ f b) ↔ ∃ a ∈ l, ∃ c ∈ l, f a ≠ f c := by
  constructor
  · intro h
    obtain ⟨a, ha, hne⟩ := h
    exact ⟨a, ha, b, hb, hne⟩
  · rintro ⟨a, ha, c, hc, hne⟩
    by_cases hab : f a = f b
    · exact ⟨c, hc, fun hcb => hne (hab.trans hcb.symm)⟩
    · exact ⟨a, ha, hab⟩

theorem Follows.describes (h : Follows b seen s) (hb : b ∈ seen) : Describes seen s :=
  { h with
    ip := h.ip.trans (exists_ne_base_iff hb)
    port := h.port.trans (exists_ne_base_iff hb) }

theorem Describes.perm (h : Describes ps s) (hp : ps.Perm qs) : Describes qs s := by
  constructor
  · simpa only [hp.mem_iff] using h.ip
  · simpa only [hp.mem_iff] using h.port
  · simpa only [hp.mem_iff] using h.max
  · simpa only [hp.mem_iff] using h.min
  · simpa only [hp.mem_iff] using h.maxSeen
  · simpa only [hp.mem_iff] using h.minSeen

theorem Describes.portMax_eq (h : Describes ps s) (h' : Describes ps t) : s.portMax = t.portMax := by
  obtain ⟨a, ha, hs⟩ := h.maxSeen
  obtain ⟨b, hb, ht⟩ := h'.maxSeen
  exact Int.le_antisymm (hs ▸ h'.max a ha) (ht ▸ h.max b hb)

theorem Describes.portMin_eq (h : Describes ps s) (h' : Describes ps t) : s.portMin = t.portMin := by
  obtain ⟨a, ha, hs⟩ := h.minSeen
  obtain ⟨b, hb, ht⟩ := h'.minSeen
  exact Int.le_antisymm (ht ▸ h.min b hb) (hs ▸ h'.min a ha)

theorem behavior_ip (s : NatScan) : s.feature.behavior.ip = s.ipChanged := by
  cases hi : s.ipChanged <;> cases hp : s.portChanged <;> simp [feature, behavior, NatBehavior.ip, hi, hp]

theorem behavior_port (s : NatScan) : s.feature.behavior.port = s.portChanged := by
  cases hi : s.ipChanged <;> cases hp : s.portChanged <;> simp [feature, behavior, NatBehavior.port, hi, hp]

theorem natType_eq_easyNAT (s : NatScan) :
    s.feature.natType = .easyNAT ↔ s.ipChanged = false ∧ s.portChanged = false := by
  cases hi : s.ipChanged <;> cases hp : s.portChanged <;> simp [feature, behavior, hi, hp]

theorem behavior_eq_portChanged (s : NatScan) :
    s.behavior = .portChanged ↔ s.ipChanged = false ∧ s.portChanged = true := by
  cases hi : s.ipChanged <;> cases hp : s.portChanged <;> simp [behavior, hi, hp]

theorem wrapInt_sub_regular {x y : Int} (hx : x < 2 ^ 63) (hy : -2 ^ 63 ≤ y) (hle : y ≤ x) :
    (wrapInt (x - y) ≤ 5 ∧ 1 ≤ wrapInt (x - y)) ↔ (x - y ≤ 5 ∧ 1 ≤ x - y) := by
  by_cases hlt : x - y < 2 ^ 63
  · rw [wrapInt_eq (by omega) hlt]
  · rw [wrapInt_over (by omega) (by omega)]; omega

theorem Describes.regular (h : Describes ps s) (hps : ∀ a ∈ ps, -2 ^ 63 ≤ a.portNum ∧ a.portNum < 2 ^ 63) :
    s.feature.regularPortsChange = true ↔
      s.ipChanged = false ∧ s.portChanged = true ∧ s.portMax - s.portMin ≤ 5 ∧ 1 ≤ s.portMax - s.portMin := by
  obtain ⟨a, ha, hmax⟩ := h.maxSeen
  obtain ⟨b, hb, hmin⟩ := h.minSeen
  have hsub := wrapInt_sub_regular (hmax ▸ (hps a ha).2) (hmin ▸ (hps b hb).1) (hmax ▸ h.min a ha)
  simp only [feature, Bool.and_eq_true, decide_eq_true_eq]
  by_cases hc : s.behavior = .portChanged
  · obtain ⟨hip, hport⟩ := (behavior_eq_portChanged s).mp hc
    simp only [if_pos hc, hip, hport, true_and]; exact hsub
  · rw [if_neg hc]
    constructor
    · intro h; omega
    · intro h; exact absurd ((behavior_eq_portChanged s).mpr ⟨h.1, h.2.1⟩) hc

end NatScan

/-! ## The features of a list -/

def SameHost (ps : List NatAddr) : Prop := ∀ a ∈ ps, ∀ b ∈ ps, a.ip = b.ip

def SamePort (ps : List NatAddr) : Prop := ∀ a ∈ ps, ∀ b ∈ ps, a.port = b.port

def PortSpread (ps : List NatAddr) (d : Int) : Prop :=
  ∃ hi ∈ ps, ∃ lo ∈ ps, (∀ a ∈ ps, lo.portNum ≤ a.portNum ∧ a.portNum ≤ hi.portNum) ∧ hi.portNum - lo.portNum = d

def comparedAddrs (ps : List NatAddr) : List NatAddr := ps.dropWhile fun a => a.ip = []

def hosted (ps : List NatAddr) : List NatAddr := ps.filter fun a => a.ip ≠ []

structure NatFeature.Fits (f : NatFeature) (ps : List NatAddr) : Prop where
  easy : f.natType = .easyNAT ↔ SameHost ps ∧ SamePort ps
  ip : f.behavior.ip = true ↔ ¬ SameHost ps
  port : f.behavior.port = true ↔ ¬ SamePort ps
  regular : f.regularPortsChange = true ↔ SameHost ps ∧ ¬ SamePort ps ∧ ∃ d, PortSpread ps d ∧ 1 ≤ d ∧ d ≤ 5

namespace NatScan

variable {localIPs : List Str} {s t : NatScan} {ps qs : List NatAddr}

theorem Describes.sameHost (h : Describes ps s) : s.ipChanged = false ↔ SameHost ps := by
  rw [← Bool.not_eq_true, h.ip]; simp only [SameHost, not_exists, not_and, not_not]

theorem Describes.samePort (h : Describes ps s) : s.portChanged = false ↔ SamePort ps := by
  rw [← Bool.not_eq_true, h.port]; simp only [SamePort, not_exists, not_and, not_not]

theorem Describes.portSpread (h : Describes ps s) (d : Int) : PortSpread ps d ↔ s.portMax - s.portMin = d := by
  obtain ⟨x, hx, hmax⟩ := h.maxSeen
  obtain ⟨y, hy, hmin⟩ := h.minSeen
  constructor
  · intro hd
    obtain ⟨hi, hhi, lo, hlo, hall, hd⟩ := hd
    have h1 := (hall x hx).2
    have h2 := (hall y hy).1
    have h3 := h.max hi hhi
    have h4 := h.min lo hlo
    omega
  · intro hd
    refine ⟨x, hx, y, hy, fun a ha => ⟨?_, ?_⟩, by omega⟩
    · rw [hmin]; exact h.min a ha
    · rw [hmax]; exact h.max a ha

theorem Describes.fits (h : Describes ps s) (hps : ∀ a ∈ ps, -2 ^ 63 ≤ a.portNum ∧ a.portNum < 2 ^ 63) :
    s.feature.Fits ps where
  easy := by rw [natType_eq_easyNAT, h.sameHost, h.samePort]
  ip := by rw [behavior_ip, ← h.sameHost, Bool.not_eq_false]
  port := by rw [behavior_port, ← h.samePort, Bool.not_eq_false]
  regular := by
    rw [h.regular hps, h.sameHost, ← h.samePort, Bool.not_eq_false]
    simp only [h.portSpread, exists_eq_left']
    rw [and_comm (a := _ ≤ (5 : Int))]

structure Fresh (s : NatScan) : Prop where
  base : s.baseIP = []
  ip : s.ipChanged = false
  port : s.portChanged = false

theorem Fresh.address (h : Fresh s) {a : NatAddr} (ha : a.ip = []) : Fresh (s.address localIPs a) := by
  simp only [NatScan.address, if_pos h.base]; exact ⟨ha, h.ip, h.port⟩

theorem Fresh.follows (h : Fresh s) (b : NatAddr) : Follows b [b] (s.address localIPs b) := by
  simp only [NatScan.address, if_pos h.base]
  constructor <;> simp [h.ip, h.port]

theorem Fresh.fits (h : Fresh s) : s.feature.Fits [] where
  easy := by simp [natType_eq_easyNAT, h.ip, h.port, SameHost, SamePort]
  ip := by simp [behavior_ip, h.ip, SameHost]
  port := by simp [behavior_port, h.port, SamePort]
  regular := by simp [feature, behavior, h.ip, h.port, SamePort]

variable (localIPs ps) in
theorem Fresh.foldl (h : Fresh s) :
    comparedAddrs ps = [] ∧ Fresh (ps.foldl (NatScan.address localIPs) s) ∨
      Describes (comparedAddrs ps) (ps.foldl (NatScan.address localIPs) s) := by
  induction ps generalizing s with
  | nil => exact .inl ⟨rfl, h⟩
  | cons a ps ih =>
    by_cases ha : a.ip = []
    · rw [comparedAddrs, List.dropWhile_cons_of_pos (by simpa using ha)]; exact ih (h.address ha)
    · -- the base is `a`, and all that follow are compared with it
      rw [comparedAddrs, List.dropWhile_cons_of_neg (by simpa using ha)]
      exact .inr (((h.follows a).foldl ha).describes List.mem_cons_self)

end NatScan

/-! ## Addresses without a host -/

theorem comparedAddrs_eq {ps : List NatAddr} (h : ∀ a ∈ ps, a.ip ≠ []) : comparedAddrs ps = ps := by
  cases ps with
  | nil => rfl
  | cons a => exact List.dropWhile_cons_of_neg (by simpa using h a List.mem_cons_self)

theorem comparedAddrs_subset (ps : List NatAddr) : comparedAddrs ps ⊆ ps := (List.dropWhile_sublist _).subset

theorem hosted_subset (ps : List NatAddr) : hosted ps ⊆ comparedAddrs ps := by
  intro a ha
  obtain ⟨hmem, hip⟩ := List.mem_filter.mp ha
  rw [← List.takeWhile_append_dropWhile (p := fun a : NatAddr => a.ip = []) (l := ps)] at hmem
  rcases List.mem_append.mp hmem with hmem | hmem
  · exact absurd (List.mem_takeWhile_imp hmem) (by simpa using hip)
  · exact hmem

/-- Whether hosts or ports differ can be told from the addresses with a host alone. -/
structure ToldByHosted (ps : List NatAddr) : Prop where
  host : SameHost (hosted ps) → SameHost ps
  port : SamePort (hosted ps) → SamePort ps

namespace ToldByHosted

variable {localIPs : List Str} {f : NatFeature} {ps qs : List NatAddr}

variable (h : ToldByHosted ps)
include h

theorem perm (hp : ps.Perm qs) : ToldByHosted qs := by
  have hf : ∀ {a}, a ∈ hosted ps ↔ a ∈ hosted qs := (hp.filter _).mem_iff
  constructor
  · simpa only [SameHost, hf, hp.mem_iff] using h.host
  · simpa only [SamePort, hf, hp.mem_iff] using h.port

theorem sameHost_iff : SameHost (comparedAddrs ps) ↔ SameHost ps :=
  ⟨fun hs => h.host fun a ha b hb => hs a (hosted_subset ps ha) b (hosted_subset ps hb),
    fun hs a ha b hb => hs a (comparedAddrs_subset ps ha) b (comparedAddrs_subset ps hb)⟩

theorem samePort_iff : SamePort (comparedAddrs ps) ↔ SamePort ps :=
  ⟨fun hs => h.port fun a ha b hb => hs a (hosted_subset ps ha) b (hosted_subset ps hb),
    fun hs a ha b hb => hs a (comparedAddrs_subset ps ha) b (comparedAddrs_subset ps hb)⟩

theorem compared_all (hhost : SameHost ps) (hport : ¬ SamePort ps) : comparedAddrs ps = ps := by
  obtain ⟨a, ha⟩ : ∃ a, a ∈ hosted ps := by
    by_contra hnone
    exact hport (h.port fun a ha => absurd ⟨a, ha⟩ hnone)
  obtain ⟨hmem, hip⟩ := List.mem_filter.mp ha
  exact comparedAddrs_eq fun b hb => hhost a hmem b hb ▸ by simpa using hip

theorem fits (hf : f.Fits (comparedAddrs ps)) : f.Fits ps where
  easy := by rw [hf.easy, h.sameHost_iff, h.samePort_iff]
  ip := by rw [hf.ip, h.sameHost_iff]
  port := by rw [hf.port, h.samePort_iff]
  regular := by
    rw [hf.regular, h.sameHost_iff, h.samePort_iff]
    refine and_congr_right fun hhost => and_congr_right fun hport => ?_
    rw [h.compared_all hhost hport]

end ToldByHosted

theorem NatFeature.Fits.perm {f : NatFeature} {ps qs : List NatAddr} (h : f.Fits ps) (hp : ps.Perm qs) : f.Fits qs := by
  constructor
  · simpa only [SameHost, SamePort, hp.mem_iff] using h.easy
  · simpa only [SameHost, hp.mem_iff] using h.ip
  · simpa only [SamePort, hp.mem_iff] using h.port
  · simpa only [SameHost, SamePort, PortSpread, hp.mem_iff] using h.regular

theorem NatScan.feature_eq {s t : NatScan} {ps : List NatAddr} (hs : s.feature.Fits ps) (ht : t.feature.Fits ps)
    (hnet : s.publicNetwork = t.publicNetwork)
    (hd : SameHost ps → ¬ SamePort ps → s.portMax = t.portMax ∧ s.portMin = t.portMin) : s.feature = t.feature := by
  have hip : s.ipChanged = t.ipChanged := by
    rw [← behavior_ip, ← behavior_ip]; exact Bool.eq_iff_iff.mpr (hs.ip.trans ht.ip.symm)
  have hport : s.portChanged = t.portChanged := by
    rw [← behavior_port, ← behavior_port]; exact Bool.eq_iff_iff.mpr (hs.port.trans ht.port.symm)
  have hb : s.behavior = t.behavior := by rw [behavior, behavior, hip, hport]
  by_cases hc : s.behavior = .portChanged
  · obtain ⟨hi, hp⟩ := (behavior_eq_portChanged s).mp hc
    have hhost : SameHost ps := by
      by_contra hne
      exact absurd (hs.ip.mpr hne) (by simp [behavior_ip, hi])
    obtain ⟨hmax, hmin⟩ := hd hhost (hs.port.mp (by rw [behavior_port, hp]))
    simp only [feature, hb, hnet, hmax, hmin]
  · simp only [feature, hb, hnet, if_neg (hb ▸ hc)]

section
variable [NetErrors] {addresses : List Str} (localIPs : List Str)

theorem classifyNATFeature_ok (hlen : 2 ≤ addresses.length) (hok : ∀ addr ∈ addresses, (parseAddr addr).isOk = true) :
    classifyNATFeature addresses localIPs =
      .ok ((natAddrs addresses).foldl (NatScan.address localIPs) {}).feature := by
  rw [classifyNATFeature, if_neg (by omega), NatScan.addresses_ok hok]; rfl

theorem foldl_fits (addrs : List Str) :
    ((natAddrs addrs).foldl (NatScan.address localIPs) {}).feature.Fits (comparedAddrs (natAddrs addrs)) := by
  have hfresh : NatScan.Fresh {} := ⟨rfl, rfl, rfl⟩
  rcases hfresh.foldl localIPs (natAddrs addrs) with ⟨hnil, hf⟩ | hd
  · rw [hnil]; exact hf.fits
  · exact hd.fits fun a ha => natAddrs_bounds (comparedAddrs_subset _ ha)

theorem ToldByHosted.foldl_perm {addrs others : List Str} (h : ToldByHosted (natAddrs addrs)) (hp : others.Perm addrs) :
    ((natAddrs others).foldl (NatScan.address localIPs) {}).feature =
      ((natAddrs addrs).foldl (NatScan.address localIPs) {}).feature := by
  have hps : (natAddrs others).Perm (natAddrs addrs) := hp.filterMap _
  have h' := h.perm hps.symm
  refine NatScan.feature_eq ((h'.fits (foldl_fits localIPs others)).perm hps) (h.fits (foldl_fits localIPs addrs)) ?_ ?_
  · rw [Bool.eq_iff_iff, NatScan.foldl_publicNetwork, NatScan.foldl_publicNetwork]
    simp only [hps.mem_iff]
  · intro hhost hport
    have hfresh : NatScan.Fresh {} := ⟨rfl, rfl, rfl⟩
    -- all addresses have a host, so both loops have compared all
    have hall : ∀ {ps : List NatAddr}, ps.Perm (natAddrs addrs) →
        NatScan.Describes (natAddrs addrs) (ps.foldl (NatScan.address localIPs) {}) := by
      intro ps hperm
      have hwhole := (h.perm hperm.symm).compared_all (by simpa only [SameHost, hperm.mem_iff] using hhost)
        (by simpa only [SamePort, hperm.mem_iff] using hport)
      rcases hfresh.foldl localIPs ps with ⟨hnil, -⟩ | hd
      · have hempty := (hwhole.symm.trans hnil ▸ hperm).nil_eq
        exact absurd (fun a ha => by simp [← hempty] at ha) hport
      · exact (hwhole ▸ hd).perm hperm
    exact ⟨(hall hps).portMax_eq (hall (List.Perm.refl _)), (hall hps).portMin_eq (hall (List.Perm.refl _))⟩

theorem exists_hosted_last (addrs : List Str) : ∃ others : List Str, others.Perm addrs ∧
    comparedAddrs (natAddrs others) = hosted (natAddrs addrs) := by
  let bare : Str → Bool := fun addr => (parseAddr addr).toOption.any fun a => a.ip = []
  have hbare : ∀ a ∈ natAddrs (addrs.filter bare), a.ip = [] := by
    intro a ha
    obtain ⟨addr, hmem, hparse⟩ := List.mem_filterMap.mp ha
    simpa [bare, hparse] using (List.mem_filter.mp hmem).2
  have hrest : natAddrs (addrs.filter fun addr => !bare addr) = hosted (natAddrs addrs) := by
    rw [natAddrs, List.filterMap_filter, hosted, natAddrs, List.filter_filterMap]
    congr 1
    funext addr
    cases ha : (parseAddr addr).toOption <;> simp [bare, ha, Option.filter]
  refine ⟨_, List.filter_append_perm bare addrs, ?_⟩
  rw [natAddrs, List.filterMap_append, comparedAddrs,
    List.dropWhile_append_of_pos fun a ha => by simpa using hbare a ha]
  exact (congrArg comparedAddrs hrest).trans
    (comparedAddrs_eq fun a ha => by simpa [hosted] using (List.mem_filter.mp ha).2)

/-- The feature is that of the addresses from the first one with a host on. It is that of the whole
list, in whatever order, just when the addresses without a host make no difference of their own. -/
theorem nat_feature_fits (hlen : 2 ≤ addresses.length) (hok : ∀ addr ∈ addresses, (parseAddr addr).isOk = true) :
    ∃ f, classifyNATFeature addresses localIPs = .ok f ∧ f.Fits (comparedAddrs (natAddrs addresses)) ∧
      ((f.Fits (natAddrs addresses) ∧
        ∀ others : List Str, others.Perm addresses → classifyNATFeature others localIPs = .ok f) ↔
        ToldByHosted (natAddrs addresses)) := by
  have hperm : ∀ others : List Str, others.Perm addresses → classifyNATFeature others localIPs =
      .ok ((natAddrs others).foldl (NatScan.address localIPs) {}).feature := fun others hp =>
    classifyNATFeature_ok localIPs (hp.length_eq ▸ hlen) fun addr h => hok addr (hp.mem_iff.mp h)
  refine ⟨_, classifyNATFeature_ok localIPs hlen hok, foldl_fits localIPs addresses, fun h => ?_, fun h => ?_⟩
  · obtain ⟨others, hp, hlast⟩ := exists_hosted_last addresses
    have hsame := (hperm others hp).symm.trans (h.2 others hp)
    have hfits := foldl_fits localIPs others
    rw [hlast, Except.ok.inj hsame] at hfits
    exact ⟨not_imp_not.mp fun hne => hfits.ip.mp (h.1.ip.mpr hne),
      not_imp_not.mp fun hne => hfits.port.mp (h.1.port.mpr hne)⟩
  · refine ⟨h.fits (foldl_fits localIPs addresses), fun others hp => ?_⟩
    rw [hperm others hp, h.foldl_perm localIPs hp]

end

@[reducible] def NetErrors.plain : NetErrors := ⟨id, id⟩

theorem nat_feature_fits_three :
    (∀ addr ∈ [lit "1.1.1.1:80", lit ":80", lit "2.2.2.2:80"], (@parseAddr NetErrors.plain addr).isOk = true) ∧
      ∃ f, @classifyNATFeature NetErrors.plain [lit "1.1.1.1:80", lit ":80", lit "2.2.2.2:80"] [] = .ok f ∧
        f.Fits (@natAddrs NetErrors.plain [lit "1.1.1.1:80", lit ":80", lit "2.2.2.2:80"]) ∧
        f.behavior = .ipChanged := by
  have hok : ∀ addr ∈ [lit "1.1.1.1:80", lit ":80", lit "2.2.2.2:80"],
      (@parseAddr NetErrors.plain addr).isOk = true := by decide
  obtain ⟨f, hf, -, hiff⟩ := @nat_feature_fits NetErrors.plain _ [] (by decide) hok
  have htold : ToldByHosted (@natAddrs NetErrors.plain [lit "1.1.1.1:80", lit ":80", lit "2.2.2.2:80"]) :=
    ⟨fun h => absurd h (by unfold SameHost; decide), fun _ => by unfold SamePort; decide⟩
  refine ⟨hok, f, hf, (hiff.mpr htold).1, ?_⟩
  cases hf
  decide

theorem nat_feature_empty_host :
    (∀ addr ∈ [lit ":8000", lit "1.2.3.4:8003"], (@parseAddr NetErrors.plain addr).isOk = true) ∧
      @classifyNATFeature NetErrors.plain [lit ":8000", lit "1.2.3.4:8003"] [] =
        .ok ⟨.easyNAT, .noChange, 0, false, false⟩ ∧
      @classifyNATFeature NetErrors.plain [lit "1.2.3.4:8003", lit ":8000"] [] =
        .ok ⟨.hardNAT, .bothChanged, 0, false, false⟩ := by
  refine ⟨by decide, by decide, by decide⟩

end Frp
