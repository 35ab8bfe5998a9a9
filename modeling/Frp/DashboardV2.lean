import Frp.MetricsSound

/-!
# The proxy list of the dashboard

`listV2ProxyStats` of `server/http/controller_v2.go` over `GetProxiesByType` of
`pkg/metrics/mem/server.go`: one scan of the statistics, in any order, for each type in
`apiV2ProxyTypes`.
-/

namespace Frp

inductive ProxyType
  | tcp
  | udp
  | tcpmux
  | http
  | https
  | stcp
  | xtcp
  | sudp
  | xudp
  deriving DecidableEq

def ProxyType.string : ProxyType → Str
  | tcp => lit "tcp"
  | udp => lit "udp"
  | tcpmux => lit "tcpmux"
  | http => lit "http"
  | https => lit "https"
  | stcp => lit "stcp"
  | xtcp => lit "xtcp"
  | sudp => lit "sudp"
  | xudp => lit "xudp"

def proxyConfigTypeMap : List ProxyType := [.tcp, .udp, .http, .https, .tcpmux, .stcp, .xtcp, .sudp, .xudp]

def apiV2ProxyTypes : List Str :=
  [ProxyType.tcp.string, ProxyType.udp.string, ProxyType.http.string, ProxyType.https.string,
    ProxyType.tcpmux.string, ProxyType.stcp.string, ProxyType.xtcp.string, ProxyType.sudp.string]

structure ProxyStats where
  name : Str
  proxyType : Str
  user : Str
  clientID : Str
  curConns : Int32
  lastStartAt : Nat
  lastCloseAt : Nat

def toProxyStats (name : Str) (proxyStats : ProxyStatistics) : ProxyStats where
  name := name
  proxyType := proxyStats.proxyType
  user := proxyStats.user
  clientID := proxyStats.clientID
  curConns := proxyStats.curConns
  lastStartAt := proxyStats.lastStartTime
  lastCloseAt := proxyStats.lastCloseTime

def getProxiesByType (range : List (Str × ProxyStatistics)) (proxyType : Str) : List ProxyStats :=
  range.filterMap fun x => if x.2.proxyType ≠ proxyType then none else some (toProxyStats x.1 x.2)

def listV2ProxyStats (ranges : Str → List (Str × ProxyStatistics)) (proxyType : Str) : List ProxyStats :=
  if proxyType ≠ [] then getProxiesByType (ranges proxyType) proxyType
  else apiV2ProxyTypes.flatMap fun t => getProxiesByType (ranges t) t

open ProxyStats

namespace ServerMetrics

def Ranges (m : ServerMetrics) (range : List (Str × ProxyStatistics)) : Prop :=
  (range.map Prod.fst).Nodup ∧ ∀ n st, (n, st) ∈ range ↔ m.proxyStatistics n = some st

def Accepts : MetricsCall → Prop
  | .newProxy _ proxyType _ _ => ∃ t ∈ proxyConfigTypeMap, proxyType = t.string
  | _ => True

def AcceptedStep (m : ServerMetrics) (e : Nat × MetricsCall) (m' : ServerMetrics) : Prop :=
  Accepts e.2 ∧ m' = m.call e.1 e.2

structure ListsAll (m : ServerMetrics) (items : List ProxyStats) : Prop where
  once : (items.map ProxyStats.name).Nodup
  all : ∀ n st, m.proxyStatistics n = some st → toProxyStats n st ∈ items
  only : ∀ x ∈ items, ∃ st, m.proxyStatistics x.name = some st ∧ x = toProxyStats x.name st

variable {m m' : ServerMetrics} {ranges : Str → List (Str × ProxyStatistics)} {range : List (Str × ProxyStatistics)}

/-! ## The types of the entries -/

def Typed (m : ServerMetrics) : Prop :=
  ∀ n st, m.proxyStatistics n = some st → ∃ t ∈ proxyConfigTypeMap, st.proxyType = t.string

theorem Typed.set (h : m.Typed) {name : Str} {o : Option ProxyStatistics}
    (ho : ∀ st, o = some st → ∃ t ∈ proxyConfigTypeMap, st.proxyType = t.string) : (m.set name o).Typed := by
  intro n st hst
  by_cases hn : n = name
  · subst hn; exact ho st ((set_at o).symm.trans hst)
  · exact h n st ((set_other o hn).symm.trans hst)

theorem Typed.modify (h : m.Typed) {name : Str} {f : ProxyStatistics → ProxyStatistics}
    (hf : ∀ st, (f st).proxyType = st.proxyType) : (m.modify name f).Typed := by
  refine h.set fun st hst => ?_
  obtain ⟨st', hst', rfl⟩ := Option.map_eq_some_iff.mp hst
  rw [hf]; exact h name st' hst'

theorem entry_type (name proxyType : Str) : (m.entry name proxyType).proxyType = proxyType := by
  unfold entry
  split
  · split
    · rfl
    · rename_i hne
      exact not_not.mp hne
  · rfl

theorem Typed.clear (h : m.Typed) (now d : Nat) : (m.clearUselessInfo now d).Typed :=
  fun n st hst => h n st (clear_eq_some hst)

theorem AcceptedStep.typed {e : Nat × MetricsCall} (hst : AcceptedStep m e m') (h : m.Typed) : m'.Typed := by
  obtain ⟨now, c⟩ := e
  obtain ⟨hacc, rfl⟩ := hst
  cases c with
  | newProxy name proxyType =>
    refine Typed.set h fun st hst => ?_
    cases hst
    obtain ⟨t, ht, hname⟩ := hacc
    exact ⟨t, ht, (entry_type name proxyType).trans hname⟩
  | closeProxy | openConnection | closeConnection => exact Typed.modify h fun _ => rfl
  | clearUselessInfo d => exact h.clear now d
  | pruneOfflineProxies => exact h.clear now 0

theorem typed_of_reach (h : Reach (· = {}) AcceptedStep m) : m.Typed := by
  refine h.invariant ?_ fun _ _ _ _ hi hst => hst.typed hi
  intro m hm n st hst
  rw [hm] at hst; cases hst

/-! ## The scans -/

theorem mem_getProxiesByType (hr : m.Ranges range) {proxyType : Str} {x : ProxyStats} :
    x ∈ getProxiesByType range proxyType ↔
      ∃ n st, m.proxyStatistics n = some st ∧ st.proxyType = proxyType ∧ x = toProxyStats n st := by
  simp only [getProxiesByType, List.mem_filterMap]
  constructor
  · intro hx
    obtain ⟨⟨n, st⟩, hmem, hx⟩ := hx
    split at hx
    · cases hx
    · rename_i htype
      exact ⟨n, st, (hr.2 n st).mp hmem, not_not.mp htype, (Option.some.inj hx).symm⟩
  · rintro ⟨n, st, hst, htype, rfl⟩
    exact ⟨(n, st), (hr.2 n st).mpr hst, if_neg (not_not.mpr htype)⟩

theorem getProxiesByType_nodup (hr : m.Ranges range) (proxyType : Str) :
    ((getProxiesByType range proxyType).map name).Nodup := by
  -- the names are those of the entries that are kept
  have hnames : (getProxiesByType range proxyType).map name =
      (range.filter fun x => x.2.proxyType = proxyType).map Prod.fst := by
    rw [getProxiesByType, ← List.filterMap_eq_filter, List.map_filterMap, List.map_filterMap]
    refine List.filterMap_congr fun x _ => ?_
    by_cases hx : x.2.proxyType = proxyType <;> simp [hx, toProxyStats, Option.guard]
  rw [hnames]; exact hr.1.sublist (List.filter_sublist.map Prod.fst)

theorem mem_listV2ProxyStats (hr : ∀ t, m.Ranges (ranges t)) {x : ProxyStats} :
    x ∈ listV2ProxyStats ranges [] ↔
      ∃ n st, m.proxyStatistics n = some st ∧ st.proxyType ∈ apiV2ProxyTypes ∧ x = toProxyStats n st := by
  simp only [listV2ProxyStats, ne_eq, not_true_eq_false, if_false, List.mem_flatMap, mem_getProxiesByType (hr _)]
  constructor
  · intro hx
    obtain ⟨t, ht, n, st, hst, rfl, hx⟩ := hx
    exact ⟨n, st, hst, ht, hx⟩
  · intro hx
    obtain ⟨n, st, hst, ht, hx⟩ := hx
    exact ⟨st.proxyType, ht, n, st, hst, rfl, hx⟩

-- A name has one entry, which has one type, so no two scans list it.
theorem listV2ProxyStats_nodup (hr : ∀ t, m.Ranges (ranges t)) :
    ((listV2ProxyStats ranges []).map name).Nodup := by
  have htypes : apiV2ProxyTypes.Nodup := by decide
  simp only [listV2ProxyStats, ne_eq, not_true_eq_false, if_false, List.map_flatMap, List.nodup_flatMap]
  refine ⟨fun t _ => getProxiesByType_nodup (hr t) t, htypes.imp fun hne name hs ht => ?_⟩
  obtain ⟨x, hx, hxname⟩ := List.mem_map.mp hs
  obtain ⟨y, hy, hyname⟩ := List.mem_map.mp ht
  obtain ⟨n, st, hst, hstype, rfl⟩ := (mem_getProxiesByType (hr _)).mp hx
  obtain ⟨n', st', hst', httype, rfl⟩ := (mem_getProxiesByType (hr _)).mp hy
  obtain rfl : n' = n := hyname.trans hxname.symm
  rw [hst] at hst'; cases hst'
  exact hne (hstype.symm.trans httype)

theorem listed_type_iff (t : ProxyType) : t.string ∈ apiV2ProxyTypes ↔ t ≠ .xudp := by
  cases t <;> decide

theorem ranges_newProxy (name proxyType : Str) :
    (({} : ServerMetrics).newProxy 1 name proxyType [] []).Ranges
      [(name, { name, proxyType, lastStartTime := 1 })] := by
  refine ⟨List.nodup_singleton _, fun n st => ?_⟩
  rw [List.mem_singleton, newProxy_eq]
  by_cases hn : n = name
  · simp [hn, entry, eq_comm]
  · simp [hn]

/-- The list has every proxy exactly once if and only if there is none of type `xudp`. -/
theorem list_complete_iff (h : Reach (· = {}) AcceptedStep m) (hr : ∀ t, m.Ranges (ranges t)) :
    m.ListsAll (listV2ProxyStats ranges []) ↔
      ∀ n st, m.proxyStatistics n = some st → st.proxyType ≠ ProxyType.xudp.string := by
  have htyped := typed_of_reach h
  constructor
  · intro hall n st hst hx
    obtain ⟨n', st', hst', hmem, heq⟩ := (mem_listV2ProxyStats hr).mp (hall.all n st hst)
    have htype : st.proxyType = st'.proxyType := congrArg proxyType heq
    rw [← htype, hx, listed_type_iff] at hmem; exact hmem rfl
  · intro hno
    refine ⟨listV2ProxyStats_nodup hr, fun n st hst => ?_, fun x hx => ?_⟩
    · obtain ⟨t, -, ht⟩ := htyped n st hst
      refine (mem_listV2ProxyStats hr).mpr ⟨n, st, hst, ?_, rfl⟩
      rw [ht, listed_type_iff]
      intro hxudp; exact hno n st hst (hxudp ▸ ht)
    · obtain ⟨n, st, hst, -, rfl⟩ := (mem_listV2ProxyStats hr).mp hx
      exact ⟨st, hst, rfl⟩

theorem list_complete_tcp : ∃ (m : ServerMetrics) (ranges : Str → List (Str × ProxyStatistics)),
    Reach (· = {}) AcceptedStep m ∧ (∀ t, m.Ranges (ranges t)) ∧ (m.proxyStatistics (lit "web")).isSome ∧
    m.ListsAll (listV2ProxyStats ranges []) := by
  have h : Reach (· = {}) AcceptedStep _ := .start rfl
  have h := h.next (e := (1, MetricsCall.newProxy (lit "web") (lit "tcp") [] [])) ⟨⟨.tcp, by decide, rfl⟩, rfl⟩
  have hr := ranges_newProxy (lit "web") (lit "tcp")
  refine ⟨_, fun _ => _, h, fun _ => hr, rfl, (list_complete_iff h fun _ => hr).mpr fun n st hst => ?_⟩
  have hmem := (hr.2 n st).mpr hst
  rw [List.mem_singleton] at hmem; cases hmem
  decide

theorem xudp_not_listed : ∃ (m : ServerMetrics) (ranges : Str → List (Str × ProxyStatistics)) (st : ProxyStatistics),
    Reach (· = {}) AcceptedStep m ∧ (∀ t, m.Ranges (ranges t)) ∧ m.proxyStatistics (lit "game") = some st ∧
    st.proxyType = lit "xudp" ∧ listV2ProxyStats ranges [] = [] := by
  have h : Reach (· = {}) AcceptedStep _ := .start rfl
  have h := h.next (e := (1, MetricsCall.newProxy (lit "game") (lit "xudp") [] [])) ⟨⟨.xudp, by decide, rfl⟩, rfl⟩
  exact ⟨_, fun _ => _, _, h, fun _ => ranges_newProxy (lit "game") (lit "xudp"), rfl, rfl, by decide⟩

end ServerMetrics

end Frp
