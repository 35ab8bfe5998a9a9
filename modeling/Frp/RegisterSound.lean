import Frp.GroupUndo
import Frp.HttpGroupUndo
import Frp.PortUndo

/-!
# A failed registration

The tables after a registration that failed are those before it, for every proxy type and
wherever it failed, but for two slips.
-/

namespace Frp

open Function

structure Tables.Same (t t' : Tables) : Prop where
  tcpPorts : t.tcpPorts.SameUse t'.tcpPorts
  udpPorts : t.udpPorts.SameUse t'.udpPorts
  tcpGroups : ∀ key, t'.tcpGroups.live key = t.tcpGroups.live key
  http : t.http.Same t'.http
  https : t.https.Same t'.https
  tcpmux : t.tcpmux.Same t'.tcpmux
  listeners : t'.listeners = t.listeners
  natHole : t'.natHole = t.natHole
  pxys : t'.pxys = t.pxys

open Tables.Same PortManager VhostMux

theorem Tables.Same.refl (t : Tables) : t.Same t :=
  ⟨⟨rfl, rfl⟩, ⟨rfl, rfl⟩, fun _ => rfl, ⟨rfl, fun _ => rfl⟩, ⟨rfl, fun _ => rfl⟩, ⟨rfl, fun _ => rfl⟩, rfl, rfl, rfl⟩

section
variable [UnicodeCase]

structure Tables.Reachable (allowPorts : List PortsRange) (t : Tables) : Prop where
  tcpPorts : Reach (· = PortManager.new allowPorts) PortStep t.tcpPorts
  udpPorts : Reach (· = PortManager.new allowPorts) PortStep t.udpPorts
  http : Reach GroupCtl.Init GroupStep t.http
  https : Reach (· = Routers.new) VhostStep t.https.table.registryRouter
  tcpmux : Reach (· = Routers.new) VhostStep t.tcpmux.table.registryRouter

theorem VhostStep.sorted {tbl tbl' : Routers VhostListener} {e : VhostEvent} (h : tbl.Sorted)
    (hst : VhostStep tbl e tbl') : tbl'.Sorted := by
  cases hst with
  | listen ha => exact h.add ha
  | close => exact h.del

theorem sorted_of_reach {tbl : Routers VhostListener} (h : Reach (· = Routers.new) VhostStep tbl) : tbl.Sorted := by
  apply h.invariant
  · intro tbl h0
    subst h0; exact fun _ _ => .nil
  · intro tbl e tbl' _ hs hst; exact hst.sorted hs

def afterFailure (x : RunCtx) : RunResult → Tables
  | (t, .error _) => t
  | (t, .ok (pxy, _)) => pxy.close x.ans.later x.name t

/-! ## One entry under a name -/

variable {name : Str} {V : Type}

omit [UnicodeCase] in
theorem insertNew_some {m m' : Str → Option V} {v : V} (h : insertNew m name v = some m') :
    m name = none ∧ m' = update m name (some v) := by
  unfold insertNew at h
  split_ifs at h with hs
  exact ⟨Option.not_isSome_iff_eq_none.mp hs, (Option.some.inj h).symm⟩

omit [UnicodeCase] in
theorem insertNew_none {m : Str → Option V} {v : V} (h : insertNew m name v = none) : (m name).isSome = true := by
  unfold insertNew at h
  split_ifs at h with hs
  exact hs

omit [UnicodeCase] in
theorem insertNew_undone {m m' : Str → Option V} {v : V} (h : insertNew m name v = some m') :
    update m' name none = m := by
  obtain ⟨hn, rfl⟩ := insertNew_some h
  rw [update_idem, ← hn, update_eq_self]

theorem runVisitor_same (x : RunCtx) {conf : ProxyConf} (secretKey : Str) (allowUsers : List Str) (t : Tables)
    (hconf : (∃ sk us, conf = .stcp sk us) ∨ ∃ sk us, conf = .sudp sk us) :
    t.Same (afterFailure x (runVisitor x conf secretKey allowUsers t)) := by
  unfold runVisitor startVisitorListener visitorListen
  split
  next => exact .refl t
  next t' hl =>
    split at hl
    next => cases hl
    next ls hins =>
      cases hl
      have hback := insertNew_undone hins
      rcases hconf with ⟨sk, us, rfl⟩ | ⟨sk, us, rfl⟩
      · exact { refl t with listeners := hback }
      · exact { refl t with listeners := hback }

theorem runXTCP_same (x : RunCtx) (secretKey : Str) (allowUsers : List Str) (t : Tables) :
    t.Same (afterFailure x (runXTCP x secretKey allowUsers t)) := by
  unfold runXTCP listenClient
  split
  next => exact .refl t
  next cfgs hc =>
    split
    next => exact .refl t
    next t' hl =>
      split at hl
      next => cases hl
      next cfgs' hins =>
        cases hl
        have hback := insertNew_undone hins
        refine { refl t with natHole := ?_ }
        show some (update cfgs' x.name none) = t.natHole
        rw [hback, hc]

theorem runXUDP_same_iff (x : RunCtx) (secretKey : Str) (allowUsers : List Str) (t : Tables) :
    t.Same (afterFailure x (runXUDP x secretKey allowUsers t)) ↔
      ¬ (t.listeners x.name = none ∧ ∃ cfgs, t.natHole = some cfgs ∧ (cfgs x.name).isSome = true) := by
  unfold runXUDP startVisitorListener visitorListen
  cases hins : insertNew t.listeners x.name ⟨t.nextChan, secretKey, allowedUsers x allowUsers⟩ with
  | none =>
    have hsome := insertNew_none hins
    refine ⟨fun _ hbad => ?_, fun _ => .refl t⟩
    rw [hbad.1] at hsome; cases hsome
  | some ls =>
    have hback := insertNew_undone hins
    cases hnat : t.natHole with
    | none =>
      refine ⟨fun _ hbad => ?_, fun _ => ?_⟩
      · obtain ⟨-, cfgs, hc, -⟩ := hbad
        cases hc
      · exact { refl t with listeners := hback, natHole := hnat.symm }
    | some cfgs =>
      simp only [listenClient]
      cases hcl : insertNew cfgs x.name ⟨x.name, secretKey, allowedUsers x allowUsers, t.nextChan + 1⟩ with
      | none =>
        have hbad : t.listeners x.name = none ∧ ∃ c, some cfgs = some c ∧ (c x.name).isSome = true :=
          ⟨(insertNew_some hins).1, cfgs, rfl, insertNew_none hcl⟩
        refine ⟨fun hsame => ?_, fun hn => absurd hbad hn⟩
        have hls : ls x.name = t.listeners x.name := congrFun hsame.listeners x.name
        rw [(insertNew_some hins).2, update_self, hbad.1] at hls; cases hls
      | some cfgs' =>
        refine ⟨fun _ hbad => ?_, fun _ => ?_⟩
        · obtain ⟨-, c, hc, hsome⟩ := hbad
          cases hc
          rw [(insertNew_some hcl).1] at hsome; cases hsome
        · refine { refl t with listeners := hback, natHole := ?_ }
          show some (update cfgs' x.name none) = t.natHole
          rw [insertNew_undone hcl, hnat]

/-! ## Routes -/

theorem closeListeners_https (later : Int) (ls : List VhostLn) (t : Tables) :
    closeListeners later (ls.map .https) t = { t with https := releaseAll close ls t.https } := by
  induction ls generalizing t with
  | nil => rfl
  | cons l ls ih => exact ih _

theorem closeListeners_tcpmux (later : Int) (ls : List VhostLn) (t : Tables) :
    closeListeners later (ls.map .tcpmux) t = { t with tcpmux := releaseAll close ls t.tcpmux } := by
  induction ls generalizing t with
  | nil => rfl
  | cons l ls ih => exact ih _

variable {t : Tables}

theorem runHTTP_same (x : RunCtx) (pxy : HTTPProxy) (d : DomainConfig) (locations : List Str)
    (hs : t.http.Shape) : t.Same (afterFailure x (runHTTP x pxy d locations t)) := by
  have hsame := GroupCtl.closed_same hs pxy (httpRoutes x.cfg d locations)
  unfold runHTTP
  simp only
  generalize acquireAll (GroupCtl.registerFor pxy) (httpRoutes x.cfg d locations) [] t.http = res at hsame ⊢
  obtain ⟨⟨http, fs⟩, err⟩ := res
  cases err with
  | none | some => exact { refl t with http := hsame }

theorem runHTTPS_same (x : RunCtx) (d : DomainConfig) (lb : LoadBalancer)
    (hs : t.https.table.registryRouter.Sorted) : t.Same (afterFailure x (runHTTPS x d lb t)) := by
  have hsame := closed_same httpsMismatch lb.group lb.groupKey
    ((buildDomains x.cfg d).map fun domain => ⟨domain, [], [], []⟩) hs
  unfold runHTTPS
  simp only
  generalize acquireAll (listen httpsMismatch lb.group lb.groupKey) _ [] t.https = res at hsame ⊢
  obtain ⟨⟨https, ls⟩, err⟩ := res
  cases err <;>
  · simp only [afterFailure, RunningProxy.close, closeListeners_https]
    exact { refl t with https := hsame }

theorem runTCPMux_same (x : RunCtx) (multiplexer : Str) (d : DomainConfig) (routeByHTTPUser httpUser httpPassword : Str)
    (lb : LoadBalancer) (hs : t.tcpmux.table.registryRouter.Sorted) :
    t.Same (afterFailure x (runTCPMux x multiplexer d routeByHTTPUser httpUser httpPassword lb t)) := by
  have hsame := closed_same tcpMuxMismatch lb.group lb.groupKey
    ((buildDomains x.cfg d).map fun domain => ⟨domain, routeByHTTPUser, httpUser, httpPassword⟩) hs
  unfold runTCPMux
  simp only
  split_ifs
  · generalize acquireAll (listen tcpMuxMismatch lb.group lb.groupKey) _ [] t.tcpmux = res at hsame ⊢
    obtain ⟨⟨tcpmux, ls⟩, err⟩ := res
    cases err <;>
    · simp only [afterFailure, RunningProxy.close, closeListeners_tcpmux]
      exact { refl t with tcpmux := hsame }
  · exact .refl t

/-! ## Ports -/

theorem runUDP_same_iff (x : RunCtx) (remotePort : Int) {allowed : Int → Bool}
    (hi : t.udpPorts.Inv allowed) (hf : t.udpPorts.UsedFresh) (ho : t.udpPorts.FreeOrder x.ans.order) :
    t.Same (afterFailure x (runUDP x remotePort t)) ↔ ¬ t.udpPorts.Leaks udpKeeps x.ans x.name remotePort := by
  unfold runUDP
  cases hb : listenUDP x.ans x.name remotePort t.udpPorts with
  | mk ports r =>
    obtain ⟨herr, hok⟩ := bindPort_undone hi hf ho hb
    cases r with
    | error e =>
      rw [← herr e rfl]; exact ⟨fun h => h.udpPorts, fun h => { refl t with udpPorts := h }⟩
    | ok p => rw [← hok p rfl]; exact ⟨fun h => h.udpPorts, fun h => { refl t with udpPorts := h }⟩

theorem runTCP_member (x : RunCtx) (remotePort : Int) {lb : LoadBalancer}
    {c : ListenCycle TCPGroupParams Int} (hg : lb.group ≠ []) (hl : t.tcpGroups.live lb.group = some c) :
    t.Same (afterFailure x (runTCP x remotePort lb t)) := by
  unfold runTCP
  rw [if_pos hg, GroupRegistry.listen_of_some hl]
  cases c.refuse TCPGroupParams.mismatch lb.group lb.groupKey ⟨x.cfg.proxyBindAddr, remotePort⟩ with
  | some e => exact .refl t
  | none =>
    have hheld : GroupRegistry.Held (fun pm => t.tcpPorts.SameUse pm) (fun p pm => pm.release p x.ans.later)
        t.tcpGroups lb.group [t.tcpGroups.next] (t.tcpPorts, t.tcpGroups.join lb.group c hl) :=
      (GroupRegistry.Held.refl t.tcpGroups lb.group ⟨rfl, rfl⟩).join hl
    obtain ⟨hlive, hports⟩ := hheld.released.done
    simp only [afterFailure, RunningProxy.close, hg, if_false]
    exact { refl t with tcpPorts := hports, tcpGroups := hlive }

section
variable (x : RunCtx) (remotePort : Int) (lb : LoadBalancer) {t : Tables} {allowed : Int → Bool}
  (hi : t.tcpPorts.Inv allowed) (hf : t.tcpPorts.UsedFresh) (ho : t.tcpPorts.FreeOrder x.ans.order)
include hi hf ho

theorem runTCP_alone (hg : lb.group = []) :
    t.Same (afterFailure x (runTCP x remotePort lb t)) ↔ ¬ t.tcpPorts.Leaks tcpKeeps x.ans x.name remotePort := by
  unfold runTCP
  rw [if_neg (not_not.mpr hg)]
  cases hb : listenTCP x.ans x.name remotePort t.tcpPorts with
  | mk ports r =>
    obtain ⟨herr, hok⟩ := bindPort_undone hi hf ho hb
    cases r with
    | error e =>
      rw [← herr e rfl]; exact ⟨fun h => h.tcpPorts, fun h => { refl t with tcpPorts := h }⟩
    | ok p =>
      rw [← hok p rfl]
      simp only [afterFailure, RunningProxy.close, hg, if_true]
      exact ⟨fun h => h.tcpPorts, fun h => { refl t with tcpPorts := h }⟩

theorem runTCP_first (hg : lb.group ≠ []) (hl : t.tcpGroups.live lb.group = none) :
    t.Same (afterFailure x (runTCP x remotePort lb t)) ↔ ¬ t.tcpPorts.Leaks tcpKeeps x.ans x.name remotePort := by
  unfold runTCP
  rw [if_pos hg, GroupRegistry.listen_of_none hl]
  cases hb : listenTCP x.ans x.name remotePort t.tcpPorts with
  | mk ports r =>
    obtain ⟨herr, hok⟩ := bindPort_undone hi hf ho hb
    cases r with
    | error e =>
      rw [← herr e rfl]
      exact ⟨fun h => h.tcpPorts, fun h => { refl t with
        tcpPorts := h, tcpGroups := GroupRegistry.live_getOrCreate _ _ }⟩
    | ok p =>
      have hheld : GroupRegistry.Held
          (fun pm => t.tcpPorts.SameUse pm ↔ ¬ t.tcpPorts.Leaks tcpKeeps x.ans x.name remotePort)
          (fun p pm => pm.release p x.ans.later) t.tcpGroups lb.group [t.tcpGroups.next]
          (ports, t.tcpGroups.start lb.group lb.groupKey ⟨x.cfg.proxyBindAddr, remotePort⟩ p) :=
        .start (fun _ _ => rfl) hl (hok p rfl)
      obtain ⟨hlive, hports⟩ := hheld.released.done
      rw [← hports]
      simp only [afterFailure, RunningProxy.close, hg, if_false]
      exact ⟨fun h => h.tcpPorts, fun h => { refl t with tcpPorts := h, tcpGroups := hlive }⟩

theorem runTCP_same_iff :
    t.Same (afterFailure x (runTCP x remotePort lb t)) ↔
      ¬ ((lb.group ≠ [] → t.tcpGroups.live lb.group = none) ∧
        t.tcpPorts.Leaks tcpKeeps x.ans x.name remotePort) := by
  by_cases hg : lb.group = []
  · rw [runTCP_alone x remotePort lb hi hf ho hg]; simp [hg]
  · cases hl : t.tcpGroups.live lb.group with
    | none => rw [runTCP_first x remotePort lb hi hf ho hg hl]; simp
    | some =>
      have hsame := runTCP_member x remotePort hg hl
      simp [hsame, hg]

end

/-! ## The registration -/

def RunLeaks (x : RunCtx) (conf : ProxyConf) (t : Tables) : Prop :=
  match conf with
  | .tcp remotePort lb => (lb.group ≠ [] → t.tcpGroups.live lb.group = none) ∧
      t.tcpPorts.Leaks tcpKeeps x.ans x.name remotePort
  | .udp remotePort => t.udpPorts.Leaks udpKeeps x.ans x.name remotePort
  | .xudp .. => t.listeners x.name = none ∧ ∃ cfgs, t.natHole = some cfgs ∧ (cfgs x.name).isSome = true
  | _ => False

def Tables.Visits (t : Tables) (order : List Int) : ProxyConf → Prop
  | .tcp .. => t.tcpPorts.FreeOrder order
  | .udp .. => t.udpPorts.FreeOrder order
  | _ => True

theorem run_same_iff (x : RunCtx) (conf : ProxyConf) {t : Tables} {allowPorts : List PortsRange}
    (ht : t.Reachable allowPorts) (ho : t.Visits x.ans.order conf) :
    t.Same (afterFailure x (conf.run x t)) ↔ ¬ RunLeaks x conf t := by
  cases conf with
  | tcp remotePort lb =>
    exact runTCP_same_iff x remotePort lb (inv_of_reach ht.tcpPorts)
      (usedFresh_of_reach ht.tcpPorts) ho
  | udp remotePort =>
    exact runUDP_same_iff x remotePort (inv_of_reach ht.udpPorts)
      (usedFresh_of_reach ht.udpPorts) ho
  | http pxy d locations => exact iff_of_true (runHTTP_same x pxy d locations (GroupCtl.shape_of_reach ht.http)) id
  | https d lb => exact iff_of_true (runHTTPS_same x d lb (sorted_of_reach ht.https)) id
  | tcpmux m d u hu hp lb => exact iff_of_true (runTCPMux_same x m d u hu hp lb (sorted_of_reach ht.tcpmux)) id
  | stcp sk us => exact iff_of_true (runVisitor_same x sk us t (.inl ⟨sk, us, rfl⟩)) id
  | sudp sk us => exact iff_of_true (runVisitor_same x sk us t (.inr ⟨sk, us, rfl⟩)) id
  | xtcp sk us => exact iff_of_true (runXTCP_same x sk us t) id
  | xudp sk us => exact runXUDP_same_iff x sk us t

def WithinQuota (x : RunCtx) (conf : ProxyConf) (ctl : ProxyOwner) : Prop :=
  x.cfg.maxPortsPerClient > 0 → ctl.portsUsedNum + conf.usedPortsNum ≤ x.cfg.maxPortsPerClient

/-- A failed registration leaves no trace exactly if the call does not come to `Run` of a proxy that
leaks. -/
theorem failed_registration_same_iff (x : RunCtx) (loaded : Except Str ProxyConf) (pxyId : Nat) (ctl ctl' : ProxyOwner)
    {t t' : Tables} {allowPorts : List PortsRange} {err : Str} (ht : t.Reachable allowPorts)
    (ho : ∀ conf, loaded = .ok conf → t.Visits x.ans.order conf)
    (h : registerProxy x loaded pxyId ctl t = ((t', ctl'), .error err)) :
    t.Same t' ↔
      ¬ ∃ conf, loaded = .ok conf ∧ WithinQuota x conf ctl ∧ x.ans.existed = false ∧ RunLeaks x conf t := by
  unfold registerProxy at h
  cases loaded with
  | error =>
    cases h
    refine ⟨fun _ hbad => ?_, fun _ => .refl t⟩
    obtain ⟨conf, hc, -⟩ := hbad
    cases hc
  | ok conf =>
    simp only at h
    split_ifs at h with hq he
    · cases h
      refine ⟨fun _ hbad => ?_, fun _ => .refl t⟩
      obtain ⟨conf, hc, hw, -⟩ := hbad
      cases hc
      have := hw hq.1
      omega
    · cases h
      refine ⟨fun _ hbad => ?_, fun _ => .refl t⟩
      obtain ⟨conf, -, -, hex, -⟩ := hbad
      rw [hex] at he; cases he
    · have hafter : t' = afterFailure x (conf.run x t) := by
        generalize conf.run x t = res at h
        obtain ⟨t₁, r⟩ := res
        cases r with
        | error => cases h; rfl
        | ok =>
          simp only at h
          split at h
          next => cases h; rfl
          next => cases h
      rw [hafter, run_same_iff x conf ht (ho conf rfl), not_iff_not]
      constructor
      · intro hl; exact ⟨conf, rfl, fun hm => by omega, by simpa using he, hl⟩
      · rintro ⟨conf', hc, -, -, hl⟩
        cases hc; exact hl

end

section
attribute [local instance] UnicodeCase.ascii

theorem Tables.reachable_new (allowPorts : List PortsRange) (natHole : Bool) :
    (Tables.new allowPorts natHole).Reachable allowPorts :=
  ⟨.start rfl, .start rfl, .start rfl, .start rfl, .start rfl⟩

def plainCall (user name : Str) : RunCtx where
  cfg := ⟨[], [], 80, 443, 1337, 0⟩
  ans := ⟨false, 0, 0, [], fun _ _ => true, none, none⟩
  user := user
  name := name

def newOwner (id : Nat) : ProxyOwner := ⟨id, 0, fun _ => none⟩

/-- A web proxy that gives the same domain twice: the first route is deleted again. -/
def twiceProxy : ProxyConf :=
  .http ⟨lit "web", [], [], [], [], [], [], [], []⟩ ⟨[lit "example.com", lit "example.com"], []⟩ []

theorem failed_registration_same_twice :
    ∃ t' ctl', registerProxy (plainCall [] (lit "web")) (.ok twiceProxy) 0 (newOwner 0) (Tables.new [] true) =
        ((t', ctl'), .error errRouterConfigConflict) ∧ (Tables.new [] true).Same t' := by
  refine ⟨_, _, rfl, ?_⟩
  refine (failed_registration_same_iff (plainCall [] (lit "web")) (.ok twiceProxy) 0 (newOwner 0) (newOwner 0)
    (Tables.reachable_new [] true) ?_ rfl).mpr ?_
  · intro conf hc
    cases hc
    trivial
  · rintro ⟨conf, hc, -, -, hl⟩
    cases hc; exact hl

/-- Another control has told the NAT-hole controller of an XTCP proxy of the name, with `Add` still
to come: the XUDP proxy is refused and leaves its listener behind. -/
theorem xudp_listener_left_behind :
    ∃ t t' ctl', t = (ProxyConf.run (plainCall (lit "alice") (lit "dns")) (.xtcp (lit "key") [])
      (Tables.new [] true)).1 ∧ t.Reachable [] ∧ t.pxys (lit "dns") = none ∧ t.listeners (lit "dns") = none ∧
      registerProxy (plainCall (lit "bob") (lit "dns")) (.ok (.xudp (lit "key") [])) 1 (newOwner 1) t =
        ((t', ctl'), .error (lit "listen nat hole client error: proxy [dns] is repeated")) ∧
      (t'.listeners (lit "dns")).isSome = true ∧ ¬ t.Same t' := by
  refine ⟨_, _, _, rfl, ⟨.start rfl, .start rfl, .start rfl, .start rfl, .start rfl⟩, rfl, rfl, rfl, rfl, ?_⟩
  intro hsame
  have := congrFun hsame.listeners (lit "dns")
  cases this

end

end Frp
