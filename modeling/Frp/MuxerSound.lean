import Frp.Muxer

/-!
# Access to a TCP mux listener

The success hook answers `200 OK` before the credentials are looked at, and they are not
looked at for a listener without a user name.
-/

namespace Frp.HTTPConnect

def Matches (req : Request) (l : VhostListener) : Prop :=
  proxyCredentials req = ⟨l.username, l.password⟩

instance (req : Request) (l : VhostListener) : Decidable (Matches req l) := inferInstanceAs (Decidable (_ = _))

variable {l : VhostListener}

theorem authorize_eq {req : Request} {info : ReqInfo}
    (hu : info.httpUser = (proxyCredentials req).username) (hp : info.httpPwd = (proxyCredentials req).password)
    (b : Bool) (faults : Faults) (out : List Response) : (muxer b).authorize faults out info l =
      if l.username ≠ [] ∧ ¬ Matches req l then ⟨out ++ [.proxyUnauthorized], none, true⟩
      else Muxer.handOff faults out l := by
  have hm : Matches req l ↔ l.username = info.httpUser ∧ l.password = info.httpPwd := by
    rw [hu, hp, Matches, Credentials.ext_iff]; simp [eq_comm]
  by_cases hn : l.username = []
  · simp [muxer, Muxer.authorize, hn]
  · by_cases h : l.username = info.httpUser ∧ l.password = info.httpPwd
    · simp only [muxer, Muxer.authorize, auth, hm, h]
      simp
    · simp only [muxer, Muxer.authorize, auth, hm, h]
      simp

variable {out : List Response}

theorem handOff_handed {faults : Faults} {l l' : VhostListener} : (Muxer.handOff faults out l).handed = some l' ↔
    l' = l ∧ faults.resetDeadline = false ∧ faults.listenerClosed = false := by
  unfold Muxer.handOff
  cases faults.resetDeadline <;> cases faults.listenerClosed <;> simp [eq_comm]

theorem handOff_responses {faults : Faults} : (Muxer.handOff faults out l).responses = out := by
  unfold Muxer.handOff
  split
  · rfl
  · split <;> rfl

section
variable [UnicodeCase]

variable {tbl : Routers VhostListener}

theorem routedTo_eq_some {req : Request} {l : VhostListener} (h : routedTo tbl req = some l) :
    ∃ info, getHostFromHTTPConnect (some req) = some info ∧ Muxer.getListener tbl info = some l ∧
      info.httpUser = (proxyCredentials req).username ∧ info.httpPwd = (proxyCredentials req).password := by
  obtain ⟨info, hi, hl⟩ := Option.bind_eq_some_iff.mp h
  refine ⟨info, hi, hl, ?_⟩
  simp only [getHostFromHTTPConnect, Option.bind_some] at hi
  split at hi
  · cases hi
  · cases hi; exact ⟨rfl, rfl⟩

theorem serve_routed {req : Request} {l : VhostListener} (h : routedTo tbl req = some l) (faults : Faults) :
    serve false tbl faults (some req) = if faults.setDeadline ∨ faults.write then ⟨[], none, true⟩
      else if l.username ≠ [] ∧ ¬ Matches req l then ⟨[.ok, .proxyUnauthorized], none, true⟩
      else Muxer.handOff faults [.ok] l := by
  obtain ⟨info, hi, hl, hu, hp⟩ := routedTo_eq_some h
  have hstart : serve false tbl faults (some req) = if faults.setDeadline ∨ faults.write then ⟨[], none, true⟩
      else (muxer false).authorize faults [.ok] info l := by
    unfold serve Muxer.handle
    cases faults.setDeadline <;> cases faults.write <;> simp [hi, hl, muxer, sendConnectResponse]
  rw [hstart, authorize_eq hu hp]; rfl

/-- Without passthrough, a client is answered `200 OK` by a listener with credentials, and handed
over, only with those credentials, exactly when it brings them or an operation before the answer
fails. -/
theorem connect_access_iff (tbl : Routers VhostListener) (req : Request) (l : VhostListener) (faults : Faults)
    (h : routedTo tbl req = some l) :
    ((.ok ∈ (serve false tbl faults (some req)).responses → Matches req l) ∧
      ((serve false tbl faults (some req)).handed = some l → Matches req l)) ↔
    (Matches req l ∨ faults.setDeadline = true ∨ faults.write = true) := by
  rw [serve_routed h]
  by_cases hf : faults.setDeadline = true ∨ faults.write = true
  · simp [hf]
  · by_cases hm : Matches req l
    · simp [hm]
    · simp only [hf, hm, if_false, or_self]
      split <;> simp [handOff_responses]

theorem connect_handed_iff (tbl : Routers VhostListener) (req : Request) (l : VhostListener) (faults : Faults)
    (h : routedTo tbl req = some l) :
    (serve false tbl faults (some req)).handed = some l ↔
      (l.username = [] ∨ Matches req l) ∧ faults.setDeadline = false ∧ faults.write = false ∧
        faults.resetDeadline = false ∧ faults.listenerClosed = false := by
  rw [serve_routed h]
  cases hd : faults.setDeadline with
  | true => simp
  | false =>
    cases hw : faults.write with
    | true => simp
    | false =>
      by_cases hn : l.username ≠ [] ∧ ¬ Matches req l
      · simp [hn]
      · simp only [Bool.false_eq_true, or_self, if_false, hn, handOff_handed]
        have : l.username = [] ∨ Matches req l := by
          by_contra hx
          exact hn (not_or.mp hx)
        simp [this]

end

/-! ### Listeners that are not guarded -/

section
attribute [local instance] UnicodeCase.ascii

def alice : VhostListener := ⟨0, lit "example.com", [], [], [], lit "alice", lit "secret"⟩

def passwordOnly : VhostListener := ⟨0, lit "example.com", [], [], [], [], lit "secret"⟩

def tableOf (l : VhostListener) : Routers VhostListener := (Muxer.listen .new l).getD .new

def connectTo (proxyAuth : Str) : Request :=
  ⟨Request.connect, lit "example.com:443", [], lit "example.com:443",
    Header.empty.set (lit "Proxy-Authorization") proxyAuth, lit "192.0.2.1:5000", false⟩

def aliceLogin : Request := connectTo (Frp.basicAuth (lit "alice") (lit "secret"))

theorem connect_access_login : routedTo (tableOf alice) aliceLogin = some alice ∧
    (.ok ∈ (serve false (tableOf alice) .none (some aliceLogin)).responses → Matches aliceLogin alice) ∧
    ((serve false (tableOf alice) .none (some aliceLogin)).handed = some alice → Matches aliceLogin alice) :=
  ⟨rfl, (connect_access_iff _ _ _ .none rfl).mpr (.inl (by decide))⟩

theorem unguarded_connect :
    (routedTo (tableOf alice) (connectTo []) = some alice ∧ ¬ Matches (connectTo []) alice ∧
      (serve false (tableOf alice) .none (some (connectTo []))).responses = [.ok, .proxyUnauthorized]) ∧
    (routedTo (tableOf passwordOnly) (connectTo []) = some passwordOnly ∧ ¬ Matches (connectTo []) passwordOnly ∧
      (serve false (tableOf passwordOnly) .none (some (connectTo []))).handed = some passwordOnly) :=
  ⟨⟨rfl, by decide, rfl⟩, rfl, by decide, rfl⟩

end

end Frp.HTTPConnect
