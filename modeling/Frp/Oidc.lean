import Frp.Lts
import Frp.Str
import Mathlib.Logic.Function.Basic

/-!
# OIDC authentication

`OidcAuthConsumer` of `pkg/auth/oidc.go`, one for all controls, with the places of
`server/service.go` and `server/control.go` that ask it. It remembers the subjects of all
logins in one set.
-/

namespace Frp

open Function

inductive AuthScope
  | heartBeats
  | newWorkConns
  deriving DecidableEq

abbrev TokenVerifier := Nat → Str → Except Str Str

structure OidcAuthConsumer where
  additionalAuthScopes : List AuthScope
  subjectsFromLogin : Str → Bool := fun _ => false

namespace OidcAuthConsumer

variable (verify : TokenVerifier) (now : Nat) (auth : OidcAuthConsumer)

def verifyLogin (privilegeKey : Str) : Except Str OidcAuthConsumer :=
  match verify now privilegeKey with
  | .error e => .error (lit "invalid OIDC token in login: " ++ e)
  | .ok subject => .ok { auth with subjectsFromLogin := update auth.subjectsFromLogin subject true }

def verifyPostLoginToken (privilegeKey : Str) : Option Str :=
  match verify now privilegeKey with
  | .error e => some (lit "invalid OIDC token in ping: " ++ e)
  | .ok subject =>
    if auth.subjectsFromLogin subject then none
    else some (lit "received different OIDC subject in login and ping. new subject: " ++ subject)

def verifyPing (privilegeKey : Str) : Option Str :=
  if AuthScope.heartBeats ∉ auth.additionalAuthScopes then none
  else auth.verifyPostLoginToken verify now privilegeKey

def verifyNewWorkConn (privilegeKey : Str) : Option Str :=
  if AuthScope.newWorkConns ∉ auth.additionalAuthScopes then none
  else auth.verifyPostLoginToken verify now privilegeKey

end OidcAuthConsumer

/-! ## The server -/

/-- A control with what its messages change. `subject` is the one it logged in with; a control of the server itself
is not verified. -/
structure OidcControl where
  runID : Str
  wireProtocol : Str
  alwaysAuthPass : Bool
  subject : Str
  lastPing : Nat := 0
  workConns : Nat := 0

/-- `logins` are the subjects of the logins that were verified. -/
structure OidcServer where
  auth : OidcAuthConsumer
  controls : List OidcControl := []
  ctlsByRunID : Str → Option Nat := fun _ => none
  logins : List Str := []

namespace OidcServer

variable (verify : TokenVerifier) (now : Nat) (s : OidcServer)

def verifyPing (ctl : OidcControl) (privilegeKey : Str) : Option Str :=
  if ctl.alwaysAuthPass then none else s.auth.verifyPing verify now privilegeKey

def verifyNewWorkConn (ctl : OidcControl) (privilegeKey : Str) : Option Str :=
  if ctl.alwaysAuthPass then none else s.auth.verifyNewWorkConn verify now privilegeKey

def addControl (ctl : OidcControl) : OidcServer :=
  { s with
    controls := s.controls ++ [ctl]
    ctlsByRunID := update s.ctlsByRunID ctl.runID (some s.controls.length) }

/-- `RegisterControl` from the check of the login on; `made` is that the control was made, added and activated. -/
def registerControl (runID wireProtocol privilegeKey : Str) (alwaysAuthPass made : Bool) : OidcServer :=
  if alwaysAuthPass then
    if made then s.addControl ⟨runID, wireProtocol, true, [], now, 0⟩ else s
  else
    match verify now privilegeKey, s.auth.verifyLogin verify now privilegeKey with
    | .ok subject, .ok auth =>
      let s := { s with auth, logins := s.logins ++ [subject] }
      if made then s.addControl ⟨runID, wireProtocol, false, subject, now, 0⟩ else s
    | _, _ => s

/-- `handlePing` with what the plugins answer, a message in place of the client's or an error. The error of the reply
is the second component. -/
def handlePing (detailed : Bool) (c : Nat) (ctl : OidcControl) (plugin : Except Str Str) : OidcServer × Option Str :=
  let err :=
    match plugin with
    | .error e => some e
    | .ok privilegeKey => s.verifyPing verify now ctl privilegeKey
  match err with
  | some e => (s, some (if detailed then e else lit "invalid ping"))
  | none => ({ s with controls := s.controls.set c { ctl with lastPing := now } }, none)

def registerWorkConn (runID workWireProtocol : Str) (workClientHelloPresent : Bool) (plugin : Except Str Str) :
    OidcServer × Option Str :=
  if workClientHelloPresent then (s, some (lit "ClientHello is not allowed on work connections"))
  else
    match (s.ctlsByRunID runID).bind fun c => (s.controls[c]?).map fun ctl => (c, ctl) with
    | none => (s, some (lit "no client control found for run id [" ++ runID ++ lit "]"))
    | some (c, ctl) =>
      if workWireProtocol ≠ ctl.wireProtocol then
        (s, some (lit "work connection wire protocol mismatch: got " ++ workWireProtocol ++ lit " want " ++
          ctl.wireProtocol))
      else
        let err :=
          match plugin with
          | .error e => some e
          | .ok privilegeKey => s.verifyNewWorkConn verify now ctl privilegeKey
        match err with
        | some e => (s, some e)
        | none => ({ s with controls := s.controls.set c { ctl with workConns := ctl.workConns + 1 } }, none)

end OidcServer

/-- The calls of any clients, at any times; `remove` is that a control leaves the manager. -/
inductive OidcStep (verify : TokenVerifier) : OidcServer → Unit → OidcServer → Prop
  | login {s} (now : Nat) (runID wireProtocol privilegeKey : Str) (alwaysAuthPass made : Bool) :
    OidcStep verify s () (s.registerControl verify now runID wireProtocol privilegeKey alwaysAuthPass made)
  | ping {s} (now : Nat) (detailed : Bool) (c : Nat) (ctl : OidcControl) (plugin : Except Str Str)
    (hc : s.controls[c]? = some ctl) : OidcStep verify s () (s.handlePing verify now detailed c ctl plugin).1
  | workConn {s} (now : Nat) (runID workWireProtocol : Str) (workClientHelloPresent : Bool) (plugin : Except Str Str) :
    OidcStep verify s ()
      (s.registerWorkConn verify now runID workWireProtocol workClientHelloPresent plugin).1
  | remove {s} (runID : Str) :
    OidcStep verify s () { s with ctlsByRunID := update s.ctlsByRunID runID none }

/-! ## Which subjects pass -/

section
variable {verify : TokenVerifier} {scopes : List AuthScope} {s t : OidcServer} {e : Unit}

/-- The set of the verifier is that of the verified logins, those of the controls are among them, and the scopes
stay. -/
structure OidcServer.Inv (scopes : List AuthScope) (s : OidcServer) : Prop where
  scopes : s.auth.additionalAuthScopes = scopes
  subjects : ∀ x, s.auth.subjectsFromLogin x = true ↔ x ∈ s.logins
  logged : ∀ ctl ∈ s.controls, ctl.alwaysAuthPass = false → ctl.subject ∈ s.logins

namespace OidcServer.Inv

variable (h : s.Inv scopes)
include h

theorem addControl {ctl : OidcControl}
    (hctl : ctl.alwaysAuthPass = false → ctl.subject ∈ s.logins) : (s.addControl ctl).Inv scopes := by
  refine { h with logged := fun x hx => ?_ }
  rcases List.mem_append.mp hx with hx | hx
  · exact h.logged x hx
  · rw [List.mem_singleton.mp hx]; exact hctl

theorem setControl {c : Nat} {ctl ctl' : OidcControl}
    (hc : s.controls[c]? = some ctl) (hpass : ctl'.alwaysAuthPass = ctl.alwaysAuthPass)
    (hsubject : ctl'.subject = ctl.subject) : OidcServer.Inv scopes { s with controls := s.controls.set c ctl' } := by
  refine { h with logged := fun x hx => ?_ }
  rcases List.mem_or_eq_of_mem_set hx with hx | rfl
  · exact h.logged x hx
  · rw [hpass, hsubject]; exact h.logged ctl (List.mem_of_getElem? hc)

theorem login (subject : Str) : OidcServer.Inv scopes { s with
      auth := { s.auth with subjectsFromLogin := update s.auth.subjectsFromLogin subject true }
      logins := s.logins ++ [subject] } := by
  refine ⟨h.scopes, fun x => ?_, fun ctl hctl hpass => List.mem_append_left _ (h.logged ctl hctl hpass)⟩
  rw [List.mem_append, List.mem_singleton]
  by_cases hx : x = subject
  · simp [hx]
  · simp only [update_of_ne hx, hx, or_false]; exact h.subjects x

theorem registerControl (now : Nat) (runID wireProtocol privilegeKey : Str) (alwaysAuthPass made : Bool) :
    (s.registerControl verify now runID wireProtocol privilegeKey alwaysAuthPass made).Inv scopes := by
  unfold OidcServer.registerControl
  split
  · split
    · exact h.addControl (by simp)
    · exact h
  · split
    · rename_i subject auth hverify hlogin
      simp only [OidcAuthConsumer.verifyLogin, hverify] at hlogin
      cases hlogin
      have hlogin := h.login subject
      split
      · exact hlogin.addControl (by simp)
      · exact hlogin
    · exact h

end OidcServer.Inv

theorem OidcStep.inv (h : s.Inv scopes) (hst : OidcStep verify s e t) : t.Inv scopes := by
  cases hst with
  | login now runID wireProtocol privilegeKey alwaysAuthPass made =>
    exact h.registerControl now runID wireProtocol privilegeKey alwaysAuthPass made
  | ping now detailed c ctl plugin hc =>
    simp only [OidcServer.handlePing]
    split
    · exact h
    · exact h.setControl hc rfl rfl
  | workConn =>
    unfold OidcServer.registerWorkConn
    split
    · exact h
    · split
      · exact h
      · rename_i hfind
        obtain ⟨_, -, hmap⟩ := Option.bind_eq_some_iff.mp hfind
        obtain ⟨_, hc, heq⟩ := Option.map_eq_some_iff.mp hmap
        cases heq
        split
        · exact h
        · dsimp only
          split
          · exact h
          · exact h.setControl hc rfl rfl
  | remove => exact ⟨h.scopes, h.subjects, h.logged⟩

theorem OidcServer.inv_of_reach
    (h : Reach (· = ⟨⟨scopes, fun _ => false⟩, [], fun _ => none, []⟩) (OidcStep verify) s) : s.Inv scopes :=
  h.invariant (fun _ heq => heq ▸ ⟨rfl, by simp, by simp⟩) fun _ _ _ _ hs hst => hst.inv hs

theorem OidcServer.Inv.verifyPostLoginToken_eq_none (h : s.Inv scopes) (now : Nat) (key : Str) :
    s.auth.verifyPostLoginToken verify now key = none ↔ ∃ x, verify now key = .ok x ∧ x ∈ s.logins := by
  unfold OidcAuthConsumer.verifyPostLoginToken
  cases hverify : verify now key with
  | error => simp
  | ok x => simp [h.subjects x]

/-- Tokens with the subject of the control pass, and no others just when no client has logged in
with such a subject. -/
theorem OidcServer.subject_binding_iff (hheart : AuthScope.heartBeats ∈ scopes)
    (hwork : AuthScope.newWorkConns ∈ scopes)
    (h : Reach (· = ⟨⟨scopes, fun _ => false⟩, [], fun _ => none, []⟩) (OidcStep verify) s) {c : Nat}
    {ctl : OidcControl} (hc : s.controls[c]? = some ctl) (hauth : ctl.alwaysAuthPass = false) (now : Nat) (key : Str) :
    (verify now key = .ok ctl.subject →
      s.verifyPing verify now ctl key = none ∧ s.verifyNewWorkConn verify now ctl key = none) ∧
    ((s.verifyPing verify now ctl key = none → verify now key = .ok ctl.subject) ↔
      ∀ x, verify now key = .ok x → x ∈ s.logins → x = ctl.subject) ∧
    ((s.verifyNewWorkConn verify now ctl key = none → verify now key = .ok ctl.subject) ↔
      ∀ x, verify now key = .ok x → x ∈ s.logins → x = ctl.subject) := by
  have hs := inv_of_reach h
  -- With both scopes on, both checks ask for the subject among all logins and never look at the control.
  have hping : s.verifyPing verify now ctl key = s.auth.verifyPostLoginToken verify now key := by
    simp [verifyPing, hauth, OidcAuthConsumer.verifyPing, hs.scopes, hheart]
  have hconn : s.verifyNewWorkConn verify now ctl key = s.auth.verifyPostLoginToken verify now key := by
    simp [verifyNewWorkConn, hauth, OidcAuthConsumer.verifyNewWorkConn, hs.scopes, hwork]
  have hiff : ((∃ x, verify now key = .ok x ∧ x ∈ s.logins) → verify now key = .ok ctl.subject) ↔
      ∀ x, verify now key = .ok x → x ∈ s.logins → x = ctl.subject := by
    constructor
    · intro hown x hx hmem; exact Except.ok.inj (hx.symm.trans (hown ⟨x, hx, hmem⟩))
    · intro hall hpass
      obtain ⟨x, hx, hmem⟩ := hpass
      exact hall x hx hmem ▸ hx
  rw [hping, hconn, hs.verifyPostLoginToken_eq_none]
  refine ⟨fun hown => ?_, hiff, hiff⟩
  have hpass : ∃ x, verify now key = .ok x ∧ x ∈ s.logins :=
    ⟨ctl.subject, hown, hs.logged ctl (List.mem_of_getElem? hc) hauth⟩
  exact ⟨hpass, hpass⟩

end

def plainVerifier : TokenVerifier := fun _ key => .ok key

def bothScopes : List AuthScope := [.heartBeats, .newWorkConns]

theorem OidcServer.subject_binding_alone :
    ∃ s ctl, Reach (· = ⟨⟨bothScopes, fun _ => false⟩, [], fun _ => none, []⟩) (OidcStep plainVerifier) s ∧
      s.controls[0]? = some ctl ∧ ctl.subject = lit "alice" ∧
      s.verifyPing plainVerifier 1 ctl (lit "alice") = none ∧
      (s.verifyPing plainVerifier 1 ctl (lit "bob") = none → plainVerifier 1 (lit "bob") = .ok ctl.subject) := by
  have h : Reach (· = ⟨⟨bothScopes, fun _ => false⟩, [], fun _ => none, []⟩) (OidcStep plainVerifier) _ := .start rfl
  have h := h.next (.login 0 (lit "r1") (lit "v1") (lit "alice") false true)
  refine ⟨_, _, h, rfl, rfl, ?_, ?_⟩
  · exact ((subject_binding_iff (c := 0) (by decide) (by decide) h rfl rfl 1 (lit "alice")).1 rfl).1
  · refine (subject_binding_iff (c := 0) (by decide) (by decide) h rfl rfl 1 (lit "bob")).2.1.mpr fun x _ hx => ?_
    have hx : x ∈ [lit "alice"] := hx
    exact List.mem_singleton.mp hx

theorem OidcServer.foreign_subject_passes :
    ∃ s ctl, Reach (· = ⟨⟨bothScopes, fun _ => false⟩, [], fun _ => none, []⟩) (OidcStep plainVerifier) s ∧
      s.controls[0]? = some ctl ∧ ctl.alwaysAuthPass = false ∧ ctl.subject = lit "alice" ∧
      plainVerifier 2 (lit "bob") = .ok (lit "bob") ∧ s.verifyPing plainVerifier 2 ctl (lit "bob") = none ∧
      s.verifyNewWorkConn plainVerifier 2 ctl (lit "bob") = none := by
  have h : Reach (· = ⟨⟨bothScopes, fun _ => false⟩, [], fun _ => none, []⟩) (OidcStep plainVerifier) _ := .start rfl
  have h := h.next (.login 0 (lit "r1") (lit "v1") (lit "alice") false true)
  have h := h.next (.login 1 (lit "r2") (lit "v1") (lit "bob") false true)
  exact ⟨_, _, h, rfl, rfl, rfl, rfl, rfl, rfl⟩

end Frp
