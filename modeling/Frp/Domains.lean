import Frp.Register
import Frp.RoutersSound
import Frp.Utf8

/-!
# Custom domains and subdomains

`validateDomainConfigForServer` of `pkg/config/v1/validation/proxy.go`. A custom domain that
it accepts is filed under another name than every subdomain.
-/

namespace Frp

section
variable [UnicodeCase]

/-- The text of the error; `none` is nil. -/
def validateDomainConfigForServer (c : DomainConfig) (s : ServerConfig) : Option Str :=
  let subDomainHost := s.subDomainHost.toLower
  match c.customDomains.find? fun domain =>
      subDomainHost ≠ [] ∧ (subDomainHost.split Str.dot).length < (domain.toLower.split Str.dot).length ∧
        (Str.dot :: subDomainHost).isSuffixOf domain.toLower with
  | some domain =>
    some (lit "custom domain [" ++ domain ++ lit "] should not belong to subdomain host [" ++ s.subDomainHost ++
      lit "]")
  | none =>
    if c.subDomain ≠ [] then
      if s.subDomainHost = [] then some (lit "subdomain is not supported because this feature is not enabled in server")
      else if c.subDomain.contains Str.dot ∨ c.subDomain.contains 42 then
        some (lit "'.' and '*' are not supported in subdomain")
      else none
    else none

inductive DomainOrigin
  | customDomains
  | subDomain
  deriving DecidableEq

def DomainOrigin.domains (cfg : ServerConfig) (c : DomainConfig) : DomainOrigin → List Str
  | customDomains => buildDomains cfg ⟨c.customDomains, []⟩
  | subDomain => buildDomains cfg ⟨[], c.subDomain⟩

def RouteOp.domain {P : Type} : RouteOp P → Str
  | add domain .. => domain
  | del domain .. => domain

structure DomainCall (P : Type) where
  origin : DomainOrigin
  op : RouteOp P

variable {P : Type}

def DomainCall.Accepted (cfg : ServerConfig) (x : DomainCall P) : Prop :=
  ∃ c, validateDomainConfigForServer c cfg = none ∧ x.op.domain ∈ x.origin.domains cfg c

def Routers.conflicts (r : Routers P) : RouteOp P → Bool
  | .add domain location httpUser payload => (r.add domain location httpUser payload).isNone
  | .del .. => false

def subDomainConflicts (r : Routers P) : List (DomainCall P) → List Bool
  | [] => []
  | x :: xs =>
    match x.origin with
    | .customDomains => subDomainConflicts (r.exec x.op) xs
    | .subDomain => r.conflicts x.op :: subDomainConflicts (r.exec x.op) xs

end

open DomainOrigin Routers

/-! ## The names are apart -/

section
variable [UnicodeTables] {cfg : ServerConfig} {c c' : DomainConfig} {domain sub : Str}

theorem subDomain_lower (h : sub ∈ subDomain.domains cfg c) :
    c.subDomain ≠ [] ∧ sub.toLower = c.subDomain.toLower ++ Str.dot :: cfg.subDomainHost.toLower := by
  unfold domains buildDomains at h
  by_cases hs : c.subDomain = []
  · simp [hs] at h
  · simp only [List.filter_nil, List.nil_append, ne_eq, hs, not_false_eq_true, if_true, List.mem_singleton] at h
    rw [h, toLower_append (by decide)]; exact ⟨hs, rfl⟩

variable (h : validateDomainConfigForServer c cfg = none)
include h

theorem subDomainHost_ne_nil (hs : c.subDomain ≠ []) : cfg.subDomainHost ≠ [] := by
  intro hhost
  simp only [validateDomainConfigForServer] at h
  split at h
  · cases h
  · simp [hs, hhost] at h

theorem customDomain_apart (hd : domain ∈ c.customDomains)
    (hhost : cfg.subDomainHost ≠ []) (s : Str) : domain.toLower ≠ s ++ Str.dot :: cfg.subDomainHost.toLower := by
  intro heq
  simp only [validateDomainConfigForServer] at h
  split at h
  · cases h
  · rename_i hnone
    have hno := List.find?_eq_none.mp hnone domain hd
    simp only [decide_eq_true_eq] at hno
    refine hno ⟨toLower_ne_nil hhost, ?_, ?_⟩
    · -- the labels before the dot make it longer
      rw [heq, split_append, List.length_append]
      have := List.length_pos_iff.mpr (split_ne_nil s Str.dot)
      omega
    · rw [heq]; exact List.isSuffixOf_iff_suffix.mpr (List.suffix_append _ _)

theorem domains_apart (h' : validateDomainConfigForServer c' cfg = none)
    (hd : domain ∈ customDomains.domains cfg c) (hs : sub ∈ subDomain.domains cfg c') :
    domain.toLower ≠ sub.toLower := by
  obtain ⟨hne, hlower⟩ := subDomain_lower hs
  rw [hlower]
  refine customDomain_apart h ?_ (subDomainHost_ne_nil h' hne) _
  simp only [domains, buildDomains, ne_eq, not_true_eq_false, if_false, List.append_nil] at hd
  exact (List.mem_filter.mp hd).1

end

/-! ## A call reads and writes the routes of its own domain -/

section
variable [UnicodeCase] {P : Type} {r r' : Routers P} {op : RouteOp P}

def RouteOp.act (op : RouteOp P) (d u : Str) (vrs : List (Router P)) : List (Router P) :=
  match op with
  | .add domain location httpUser payload =>
    if d = domain.toLower ∧ u = httpUser ∧ ¬ (vrs.find? fun vr => location = vr.location).isSome then
      List.insertionSort (fun a b => b.location ≤ a.location) (vrs ++ [⟨domain.toLower, location, httpUser, payload⟩])
    else vrs
  | .del domain location httpUser =>
    if d = domain.toLower ∧ u = httpUser then vrs.filter fun vr => vr.location ≠ location else vrs

theorem exec_index (r : Routers P) (op : RouteOp P) (d u : Str) :
    (r.exec op).indexByDomain d u = op.act d u (r.indexByDomain d u) := by
  cases op with
  | add domain location httpUser payload =>
    by_cases hex : (r.exist domain.toLower location httpUser).isSome = true
    · have hr : r.exec (.add domain location httpUser payload) = r := by simp [exec, add, hex]
      rw [hr]
      refine (if_neg fun h => ?_).symm
      obtain ⟨rfl, rfl, hfree⟩ := h
      exact hfree hex
    · have hr : r.exec (.add domain location httpUser payload) = r.put domain.toLower httpUser
          (List.insertionSort (fun a b => b.location ≤ a.location)
            (r.indexByDomain domain.toLower httpUser ++ [⟨domain.toLower, location, httpUser, payload⟩])) := by
        simp [exec, add, hex]
      rw [hr]
      by_cases hk : d = domain.toLower ∧ u = httpUser
      · obtain ⟨rfl, rfl⟩ := hk
        exact (if_pos ⟨rfl, rfl⟩).trans (if_pos ⟨rfl, rfl, hex⟩).symm
      · exact (if_neg hk).trans (if_neg fun h => hk ⟨h.1, h.2.1⟩).symm
  | del domain location httpUser =>
    unfold exec RouteOp.act
    rw [del_index]
    by_cases hk : d = domain.toLower ∧ u = httpUser
    · obtain ⟨rfl, rfl⟩ := hk
      simp
    · simp [hk]

theorem exec_other {d : Str} (hd : op.domain.toLower ≠ d) (u : Str) :
    (r.exec op).indexByDomain d u = r.indexByDomain d u := by
  rw [exec_index]
  cases op with
  | add | del => exact if_neg fun h => hd h.1.symm

theorem conflicts_add (r : Routers P) (domain location httpUser : Str) (payload : P) :
    r.conflicts (.add domain location httpUser payload) = (r.exist domain.toLower location httpUser).isSome := by
  unfold conflicts add
  by_cases hex : (r.exist domain.toLower location httpUser).isSome = true
  · simp [hex]
  · simp [hex]

theorem conflicts_congr (h : ∀ u, r.indexByDomain op.domain.toLower u = r'.indexByDomain op.domain.toLower u) :
    r.conflicts op = r'.conflicts op := by
  cases op with
  | add domain location httpUser =>
    have hu : r.indexByDomain domain.toLower httpUser = r'.indexByDomain domain.toLower httpUser := h httpUser
    rw [conflicts_add, conflicts_add, exist, exist, hu]
  | del => rfl

end

section
variable [UnicodeTables] {P : Type} {cfg : ServerConfig}

def SubDomainName (cfg : ServerConfig) (d : Str) : Prop :=
  ∃ c, validateDomainConfigForServer c cfg = none ∧ ∃ sub ∈ DomainOrigin.subDomain.domains cfg c, sub.toLower = d

theorem subDomainConflicts_congr (xs : List (DomainCall P)) (h : ∀ x ∈ xs, x.Accepted cfg) : ∀ r r' : Routers P,
    (∀ d, SubDomainName cfg d → ∀ u, r.indexByDomain d u = r'.indexByDomain d u) →
      subDomainConflicts r xs = subDomainConflicts r' (xs.filter (·.origin = .subDomain)) := by
  induction xs with
  | nil => exact fun _ _ _ => rfl
  | cons x xs ih =>
    obtain ⟨⟨c, hc, hx⟩, hxs⟩ := List.forall_mem_cons.mp h
    intro r r' hsame
    cases ho : x.origin with
    | customDomains =>
      rw [ho] at hx
      simp only [subDomainConflicts, ho, List.filter_cons, reduceCtorEq, decide_false, Bool.false_eq_true, if_false]
      refine ih hxs _ _ fun d hd u => ?_
      obtain ⟨c', hc', sub, hsub, rfl⟩ := hd
      rw [exec_other (domains_apart hc hc' hx hsub)]; exact hsame _ ⟨c', hc', sub, hsub, rfl⟩ u
    | subDomain =>
      rw [ho] at hx
      simp only [subDomainConflicts, ho, List.filter_cons, decide_true, if_true]
      rw [conflicts_congr (hsame _ ⟨c, hc, _, hx, rfl⟩)]
      refine congrArg _ (ih hxs _ _ fun d hd u => ?_)
      rw [exec_index, exec_index, hsame d hd u]

/-- No custom domain of an accepted configuration is filed under the name of a subdomain. -/
theorem custom_domains_cannot_take_subdomains (cfg : ServerConfig) :
    (∀ c c', validateDomainConfigForServer c cfg = none → validateDomainConfigForServer c' cfg = none →
      ∀ domain ∈ DomainOrigin.customDomains.domains cfg c, ∀ sub ∈ DomainOrigin.subDomain.domains cfg c',
        domain.toLower ≠ sub.toLower) ∧
    ∀ (r : Routers P) (xs : List (DomainCall P)), (∀ x ∈ xs, x.Accepted cfg) →
      subDomainConflicts r xs = subDomainConflicts r (xs.filter (·.origin = .subDomain)) :=
  ⟨fun _ _ hc hc' _ hd _ hs => domains_apart hc hc' hd hs,
    fun r xs h => subDomainConflicts_congr xs h r r fun _ _ _ => rfl⟩

end

section

@[reducible] def UnicodeTables.unchanged : UnicodeTables := ⟨id⟩

attribute [local instance] UnicodeTables.unchanged

def exampleServer : ServerConfig := ⟨[], lit "Example.com", 80, 443, 0, 0⟩

theorem custom_domains_cannot_take_subdomains_web :
    ∃ c : DomainConfig, validateDomainConfigForServer c exampleServer = none ∧
      validateDomainConfigForServer ⟨[lit "web.example.com"], []⟩ exampleServer ≠ none ∧
      lit "WWW.example.org" ∈ DomainOrigin.customDomains.domains exampleServer c ∧
      lit "web.Example.com" ∈ DomainOrigin.subDomain.domains exampleServer c ∧
      Str.toLower (lit "WWW.example.org") ≠ Str.toLower (lit "web.Example.com") := by
  refine ⟨⟨[lit "WWW.example.org"], lit "web"⟩, by decide, by decide, by decide, by decide, ?_⟩
  exact (custom_domains_cannot_take_subdomains (P := Unit) exampleServer).1 ⟨[lit "WWW.example.org"], lit "web"⟩
    ⟨[lit "WWW.example.org"], lit "web"⟩ (by decide) (by decide) _ (by decide) _ (by decide)

end

end Frp
