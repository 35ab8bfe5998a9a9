import Frp.Str
import Mathlib.Data.List.Sort

/-!
# Virtual-host routing table

`pkg/util/vhost/router.go`. A route is filed under its lower-cased domain and its HTTP user,
in descending order of location, so the first prefix match is the longest. A missing map
entry is an empty list.
-/

namespace Frp

structure Router (P : Type) where
  domain : Str
  location : Str
  httpUser : Str
  payload : P
  deriving DecidableEq

structure Routers (P : Type) where
  indexByDomain : Str → Str → List (Router P)

namespace Routers

variable {P : Type}

def new : Routers P := ⟨fun _ _ => []⟩

def put (r : Routers P) (domain httpUser : Str) (vrs : List (Router P)) : Routers P :=
  ⟨fun d u => if d = domain ∧ u = httpUser then vrs else r.indexByDomain d u⟩

def exist (r : Routers P) (host path httpUser : Str) : Option (Router P) :=
  (r.indexByDomain host httpUser).find? fun vr => path = vr.location

/-- `none` is `ErrRouterConfigConflict`. -/
def add [UnicodeCase] (r : Routers P) (domain location httpUser : Str) (payload : P) : Option (Routers P) :=
  let domain := domain.toLower
  if (r.exist domain location httpUser).isSome then none
  else
    let vrs := r.indexByDomain domain httpUser ++ [⟨domain, location, httpUser, payload⟩]
    some (r.put domain httpUser (vrs.insertionSort fun a b => b.location ≤ a.location))

def del [UnicodeCase] (r : Routers P) (domain location httpUser : Str) : Routers P :=
  let domain := domain.toLower
  r.put domain httpUser ((r.indexByDomain domain httpUser).filter fun vr => vr.location ≠ location)

def getLocked (r : Routers P) (host path httpUser : Str) : Option (Router P) :=
  (r.indexByDomain host httpUser).find? fun vr => path.hasPrefix vr.location

def getExactOrAllUsersLocked (r : Routers P) (host path httpUser : Str) : Option (Router P) :=
  (r.getLocked host path httpUser).or (r.getLocked host path [])

def wildcardWalk (r : Routers P) (path httpUser : Str) : List Str → Option (Router P)
  | _ :: b :: c :: rest =>
    (r.getExactOrAllUsersLocked (Str.join (lit "*" :: b :: c :: rest) Str.dot) path httpUser).or
      (wildcardWalk r path httpUser (b :: c :: rest))
  | _ => none

def getByRoute [UnicodeCase] (r : Routers P) (host path httpUser : Str) : Option (Router P) :=
  let host := host.toLower
  (r.getExactOrAllUsersLocked host path httpUser).or
    ((r.wildcardWalk path httpUser (host.split Str.dot)).or
      (r.getExactOrAllUsersLocked (lit "*") path httpUser))

/-! ## What the table holds -/

variable [UnicodeCase] {r r' : Routers P} {domain location httpUser d u : Str} {payload : P} {vr : Router P}

theorem mem_add (h : r.add domain location httpUser payload = some r') :
    vr ∈ r'.indexByDomain d u ↔ vr ∈ r.indexByDomain d u ∨
      d = domain.toLower ∧ u = httpUser ∧ vr = ⟨domain.toLower, location, httpUser, payload⟩ := by
  by_cases he : (r.exist domain.toLower location httpUser).isSome = true
  · simp [add, he] at h
  · simp only [add, he] at h
    cases h
    by_cases hk : d = domain.toLower ∧ u = httpUser
    · obtain ⟨rfl, rfl⟩ := hk
      simp [put, List.mem_insertionSort]
    · simp only [put, hk, if_false, ← and_assoc, false_and, or_false]

theorem mem_del : vr ∈ (r.del domain location httpUser).indexByDomain d u ↔
    vr ∈ r.indexByDomain d u ∧ ¬ (d = domain.toLower ∧ u = httpUser ∧ vr.location = location) := by
  unfold del put
  by_cases hk : d = domain.toLower ∧ u = httpUser
  · obtain ⟨rfl, rfl⟩ := hk
    simp
  · simp only [hk, if_false, ← and_assoc, false_and, not_false_eq_true, and_true]

/-! ## Adding a route and deleting it again -/

theorem add_eq_some (h : r.add domain location httpUser payload = some r') :
    (∀ vr ∈ r.indexByDomain domain.toLower httpUser, vr.location ≠ location) ∧
    r' = r.put domain.toLower httpUser (List.insertionSort (fun a b => b.location ≤ a.location)
      (r.indexByDomain domain.toLower httpUser ++ [⟨domain.toLower, location, httpUser, payload⟩])) := by
  by_cases he : (r.exist domain.toLower location httpUser).isSome = true
  · simp [add, he] at h
  · simp only [add, he] at h
    cases h
    refine ⟨fun vr hm hl => he ?_, rfl⟩
    unfold exist
    rw [List.find?_isSome]; exact ⟨vr, hm, by simp [hl]⟩

omit [UnicodeCase] in
theorem ext_index (h : ∀ d u, r.indexByDomain d u = r'.indexByDomain d u) : r = r' := by
  cases r
  cases r'
  congr 1
  funext d u
  exact h d u

theorem del_index (r : Routers P) (domain location httpUser d u : Str) :
    (r.del domain location httpUser).indexByDomain d u =
      if d = domain.toLower ∧ u = httpUser then
        (r.indexByDomain domain.toLower httpUser).filter fun vr => vr.location ≠ location
      else r.indexByDomain d u := rfl

theorem del_comm (r : Routers P) (domain location httpUser domain' location' httpUser' : Str) :
    (r.del domain location httpUser).del domain' location' httpUser' =
      (r.del domain' location' httpUser').del domain location httpUser := by
  refine ext_index fun d u => ?_
  simp only [del_index]
  by_cases h : d = domain.toLower ∧ u = httpUser
  · obtain ⟨rfl, rfl⟩ := h
    by_cases h' : domain.toLower = domain'.toLower ∧ u = httpUser'
    · simp [← h'.1, ← h'.2, Bool.and_comm]
    · simp [h']
  · by_cases h' : d = domain'.toLower ∧ u = httpUser'
    · obtain ⟨rfl, rfl⟩ := h'
      simp [h]
    · simp [h, h']

def Sorted (r : Routers P) : Prop := ∀ d u, (r.indexByDomain d u).Pairwise fun a b => b.location ≤ a.location

omit [UnicodeCase] in
theorem Sorted.put (h : r.Sorted) {vrs : List (Router P)} (hv : vrs.Pairwise fun a b => b.location ≤ a.location) :
    (r.put d u vrs).Sorted := by
  intro d' u'
  unfold Routers.put
  by_cases hk : d' = d ∧ u' = u
  · simp only [hk, and_self, if_true]; exact hv
  · simp only [hk, if_false]; exact h d' u'

theorem Sorted.add (h : r.Sorted) (ha : r.add domain location httpUser payload = some r') : r'.Sorted := by
  obtain ⟨-, rfl⟩ := add_eq_some ha
  have : Std.Total fun a b : Router P => b.location ≤ a.location := ⟨fun a b => List.le_total b.location a.location⟩
  have : IsTrans (Router P) fun a b => b.location ≤ a.location := ⟨fun _ _ _ hab hbc => List.le_trans hbc hab⟩
  exact h.put (List.pairwise_insertionSort _ _)

theorem Sorted.del (h : r.Sorted) : (r.del domain location httpUser).Sorted :=
  h.put ((h _ _).filter _)

theorem Sorted.del_add (h : r.Sorted) (ha : r.add domain location httpUser payload = some r') :
    r'.del domain location httpUser = r := by
  obtain ⟨hne, rfl⟩ := add_eq_some ha
  have hkeep : (r.indexByDomain domain.toLower httpUser).filter (fun vr => vr.location ≠ location) =
      r.indexByDomain domain.toLower httpUser := by
    rw [List.filter_eq_self]
    intro vr hm; simp [hne vr hm]
  -- the old routes are a sublist of the sorted ones, and as many as the filter keeps
  have hsub := List.sublist_insertionSort (h domain.toLower httpUser)
    (List.sublist_append_left _ [(⟨domain.toLower, location, httpUser, payload⟩ : Router P)])
  have hperm := (List.perm_insertionSort (fun a b : Router P => b.location ≤ a.location)
    (r.indexByDomain domain.toLower httpUser ++ [⟨domain.toLower, location, httpUser, payload⟩])).filter
      (fun vr => vr.location ≠ location)
  have hfil := hsub.filter (fun vr => vr.location ≠ location)
  rw [hkeep] at hfil
  have hlen := hperm.length_eq
  rw [List.filter_append, hkeep] at hlen
  have heq := hfil.eq_of_length (by rw [hlen]; simp)
  refine ext_index fun d u => ?_
  rw [del_index]
  by_cases hk : d = domain.toLower ∧ u = httpUser
  · obtain ⟨rfl, rfl⟩ := hk
    simp only [and_self, if_true, Routers.put]; exact heq.symm
  · simp only [hk, if_false, Routers.put]

def delAll (keys : List (Str × Str × Str)) (r : Routers P) : Routers P :=
  keys.foldl (fun r k => r.del k.1 k.2.1 k.2.2) r

theorem delAll_del (keys : List (Str × Str × Str)) (r : Routers P) (domain location httpUser : Str) :
    (r.delAll keys).del domain location httpUser = (r.del domain location httpUser).delAll keys := by
  induction keys generalizing r with
  | nil => rfl
  | cons k keys ih =>
    show ((r.del k.1 k.2.1 k.2.2).delAll keys).del domain location httpUser = _
    rw [ih, del_comm]; rfl

/-- Routes were added to `base` under these keys. Deletions commute, so the order in which they
are deleted again does not matter. -/
structure Holds (base : Routers P) (keys : List (Str × Str × Str)) (r : Routers P) : Prop where
  sorted : r.Sorted
  back : r.delAll keys = base

namespace Holds

variable {base : Routers P} {keys : List (Str × Str × Str)}

theorem add (h : Holds base keys r) (ha : r.add domain location httpUser payload = some r') :
    Holds base (keys ++ [(domain, location, httpUser)]) r' where
  sorted := h.sorted.add ha
  back := by
    have happ : r'.delAll (keys ++ [(domain, location, httpUser)]) =
        (r'.delAll keys).del domain location httpUser := by
      unfold delAll
      rw [List.foldl_append]; rfl
    rw [happ, delAll_del, h.sorted.del_add ha, h.back]

theorem del (h : Holds base ((domain, location, httpUser) :: keys) r) :
    Holds base keys (r.del domain location httpUser) where
  sorted := h.sorted.del
  back := h.back

end Holds

end Routers

end Frp
