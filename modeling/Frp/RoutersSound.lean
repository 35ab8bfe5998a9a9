import Frp.PrefixMatch
import Frp.Routers

/-!
# The routing table as a map

A table with a history of `Add` and `Del` is a map from domain, location and user to what
was added, and a lookup chooses among its entries.
-/

namespace Frp

variable {P : Type}

abbrev RouteTable (P : Type) := Str → Str → Str → Option P

inductive RouteOp (P : Type)
  | add (domain location httpUser : Str) (payload : P)
  | del (domain location httpUser : Str)

open Routers

section
variable [UnicodeCase]

def Routers.exec (r : Routers P) : RouteOp P → Routers P
  | .add domain location httpUser payload => (r.add domain location httpUser payload).getD r
  | .del domain location httpUser => r.del domain location httpUser

def Routers.run (ops : List (RouteOp P)) : Routers P := ops.foldl Routers.exec .new

def RouteTable.exec (T : RouteTable P) : RouteOp P → RouteTable P
  | .add domain location httpUser payload => fun d l u =>
    if d = domain.toLower ∧ l = location ∧ u = httpUser then (T d l u).or (some payload) else T d l u
  | .del domain location httpUser => fun d l u =>
    if d = domain.toLower ∧ l = location ∧ u = httpUser then none else T d l u

theorem RouteTable.exec_add (T : RouteTable P) (domain location httpUser : Str) (payload : P) (d l u : Str) :
    RouteTable.exec T (.add domain location httpUser payload) d l u =
      if d = domain.toLower ∧ l = location ∧ u = httpUser then (T d l u).or (some payload) else T d l u := rfl

theorem RouteTable.exec_del (T : RouteTable P) (domain location httpUser : Str) (d l u : Str) :
    RouteTable.exec T (.del domain location httpUser) d l u =
      if d = domain.toLower ∧ l = location ∧ u = httpUser then none else T d l u := rfl

def registered (ops : List (RouteOp P)) : RouteTable P := ops.foldl RouteTable.exec fun _ _ _ => none

end

/-! ## The table represents the map -/

structure Routers.Represents (r : Routers P) (T : RouteTable P) : Prop where
  sorted : ∀ d u, (r.indexByDomain d u).Pairwise fun a b => b.location < a.location
  mem : ∀ d u vr, vr ∈ r.indexByDomain d u ↔ vr.domain = d ∧ vr.httpUser = u ∧ T d vr.location u = some vr.payload

namespace Routers.Represents

variable {r : Routers P} {T : RouteTable P}

theorem new : (Routers.new : Routers P).Represents fun _ _ _ => none where
  sorted _ _ := List.Pairwise.nil
  mem _ _ _ := by simp [Routers.new]

variable (h : r.Represents T)
include h

theorem exist_isSome (d l u : Str) : (r.exist d l u).isSome = true ↔ T d l u ≠ none := by
  unfold exist
  rw [List.find?_isSome]
  constructor
  · rintro ⟨vr, hm, hl⟩
    have heq : l = vr.location := by simpa using hl
    rw [heq, ((h.mem d u vr).mp hm).2.2]; simp
  · intro hT
    obtain ⟨p, hp⟩ := Option.ne_none_iff_exists'.mp hT
    exact ⟨⟨d, l, u, p⟩, (h.mem d u _).mpr ⟨rfl, rfl, hp⟩, by simp⟩

variable [UnicodeCase]

theorem add_eq_none (domain location httpUser : Str) (payload : P) :
    r.add domain location httpUser payload = none ↔ T domain.toLower location httpUser ≠ none := by
  rw [← h.exist_isSome]
  simp only [add]
  split_ifs with he <;> simp [he]

variable {domain location httpUser : Str}

theorem add_distinct {r' : Routers P} {payload : P}
    (ha : r.add domain location httpUser payload = some r') (d u : Str) :
    (r'.indexByDomain d u).Pairwise fun a b => b.location ≠ a.location := by
  have hold : ∀ d u, (r.indexByDomain d u).Pairwise fun a b => b.location ≠ a.location :=
    fun d u => (h.sorted d u).imp fun hlt => Std.ne_of_lt hlt
  obtain ⟨hne, rfl⟩ := add_eq_some ha
  show List.Pairwise _ (if d = domain.toLower ∧ u = httpUser then _ else r.indexByDomain d u)
  split_ifs with hk
  · rw [(List.perm_insertionSort _ _).pairwise_iff (fun hab => hab.symm), List.pairwise_append]
    exact ⟨hold _ _, List.pairwise_singleton .., fun a ha b hb => by
      rw [List.mem_singleton.mp hb]
      exact (hne a ha).symm⟩
  · exact hold d u

theorem add {r' : Routers P} {payload : P} (ha : r.add domain location httpUser payload = some r') :
    r'.Represents (RouteTable.exec T (.add domain location httpUser payload)) := by
  have hfree : T domain.toLower location httpUser = none := by
    by_contra hT
    rw [(h.add_eq_none domain location httpUser payload).mpr hT] at ha; cases ha
  have hmem : ∀ d u vr, vr ∈ r'.indexByDomain d u ↔ vr.domain = d ∧ vr.httpUser = u ∧
      RouteTable.exec T (.add domain location httpUser payload) d vr.location u = some vr.payload := by
    intro d u vr
    rw [mem_add ha, h.mem, RouteTable.exec_add]
    split_ifs with hk
    · obtain ⟨rfl, hl, rfl⟩ := hk
      rw [hl, hfree, Option.none_or, Option.some_inj]; cases vr
      subst hl; simp [eq_comm]
    · refine ⟨fun hv => hv.resolve_right ?_, .inl⟩
      rintro ⟨rfl, rfl, rfl⟩
      exact hk ⟨rfl, rfl, rfl⟩
  refine ⟨fun d u => ?_, hmem⟩
  -- the sort leaves no two routes out of order, and no two have the same location
  have hle := (Sorted.add (fun d u => (h.sorted d u).imp fun hlt => Std.le_of_lt hlt) ha) d u
  exact (hle.and (h.add_distinct ha d u)).imp fun hab => Std.lt_of_le_of_ne hab.1 hab.2

theorem del (domain location httpUser : Str) :
    (r.del domain location httpUser).Represents (RouteTable.exec T (.del domain location httpUser)) where
  sorted d u := by
    rw [del_index]
    split_ifs with hk
    · exact (h.sorted _ _).filter _
    · exact h.sorted d u
  mem d u vr := by
    rw [mem_del, h.mem, RouteTable.exec_del]
    split_ifs with hk
    · obtain ⟨rfl, hl, rfl⟩ := hk
      simp [hl]
    · refine ⟨fun hv => hv.1, fun hv => ⟨hv, fun hk' => hk ⟨hk'.1, hk'.2.2, hk'.2.1⟩⟩⟩

theorem exec (op : RouteOp P) : (r.exec op).Represents (RouteTable.exec T op) := by
  cases op with
  | del domain location httpUser => exact h.del domain location httpUser
  | add domain location httpUser payload =>
    cases ha : r.add domain location httpUser payload with
    | some r' =>
      have hexec : r.exec (.add domain location httpUser payload) = r' := by
        simp only [Routers.exec, ha, Option.getD_some]
      rw [hexec]; exact h.add ha
    | none =>
      have hT := (h.add_eq_none domain location httpUser payload).mp ha
      have hsame : RouteTable.exec T (.add domain location httpUser payload) = T := by
        funext d l u
        rw [RouteTable.exec_add]
        split_ifs with hk
        · obtain ⟨rfl, rfl, rfl⟩ := hk
          obtain ⟨p, hp⟩ := Option.ne_none_iff_exists'.mp hT
          rw [hp]; rfl
        · rfl
      have hexec : r.exec (.add domain location httpUser payload) = r := by
        simp only [Routers.exec, ha, Option.getD_none]
      rw [hexec, hsame]; exact h

theorem foldl (ops : List (RouteOp P)) : (ops.foldl Routers.exec r).Represents (ops.foldl RouteTable.exec T) := by
  induction ops generalizing r T with
  | nil => exact h
  | cons op ops ih => exact ih (h.exec op)

end Routers.Represents

theorem Routers.run_represents [UnicodeCase] (ops : List (RouteOp P)) : (Routers.run ops).Represents (registered ops) :=
  Routers.Represents.new.foldl ops

/-! ## The lookup as a choice -/

namespace RouteTable

def MatchesUser (T : RouteTable P) (host path user : Str) : Prop := ∃ l, T host l user ≠ none ∧ l <+: path

structure Longest (T : RouteTable P) (host path user : Str) (vr : Router P) : Prop where
  domain : vr.domain = host
  httpUser : vr.httpUser = user
  registered : T host vr.location user = some vr.payload
  isPrefix : vr.location <+: path
  longest : ∀ l, T host l user ≠ none → l <+: path → l.length ≤ vr.location.length

def Matches (T : RouteTable P) (host path user : Str) : Prop :=
  T.MatchesUser host path user ∨ T.MatchesUser host path []

def Best (T : RouteTable P) (host path user : Str) (vr : Router P) : Prop :=
  T.Longest host path user vr ∨ ¬ T.MatchesUser host path user ∧ T.Longest host path [] vr

def wildcards (labels : List Str) : List Str :=
  (List.range (labels.length - 2)).map fun k => Str.join (lit "*" :: labels.drop (k + 1)) Str.dot

def candidates (host : Str) : List Str := host :: (wildcards (host.split Str.dot) ++ [lit "*"])

def Chosen (T : RouteTable P) (host path user : Str) (vr : Router P) : Prop :=
  ∃ before c after, candidates host = before ++ c :: after ∧ T.Best c path user vr ∧
    ∀ b ∈ before, ¬ T.Matches b path user

end RouteTable

open RouteTable

namespace Routers.Represents

variable {r : Routers P} {T : RouteTable P}

variable (h : r.Represents T)
include h

variable {host path user : Str}

theorem getLocked_some {vr : Router P} : r.getLocked host path user = some vr ↔ T.Longest host path user vr := by
  have hq : ∀ b : Router P, path.hasPrefix b.location = true ↔ b.location <+: path :=
    fun b => List.isPrefixOf_iff_prefix
  unfold getLocked
  rw [find?_eq_some_iff_longest hq (h.sorted host user), h.mem]
  constructor
  · rintro ⟨⟨hd, hu, hT⟩, hp, hmax⟩
    refine ⟨hd, hu, hT, hp, fun l hl hlp => ?_⟩
    obtain ⟨p, hlT⟩ := Option.ne_none_iff_exists'.mp hl
    exact hmax ⟨host, l, user, p⟩ ((h.mem host user _).mpr ⟨rfl, rfl, hlT⟩) hlp
  · intro hv
    refine ⟨⟨hv.domain, hv.httpUser, hv.registered⟩, hv.isPrefix, fun c hc hcp => hv.longest _ ?_ hcp⟩
    rw [((h.mem host user c).mp hc).2.2]; simp

theorem getLocked_none : r.getLocked host path user = none ↔ ¬ T.MatchesUser host path user := by
  unfold getLocked
  rw [List.find?_eq_none]
  constructor
  · rintro hno ⟨l, hl, hlp⟩
    obtain ⟨p, hlT⟩ := Option.ne_none_iff_exists'.mp hl
    exact hno ⟨host, l, user, p⟩ ((h.mem host user _).mpr ⟨rfl, rfl, hlT⟩) (List.isPrefixOf_iff_prefix.mpr hlp)
  · intro hno vr hv hp
    refine hno ⟨vr.location, ?_, List.isPrefixOf_iff_prefix.mp hp⟩
    rw [((h.mem host user vr).mp hv).2.2]; simp

theorem getExactOrAllUsers_some {vr : Router P} :
    r.getExactOrAllUsersLocked host path user = some vr ↔ T.Best host path user vr := by
  unfold getExactOrAllUsersLocked Best
  rw [Option.or_eq_some_iff, h.getLocked_some, h.getLocked_none, h.getLocked_some]

theorem getExactOrAllUsers_none :
    r.getExactOrAllUsersLocked host path user = none ↔ ¬ T.Matches host path user := by
  unfold getExactOrAllUsersLocked Matches
  rw [Option.or_eq_none_iff, h.getLocked_none, h.getLocked_none, not_or]

end Routers.Represents

theorem wildcards_cons (a b c : Str) (rest : List Str) : wildcards (a :: b :: c :: rest) =
    Str.join (lit "*" :: b :: c :: rest) Str.dot :: wildcards (b :: c :: rest) := by
  unfold wildcards
  have hlen : (a :: b :: c :: rest).length - 2 = ((b :: c :: rest).length - 2) + 1 := by simp
  rw [hlen, List.range_succ_eq_map, List.map_cons, List.map_map]; rfl

theorem Routers.wildcardWalk_eq (r : Routers P) (path user : Str) (labels : List Str) :
    r.wildcardWalk path user labels = (wildcards labels).findSome? (r.getExactOrAllUsersLocked · path user) := by
  induction labels with
  | nil => rfl
  | cons a labels ih =>
    match labels, ih with
    | [], _ => rfl
    | [b], _ => rfl
    | b :: c :: rest, ih =>
      rw [wildcards_cons, List.findSome?_cons, wildcardWalk, ih]
      cases r.getExactOrAllUsersLocked (Str.join (lit "*" :: b :: c :: rest) Str.dot) path user <;> rfl

theorem Routers.getByRoute_eq [UnicodeCase] (r : Routers P) (host path user : Str) :
    r.getByRoute host path user =
      (candidates host.toLower).findSome? (r.getExactOrAllUsersLocked · path user) := by
  simp only [getByRoute, candidates, List.findSome?_cons, List.findSome?_append, r.wildcardWalk_eq]
  cases r.getExactOrAllUsersLocked host.toLower path user with
  | some => rfl
  | none =>
    rw [Option.none_or]
    cases r.getExactOrAllUsersLocked (lit "*") path user <;> rfl

/-- After any history of `Add` and `Del` the routes of a domain and user are in descending order of
location, and a lookup returns the one chosen among the registered ones. -/
theorem vhost_routing [UnicodeCase] (ops : List (RouteOp P)) :
    (∀ d u, ((Routers.run ops).indexByDomain d u).Pairwise fun a b => b.location < a.location) ∧
    (∀ domain location user payload, (Routers.run ops).add domain location user payload = none ↔
      registered ops domain.toLower location user ≠ none) ∧
    ∀ host path user,
      (∀ vr, (Routers.run ops).getByRoute host path user = some vr ↔
        (registered ops).Chosen host.toLower path user vr) ∧
      ((Routers.run ops).getByRoute host path user = none ↔
        ∀ c ∈ candidates host.toLower, ¬ (registered ops).Matches c path user) := by
  have h := run_represents ops
  refine ⟨h.sorted, h.add_eq_none, fun host path user => ⟨fun vr => ?_, ?_⟩⟩
  · rw [getByRoute_eq, List.findSome?_eq_some_iff]
    simp only [h.getExactOrAllUsers_some, h.getExactOrAllUsers_none]; rfl
  · rw [getByRoute_eq, List.findSome?_eq_none_iff]; simp only [h.getExactOrAllUsers_none]

end Frp
