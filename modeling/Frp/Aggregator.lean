import Frp.StoreSound

/-!
# The sources of the client's configuration

`pkg/config/source`: `Aggregator.Load` puts together what is enabled in the configuration
file and in the store. The order in which a map is gone through is an input of each load. A
source holds no nil entry, so copies do not fail.
-/

namespace Frp

class Configurer (α : Type) where
  name : α → Str
  enabled : α → Option Bool

open Configurer (name)

structure SourceMap (α : Type) [Configurer α] where
  entries : Str → Option α
  listed : Listed name entries

structure RangeOrder {α : Type} [Configurer α] (m : Str → Option α) where
  visited : List α
  enumerates : Enumerates name m visited

section
variable {α : Type} [Configurer α]

theorem enumerates_nil : Enumerates (name (α := α)) (fun _ => none) [] := ⟨List.nodup_nil, by simp⟩

namespace SourceMap

def empty : SourceMap α := ⟨fun _ => none, Listed.empty⟩

def put (m : SourceMap α) (a : α) (ha : name a ≠ []) : SourceMap α :=
  ⟨Function.update m.entries (name a) (some a), m.listed.insert ha⟩

end SourceMap

def isEnabled (a : α) : Bool := Configurer.enabled a != some false

def RangeOrder.load {m : Str → Option α} (o : RangeOrder m) : List α := o.visited.filter isEnabled

def assignAll (m : Str → Option α) (l : List α) : Str → Option α :=
  l.foldl (fun m a => Function.update m (name a) (some a)) m

def sortedByName (l : List α) : List α := l.mergeSort fun x y => decide (name x ≤ name y)

theorem named_of_validateName {kind : StoreKind} {p : Option α} {n : Str} {a : α}
    (h : validateName kind name p = .ok (n, a)) : name a ≠ [] := by
  obtain ⟨-, hname, hne⟩ := validateName_ok h
  rw [hname]; exact hne

def replaceEntries (kind : StoreKind) : List (Option α) → SourceMap α → Except StoreError (SourceMap α)
  | [], next => .ok next
  | p :: ps, next =>
    match h : validateName kind name p with
    | .error err => .error err
    | .ok (_, a) => replaceEntries kind ps (next.put a (named_of_validateName h))

end

structure BaseSource (P V : Type) [Configurer P] [Configurer V] where
  proxies : SourceMap P
  visitors : SourceMap V

section
variable {P V : Type} [Configurer P] [Configurer V]

def BaseSource.replaceAll (s : BaseSource P V) (proxies : List (Option P)) (visitors : List (Option V)) :
    BaseSource P V × Option StoreError :=
  match replaceEntries .proxy proxies .empty with
  | .error err => (s, some err)
  | .ok nextProxies =>
    match replaceEntries .visitor visitors .empty with
    | .error err => (s, some err)
    | .ok nextVisitors => (⟨nextProxies, nextVisitors⟩, none)

end

structure LoadedMap (α : Type) [Configurer α] where
  map : SourceMap α
  order : RangeOrder map.entries

structure LoadedSource (P V : Type) [Configurer P] [Configurer V] where
  proxies : LoadedMap P
  visitors : LoadedMap V

structure Aggregator (P V : Type) [Configurer P] [Configurer V] where
  configSource : BaseSource P V
  storeSource : Option (BaseSource P V)

section
variable {α P V : Type} [Configurer α] [Configurer P] [Configurer V]

def LoadedSource.source (s : LoadedSource P V) : BaseSource P V := ⟨s.proxies.map, s.visitors.map⟩

def mergeMaps (maps : List (LoadedMap α)) : Str → Option α :=
  maps.foldl (fun m s => assignAll m s.order.load) fun _ => none

namespace Aggregator

def getSourcesLocked (a : Aggregator P V) : List (BaseSource P V) := a.configSource :: a.storeSource.toList

/-- `Load`, where `entries` are the sources as they are gone through, and the last two arguments the orders in which
the values of the merged maps are. -/
def load (entries : List (LoadedSource P V)) (proxies : RangeOrder (mergeMaps (entries.map (·.proxies))))
    (visitors : RangeOrder (mergeMaps (entries.map (·.visitors)))) : Except Str (List P × List V) :=
  if entries = [] then .error (lit "no sources configured")
  else .ok (sortedByName proxies.visited, sortedByName visitors.visited)

end Aggregator

end

/-! ## One load -/

section
variable {α : Type} [Configurer α]

def SourceMap.enabledAt (m : SourceMap α) (n : Str) : Option α := (m.entries n).filter isEnabled

/-- What a merge of sources has under a name: the last source in which it is enabled decides. -/
def override (maps : List (SourceMap α)) (n : Str) : Option α := maps.foldl (fun acc m => (m.enabledAt n).or acc) none

variable {m : Str → Option α}

theorem RangeOrder.load_nodup (o : RangeOrder m) : (o.load.map name).Nodup :=
  o.enumerates.1.sublist (List.filter_sublist.map name)

theorem RangeOrder.mem_load (s : LoadedMap α) (n : Str) (a : α) :
    a ∈ s.order.load ∧ name a = n ↔ s.map.enabledAt n = some a := by
  rw [RangeOrder.load, List.mem_filter, SourceMap.enabledAt, Option.filter_eq_some_iff, s.order.enumerates.2 n a]
  exact and_right_comm

theorem RangeOrder.not_mem_load (s : LoadedMap α) (n : Str) :
    (∀ a ∈ s.order.load, name a ≠ n) ↔ s.map.enabledAt n = none := by
  rw [Option.eq_none_iff_forall_ne_some]
  constructor
  · intro h a ha
    have hload := (mem_load s n a).mpr ha
    exact h a hload.1 hload.2
  · intro h a ha hname; exact h a ((mem_load s n a).mp ⟨ha, hname⟩)

theorem assignAll_load (s : LoadedMap α) (acc : Str → Option α) (n : Str) :
    assignAll acc s.order.load n = (s.map.enabledAt n).or (acc n) := by
  apply Option.ext
  intro a
  unfold assignAll
  rw [foldl_update_eq_some s.order.load_nodup, RangeOrder.mem_load, RangeOrder.not_mem_load, Option.or_eq_some_iff,
    and_comm]

theorem mergeMaps_eq (maps : List (LoadedMap α)) (n : Str) : mergeMaps maps n = override (maps.map (·.map)) n := by
  -- over any map that the earlier sources have left
  suffices h : ∀ acc : Str → Option α,
      maps.foldl (fun m s => assignAll m s.order.load) acc n =
        (maps.map (·.map)).foldl (fun acc m => (m.enabledAt n).or acc) (acc n) from h _
  induction maps with
  | nil => exact fun acc => rfl
  | cons s maps ih =>
    intro acc; rw [List.foldl_cons, ih, List.map_cons, List.foldl_cons, assignAll_load]

theorem sortedByName_perm (l : List α) : (sortedByName l).Perm l := List.mergeSort_perm l _

theorem sortedByName_sorted (l : List α) : (sortedByName l).Pairwise fun x y => name x ≤ name y := by
  have htrans : ∀ x y z : α, decide (name x ≤ name y) = true → decide (name y ≤ name z) = true →
      decide (name x ≤ name z) = true := by
    intro x y z hxy hyz
    exact decide_eq_true (List.le_trans (of_decide_eq_true hxy) (of_decide_eq_true hyz))
  have htotal : ∀ x y : α, (decide (name x ≤ name y) || decide (name y ≤ name x)) = true := by
    intro x y; simpa using List.le_total (name x) (name y)
  exact (List.pairwise_mergeSort htrans htotal l).imp of_decide_eq_true

/-! A load always has orders to go by: the merged map is a map as those of the sources are. -/

theorem assignAll_listed {l : List α} (hl : ∀ a ∈ l, name a ≠ []) :
    ∀ {m : Str → Option α}, Listed name m → Listed name (assignAll m l) := by
  induction l with
  | nil => exact fun hm => hm
  | cons a l ih =>
    intro m hm
    exact ih (fun b hb => hl b (List.mem_cons_of_mem a hb)) (hm.insert (hl a List.mem_cons_self))

theorem LoadedMap.load_named (s : LoadedMap α) : ∀ a ∈ s.order.load, name a ≠ [] := by
  intro a ha
  obtain ⟨l, hl, hnamed⟩ := s.map.listed
  have hentry := (s.order.enumerates.2 _ a).mpr ⟨(List.mem_filter.mp ha).1, rfl⟩
  exact hnamed a ((hl.2 _ _).mp hentry).1

theorem mergeMaps_listed (maps : List (LoadedMap α)) : Listed name (mergeMaps maps) := by
  suffices h : ∀ m : Str → Option α, Listed name m →
      Listed name (maps.foldl (fun m s => assignAll m s.order.load) m) from h _ Listed.empty
  induction maps with
  | nil => exact fun m hm => hm
  | cons s maps ih => exact fun m hm => ih _ (assignAll_listed s.load_named hm)

theorem exists_order (h : Listed name m) : Nonempty (RangeOrder m) := by
  obtain ⟨l, hl, -⟩ := h
  exact ⟨⟨l, hl⟩⟩

theorem exists_loadedMap (m : SourceMap α) : ∃ s : LoadedMap α, s.map = m := by
  obtain ⟨o⟩ := exists_order m.listed
  exact ⟨⟨m, o⟩, rfl⟩

/-- Sorted by distinct names, exactly those enabled in a source, each with the configuration of the
store if it is enabled there. -/
structure Aggregated (config : SourceMap α) (store : Option (SourceMap α)) (out : List α) : Prop where
  distinct : (out.map name).Nodup
  sorted : out.Pairwise fun x y => name x ≤ name y
  names : ∀ n, n ∈ out.map name ↔ (config.enabledAt n).isSome ∨ ∃ s ∈ store, (s.enabledAt n).isSome
  chosen : ∀ a ∈ out, (∃ s ∈ store, s.enabledAt (name a) = some a) ∨
    (∀ s ∈ store, s.enabledAt (name a) = none) ∧ config.enabledAt (name a) = some a

theorem override_cons_toList (config : SourceMap α) (store : Option (SourceMap α)) (n : Str) :
    override (config :: store.toList) n = (store.bind (·.enabledAt n)).or (config.enabledAt n) := by
  cases store <;> simp [override]

theorem sortedByName_aggregated {config : SourceMap α} {store : Option (SourceMap α)}
    (hm : ∀ n, m n = override (config :: store.toList) n) (o : RangeOrder m) :
    Aggregated config store (sortedByName o.visited) := by
  have hmem : ∀ n a, a ∈ sortedByName o.visited ∧ name a = n ↔
      (store.bind (·.enabledAt n)).or (config.enabledAt n) = some a := by
    intro n a; rw [(sortedByName_perm _).mem_iff, ← o.enumerates.2, hm, override_cons_toList]
  refine ⟨?_, sortedByName_sorted _, ?_, ?_⟩
  · exact ((sortedByName_perm _).map name).nodup_iff.mpr o.enumerates.1
  · intro n
    have hnames : n ∈ (sortedByName o.visited).map name ↔
        ((store.bind (·.enabledAt n)).or (config.enabledAt n)).isSome := by
      rw [List.mem_map, Option.isSome_iff_exists]; exact exists_congr (hmem n)
    rw [hnames, Option.isSome_or, Bool.or_eq_true, or_comm]
    cases store <;> simp
  · intro a ha
    have hchosen := (hmem _ a).mp ⟨ha, rfl⟩
    rw [Option.or_eq_some_iff] at hchosen
    cases store with
    | none | some => simpa using hchosen

end

section
variable {P V : Type} [Configurer P] [Configurer V]

theorem BaseSource.replaceAll_error {s : BaseSource P V} {proxies : List (Option P)} {visitors : List (Option V)}
    {err : StoreError} (h : (s.replaceAll proxies visitors).2 = some err) :
    (s.replaceAll proxies visitors).1 = s := by
  unfold BaseSource.replaceAll at h ⊢
  cases hp : replaceEntries .proxy proxies .empty with
  | error => rfl
  | ok =>
    cases hv : replaceEntries .visitor visitors .empty with
    | error => rfl
    | ok => simp [hp, hv] at h

theorem Aggregator.load_aggregated (a : Aggregator P V) {entries : List (LoadedSource P V)}
    (hentries : entries.map (·.source) = a.getSourcesLocked)
    (proxies : RangeOrder (mergeMaps (entries.map (·.proxies))))
    (visitors : RangeOrder (mergeMaps (entries.map (·.visitors)))) :
    ∃ ps vs, load entries proxies visitors = .ok (ps, vs) ∧
      Aggregated a.configSource.proxies (a.storeSource.map (·.proxies)) ps ∧
      Aggregated a.configSource.visitors (a.storeSource.map (·.visitors)) vs := by
  have hne : entries ≠ [] := by
    intro h
    rw [h] at hentries; cases hentries
  refine ⟨_, _, if_neg hne, sortedByName_aggregated (fun n => ?_) _, sortedByName_aggregated (fun n => ?_) _⟩
  · have hmaps : (entries.map (·.proxies)).map (·.map) = (entries.map (·.source)).map (·.proxies) := by
      rw [List.map_map, List.map_map]; rfl
    rw [mergeMaps_eq, hmaps, hentries, getSourcesLocked, List.map_cons, Option.toList_map]
  · have hmaps : (entries.map (·.visitors)).map (·.map) = (entries.map (·.source)).map (·.visitors) := by
      rw [List.map_map, List.map_map]; rfl
    rw [mergeMaps_eq, hmaps, hentries, getSourcesLocked, List.map_cons, Option.toList_map]

theorem exists_loadedSource (s : BaseSource P V) : ∃ l : LoadedSource P V, l.source = s := by
  obtain ⟨p, hp⟩ := exists_loadedMap s.proxies
  obtain ⟨v, hv⟩ := exists_loadedMap s.visitors
  refine ⟨⟨p, v⟩, ?_⟩
  rw [LoadedSource.source, hp, hv]

theorem Aggregator.load_returns (a : Aggregator P V) : ∃ entries : List (LoadedSource P V),
    entries.map (·.source) = a.getSourcesLocked ∧ ∃ proxies visitors, (load entries proxies visitors).isOk = true := by
  obtain ⟨config, hconfig⟩ := exists_loadedSource a.configSource
  have hstore : ∃ l : List (LoadedSource P V), l.map (·.source) = a.storeSource.toList := by
    cases a.storeSource with
    | none => exact ⟨[], rfl⟩
    | some s =>
      obtain ⟨l, hl⟩ := exists_loadedSource s
      exact ⟨[l], by simp [hl]⟩
  obtain ⟨rest, hrest⟩ := hstore
  refine ⟨config :: rest, by rw [List.map_cons, hconfig, hrest, getSourcesLocked], ?_⟩
  obtain ⟨proxies⟩ := exists_order (mergeMaps_listed ((config :: rest).map (·.proxies)))
  obtain ⟨visitors⟩ := exists_order (mergeMaps_listed ((config :: rest).map (·.visitors)))
  exact ⟨proxies, visitors, rfl⟩

theorem StoreSource.exists_baseSource {R : Type} {codec : StoreCodec P V R} {s : StoreSource P V}
    (hp : codec.proxyName = name) (hv : codec.visitorName = name)
    (h : Reach (StoreSource.Init codec) (StoreStep codec) s) :
    ∃ b : BaseSource P V, b.proxies.entries = s.proxies ∧ b.visitors.entries = s.visitors := by
  have hinv := StoreSource.inv_of_reach h
  exact ⟨⟨⟨s.proxies, hp ▸ hinv.proxies⟩, ⟨s.visitors, hv ▸ hinv.visitors⟩⟩, rfl, rfl⟩

/-- The names enabled in either source, sorted, each taken from the store first; a `ReplaceAll` that
fails changes nothing. -/
theorem Aggregator.sources_aggregate (a : Aggregator P V) (entries : List (LoadedSource P V))
    (hentries : entries.map (·.source) = a.getSourcesLocked)
    (proxies : RangeOrder (mergeMaps (entries.map (·.proxies))))
    (visitors : RangeOrder (mergeMaps (entries.map (·.visitors)))) :
    (∃ ps vs, load entries proxies visitors = .ok (ps, vs) ∧
      Aggregated a.configSource.proxies (a.storeSource.map (·.proxies)) ps ∧
      Aggregated a.configSource.visitors (a.storeSource.map (·.visitors)) vs) ∧
    ∀ ps vs err, (a.configSource.replaceAll ps vs).2 = some err →
      (a.configSource.replaceAll ps vs).1 = a.configSource :=
  ⟨a.load_aggregated hentries proxies visitors, fun _ _ _ => BaseSource.replaceAll_error⟩

end

section

@[reducible] def Configurer.pair : Configurer (Str × Option Bool) := ⟨Prod.fst, Prod.snd⟩

attribute [local instance] Configurer.pair

def onlyEntry (a : Str × Option Bool) (h : a.1 ≠ []) : LoadedMap (Str × Option Bool) where
  map := SourceMap.empty.put a h
  order := ⟨[a], enumerates_nil.insert a⟩

def noEntry : LoadedMap (Str × Option Bool) := ⟨.empty, ⟨[], enumerates_nil⟩⟩

def webSources : List (LoadedSource (Str × Option Bool) (Str × Option Bool)) :=
  [⟨onlyEntry (lit "web", none) (by decide), noEntry⟩, ⟨onlyEntry (lit "web", some false) (by decide), noEntry⟩]

def webAggregator : Aggregator (Str × Option Bool) (Str × Option Bool) :=
  ⟨webSources[0].source, some webSources[1].source⟩

theorem sources_aggregate_web : ∃ proxies visitors ps vs, Aggregator.load webSources proxies visitors = .ok (ps, vs) ∧
    Aggregated webAggregator.configSource.proxies (webAggregator.storeSource.map (·.proxies)) ps ∧
      Aggregated webAggregator.configSource.visitors (webAggregator.storeSource.map (·.visitors)) vs := by
  obtain ⟨proxies⟩ := exists_order (mergeMaps_listed (webSources.map (·.proxies)))
  obtain ⟨visitors⟩ := exists_order (mergeMaps_listed (webSources.map (·.visitors)))
  exact ⟨proxies, visitors, (webAggregator.sources_aggregate webSources rfl proxies visitors).1⟩

end

end Frp
