import Frp.Store

/-!
# The store and its file agree

An operation either puts back what it changed or has saved it (`EntryOp.run_settles`), so
along every run the maps are what the file decodes to.
-/

namespace Frp

open Function

section
variable {α R : Type} {name : α → Str} {m : Str → Option α} {l : List α}

/-! ## Maps as lists -/

def Listed (name : α → Str) (m : Str → Option α) : Prop := ∃ l, Enumerates name m l ∧ ∀ a ∈ l, name a ≠ []

theorem Enumerates.remove (h : Enumerates name m l) (n : Str) :
    Enumerates name (update m n none) (l.filter fun a => name a ≠ n) := by
  refine ⟨h.1.sublist (List.filter_sublist.map name), fun k a => ?_⟩
  -- under the name itself nothing is left, and elsewhere the filter drops nothing
  by_cases hk : k = n
  · subst hk
    simp only [update_self, reduceCtorEq, List.mem_filter, decide_not, Bool.not_eq_true',
      decide_eq_false_iff_not, false_iff]
    exact fun ha => ha.1.2 ha.2
  · rw [update_of_ne hk, h.2 k a]
    simp only [List.mem_filter, decide_not, Bool.not_eq_true', decide_eq_false_iff_not]
    constructor
    · intro ha; exact ⟨⟨ha.1, fun hn => hk (ha.2.symm.trans hn)⟩, ha.2⟩
    · intro ha; exact ⟨ha.1.1, ha.2⟩

theorem Enumerates.insert (h : Enumerates name m l) (a : α) :
    Enumerates name (update m (name a) (some a)) (a :: l.filter fun b => name b ≠ name a) := by
  have hrest := h.remove (name a)
  refine ⟨?_, fun k b => ?_⟩
  · rw [List.map_cons, List.nodup_cons]
    refine ⟨?_, hrest.1⟩
    intro hmem
    obtain ⟨b, hb, hname⟩ := List.mem_map.mp hmem
    simp [hname] at hb
  · have hb := hrest.2 k b
    by_cases hk : k = name a
    · subst hk
      rw [update_self] at hb ⊢
      simp only [reduceCtorEq, false_iff] at hb
      rw [List.mem_cons]
      constructor
      · intro hab
        cases hab; exact ⟨.inl rfl, rfl⟩
      · intro hab
        rcases hab.1 with rfl | hmem
        · rfl
        · exact absurd ⟨hmem, hab.2⟩ hb
    · rw [update_of_ne hk] at hb ⊢
      rw [hb, List.mem_cons]
      constructor
      · intro hab; exact ⟨.inr hab.1, hab.2⟩
      · intro hab
        rcases hab.1 with rfl | hmem
        · exact absurd hab.2.symm hk
        · exact ⟨hmem, hab.2⟩

theorem Listed.empty : Listed name fun _ => none :=
  ⟨[], ⟨List.nodup_nil, by simp⟩, by simp⟩

theorem Listed.remove (h : Listed name m) (n : Str) : Listed name (update m n none) := by
  obtain ⟨l, hl, hnames⟩ := h
  exact ⟨_, hl.remove n, fun a ha => hnames a (List.mem_filter.mp ha).1⟩

theorem Listed.insert (h : Listed name m) {a : α} (ha : name a ≠ []) :
    Listed name (update m (name a) (some a)) := by
  obtain ⟨l, hl, hnames⟩ := h
  refine ⟨_, hl.insert a, fun b hb => ?_⟩
  rcases List.mem_cons.mp hb with rfl | hmem
  · exact ha
  · exact hnames b (List.mem_filter.mp hmem).1

/-! ## Loading -/

variable {kind : StoreKind} {decode : R → Except Str α} {rs : List R}

theorem loadEntries_listed {i : Nat}
    {m t : Str → Option α} (hm : Listed name m) (h : loadEntries kind decode name i rs m = .ok t) :
    Listed name t := by
  induction rs generalizing i m with
  | nil => cases h; exact hm
  | cons r rs ih =>
    unfold loadEntries at h
    split at h
    · cases h
    · split at h
      · cases h
      · rename_i hname
        exact ih (hm.insert hname) h

theorem loadEntries_decoded {i : Nat}
    (h : List.Forall₂ (fun r a => decode r = .ok a) rs l) (hnames : ∀ a ∈ l, name a ≠ []) :
    loadEntries kind decode name i rs m =
      .ok (l.foldl (fun m a => update m (name a) (some a)) m) := by
  induction h generalizing i m with
  | nil => rfl
  | cons hr _ ih =>
    unfold loadEntries
    rw [hr]
    simp only [hnames _ List.mem_cons_self, if_false, List.foldl_cons]
    exact ih fun a ha => hnames a (List.mem_cons_of_mem _ ha)

theorem foldl_update_eq_some (hl : (l.map name).Nodup) (n : Str) (a : α) :
    l.foldl (fun m b => update m (name b) (some b)) m n = some a ↔
      (a ∈ l ∧ name a = n) ∨ m n = some a ∧ ∀ b ∈ l, name b ≠ n := by
  induction l generalizing m with
  | nil => simp
  | cons c l ih =>
    rw [List.map_cons, List.nodup_cons] at hl
    rw [List.foldl_cons, ih hl.2]
    by_cases hc : n = name c
    · subst hc
      have hfree : ∀ b ∈ l, name b ≠ name c := fun b hb hbc => hl.1 (List.mem_map.mpr ⟨b, hb, hbc⟩)
      simp only [update_self, Option.some.injEq, List.mem_cons, forall_eq_or_imp]
      constructor
      · intro h
        rcases h with h | ⟨rfl, -⟩
        · exact .inl ⟨.inr h.1, h.2⟩
        · exact .inl ⟨.inl rfl, rfl⟩
      · intro h
        rcases h with ⟨rfl | ha, hname⟩ | h
        · exact .inr ⟨rfl, hfree⟩
        · exact absurd hname (hfree a ha)
        · exact absurd rfl h.2.1
    · rw [update_of_ne hc]
      simp only [List.mem_cons, forall_eq_or_imp]
      constructor
      · intro h
        rcases h with h | h
        · exact .inl ⟨.inr h.1, h.2⟩
        · exact .inr ⟨h.1, fun hn => hc hn.symm, h.2⟩
      · intro h
        rcases h with ⟨rfl | ha, hname⟩ | h
        · exact absurd hname.symm hc
        · exact .inl ⟨ha, hname⟩
        · exact .inr ⟨h.1, h.2.2⟩

theorem Enumerates.load
    (h : Enumerates name m l) (hm : Listed name m) (hrs : List.Forall₂ (fun r a => decode r = .ok a) rs l) :
    loadEntries kind decode name 0 rs (fun _ => none) = .ok m := by
  obtain ⟨k, hk, hnames⟩ := hm
  have hl : ∀ a ∈ l, name a ≠ [] := by
    intro a ha
    have hma : m (name a) = some a := (h.2 _ _).mpr ⟨ha, rfl⟩
    exact hnames a ((hk.2 _ _).mp hma).1
  rw [loadEntries_decoded hrs hl]
  congr 1
  funext n
  apply Option.ext
  intro a
  rw [foldl_update_eq_some h.1, h.2 n a]; simp

/-! ## One operation -/

theorem Disk.discard_file (disk : Disk) (x : SaveFaults) : (disk.discard x).file = disk.file := by
  unfold discard
  split <;> rfl

theorem saveToFileUnlocked_cases (data : Str) (x : SaveFaults) (disk : Disk) :
    (∃ e, (saveToFileUnlocked data x disk).2 = some e ∧ (saveToFileUnlocked data x disk).1.file = disk.file) ∨
      (saveToFileUnlocked data x disk).2 = none ∧ (saveToFileUnlocked data x disk).1.file = some data := by
  unfold saveToFileUnlocked
  repeat' split
  all_goals simp [Disk.discard_file]

def Settles (m target : Str → Option α) (ready : Prop) (save : Disk × Option StoreError) (disk : Disk)
    (x : Persisted α) : Prop :=
  (∃ e d, x = (m, d, some e) ∧ (d = disk ∨ d = save.1 ∧ save.2 = some e)) ∨
    ready ∧ save.2 = none ∧ x = (target, save.1, none)

theorem Settles.refused {target : Str → Option α} {ready : Prop} {save : Disk × Option StoreError} {disk : Disk}
    (e : StoreError) : Settles m target ready save disk (m, disk, some e) :=
  .inl ⟨e, disk, rfl, .inl rfl⟩

theorem persistOrRollbackUnlocked_settles (save : Disk × Option StoreError) (disk : Disk) {n : Str} (o : Option α)
    {p : Option α} {ready : Prop} (h : m n = p) (hready : ready) :
    Settles m (update m n o) ready save disk
      (persistOrRollbackUnlocked save (update m n o) fun m => update m n p) := by
  obtain ⟨d, e⟩ := save
  cases e with
  | none => exact .inr ⟨hready, rfl, rfl⟩
  | some e =>
    refine .inl ⟨e, d, ?_, .inr ⟨rfl, rfl⟩⟩
    simp only [persistOrRollbackUnlocked, update_idem, ← h, update_eq_self]

def EntryOp.Ready (name : α → Str) (entries : Str → Option α) : EntryOp α → Prop
  | add value => ∃ a, value = some a ∧ name a ≠ [] ∧ entries (name a) = none
  | update value => ∃ a, value = some a ∧ name a ≠ [] ∧ entries (name a) ≠ none
  | remove n => n ≠ [] ∧ entries n ≠ none

theorem validateName_ok {value : Option α} {n : Str} {a : α}
    (h : validateName kind name value = .ok (n, a)) : value = some a ∧ name a = n ∧ n ≠ [] := by
  unfold validateName at h
  split at h
  · cases h
  · split at h
    · cases h
    · rename_i hname
      cases h; exact ⟨rfl, rfl, hname⟩

/-- An operation that is not saved leaves the entries as they were. -/
theorem EntryOp.run_settles (name : α → Str) (m : Str → Option α) (op : EntryOp α) (kind : StoreKind)
    (save : Disk × Option StoreError) (disk : Disk) :
    Settles m (op.target name m) (op.Ready name m) save disk (op.run kind name save m disk) := by
  -- A refused operation touches nothing; a ready one ends as its save does.
  cases op with
  | add =>
    simp only [run]
    split
    · exact .refused _
    · rename_i n a hvalid
      obtain ⟨rfl, rfl, hname⟩ := validateName_ok hvalid
      unfold addStoreEntry
      split
      · exact .refused _
      · rename_i hfree
        exact persistOrRollbackUnlocked_settles save disk (some a) hfree ⟨a, rfl, hname, hfree⟩
  | update =>
    simp only [run]
    split
    · exact .refused _
    · rename_i n a hvalid
      obtain ⟨rfl, rfl, hname⟩ := validateName_ok hvalid
      unfold updateStoreEntry
      split
      · exact .refused _
      · rename_i old hold
        exact persistOrRollbackUnlocked_settles save disk (some a) hold ⟨a, rfl, hname, by simp [hold]⟩
  | remove =>
    simp only [run, removeStoreEntry]
    split
    · exact .refused _
    · rename_i hname
      split
      · exact .refused _
      · rename_i old hold
        exact persistOrRollbackUnlocked_settles save disk none hold ⟨hname, by simp [hold]⟩

theorem EntryOp.run_saved (name : α → Str) (m : Str → Option α) (op : EntryOp α) (kind : StoreKind) (data : Str)
    (x : SaveFaults) (disk : Disk) :
    (∃ e d, op.run kind name (saveToFileUnlocked data x disk) m disk = (m, d, some e) ∧ d.file = disk.file) ∨
      op.Ready name m ∧ ∃ d, op.run kind name (saveToFileUnlocked data x disk) m disk =
        (op.target name m, d, none) ∧ d.file = some data := by
  have hsave := saveToFileUnlocked_cases data x disk
  rcases op.run_settles name m kind (saveToFileUnlocked data x disk) disk with
    ⟨e, d, heq, hd⟩ | ⟨hready, hok, heq⟩
  · refine .inl ⟨e, d, heq, ?_⟩
    rcases hd with rfl | ⟨rfl, her⟩
    · rfl
    · rcases hsave with ⟨_, _, hfile⟩ | ⟨hnone, _⟩
      · exact hfile
      · cases her.symm.trans hnone
  · refine .inr ⟨hready, _, heq, ?_⟩
    rcases hsave with ⟨_, her, _⟩ | ⟨_, hfile⟩
    · cases her.symm.trans hok
    · exact hfile

theorem EntryOp.Ready.listed {op : EntryOp α} (h : op.Ready name m) (hm : Listed name m) :
    Listed name (op.target name m) := by
  cases op with
  | add | update =>
    obtain ⟨a, rfl, hname, -⟩ := h
    exact hm.insert hname
  | remove n => exact hm.remove n

theorem EntryOp.target_enumerates (op : EntryOp α) (hm : Listed name m) :
    ∃ l, Enumerates name (op.target name m) l := by
  obtain ⟨l, hl, -⟩ := hm
  cases op with
  | add value | update value =>
    cases value with
    | none => exact ⟨l, hl⟩
    | some a => exact ⟨_, hl.insert a⟩
  | remove n => exact ⟨_, hl.remove n⟩

end

/-! ## Runs -/

section
variable {P V R : Type} {codec : StoreCodec P V R} {s t : StoreSource P V} {e : StoreEvent P V}

def StoreOp.Ready (codec : StoreCodec P V R) (s : StoreSource P V) : StoreOp P V → Prop
  | proxy op => op.Ready codec.proxyName s.proxies
  | visitor op => op.Ready codec.visitorName s.visitors

theorem StoreStep.cases (h : StoreStep codec s e t) :
    ((∃ err, e.error = some err) ∧ t.proxies = s.proxies ∧ t.visitors = s.visitors ∧ t.disk.file = s.disk.file) ∨
      e.error = none ∧ e.op.Ready codec s ∧ (t.proxies, t.visitors) = e.op.targets codec s ∧
        t.disk.file = some (codec.marshalIndent e.proxies e.visitors) := by
  obtain ⟨-, -, hrun⟩ := h
  obtain ⟨op, x, ps, vs, err⟩ := e
  cases op with
  | proxy op =>
    simp only [StoreSource.run] at hrun
    rcases op.run_saved codec.proxyName s.proxies .proxy (codec.marshalIndent ps vs) x s.disk with
      ⟨er, d, heq, hfile⟩ | ⟨hready, d, heq, hfile⟩
    · rw [heq] at hrun; cases hrun
      exact .inl ⟨⟨er, rfl⟩, rfl, rfl, hfile⟩
    · rw [heq] at hrun; cases hrun
      exact .inr ⟨rfl, hready, rfl, hfile⟩
  | visitor op =>
    simp only [StoreSource.run] at hrun
    rcases op.run_saved codec.visitorName s.visitors .visitor (codec.marshalIndent ps vs) x
      s.disk with ⟨er, d, heq, hfile⟩ | ⟨hready, d, heq, hfile⟩
    · rw [heq] at hrun; cases hrun
      exact .inl ⟨⟨er, rfl⟩, rfl, rfl, hfile⟩
    · rw [heq] at hrun; cases hrun
      exact .inr ⟨rfl, hready, rfl, hfile⟩

theorem loadFromFileUnlocked_marshal {ps : List P} {vs : List V} {proxies : Str → Option P}
    {visitors : Str → Option V} (hps : Enumerates codec.proxyName proxies ps)
    (hvs : Enumerates codec.visitorName visitors vs) (hp : Listed codec.proxyName proxies)
    (hv : Listed codec.visitorName visitors) :
    loadFromFileUnlocked codec (codec.marshalIndent ps vs) = .ok (proxies, visitors) := by
  obtain ⟨rs, us, hunmarshal, hrs, hus⟩ := codec.decodes ps vs
  simp only [loadFromFileUnlocked, hunmarshal, hps.load hp hrs, hvs.load hv hus]

structure StoreSource.Inv (codec : StoreCodec P V R) (s : StoreSource P V) : Prop where
  proxies : Listed codec.proxyName s.proxies
  visitors : Listed codec.visitorName s.visitors
  file : ∀ data, s.disk.file = some data → loadFromFileUnlocked codec data = .ok (s.proxies, s.visitors)

theorem StoreSource.Init.inv (h : StoreSource.Init codec s) : s.Inv codec := by
  obtain ⟨path, readError, disk, hnew⟩ := h
  unfold newStoreSource at hnew
  split at hnew
  · cases hnew
  · split at hnew
    · cases hnew
    · rename_i hfile
      cases hnew; exact ⟨.empty, .empty, fun data hdata => by simp [hfile] at hdata⟩
    · rename_i data hfile
      split at hnew
      · cases hnew
      · rename_i proxies visitors hload
        cases hnew
        have hall : ∀ d, disk.file = some d → loadFromFileUnlocked codec d = .ok (proxies, visitors) := by
          intro d hd
          cases hfile.symm.trans hd
          exact hload
        unfold loadFromFileUnlocked at hload
        split at hload
        · cases hload
        · split at hload
          · cases hload
          · rename_i hproxies
            split at hload
            · cases hload
            · rename_i hvisitors
              cases hload
              exact ⟨loadEntries_listed .empty hproxies, loadEntries_listed .empty hvisitors, hall⟩

theorem StoreStep.inv (hs : s.Inv codec) (h : StoreStep codec s e t) : t.Inv codec := by
  rcases h.cases with ⟨_, hproxies, hvisitors, hfile⟩ | ⟨_, hready, htargets, hfile⟩
  · refine ⟨hproxies ▸ hs.proxies, hvisitors ▸ hs.visitors, fun data hdata => ?_⟩
    rw [hproxies, hvisitors]; exact hs.file data (hfile ▸ hdata)
  · have hlisted : Listed codec.proxyName t.proxies ∧ Listed codec.visitorName t.visitors := by
      obtain ⟨hp, hv⟩ := Prod.mk.inj htargets
      rw [hp, hv]
      cases hop : e.op with
      | proxy => rw [hop] at hready; exact ⟨EntryOp.Ready.listed hready hs.proxies, hs.visitors⟩
      | visitor => rw [hop] at hready; exact ⟨hs.proxies, EntryOp.Ready.listed hready hs.visitors⟩
    refine ⟨hlisted.1, hlisted.2, fun data hdata => ?_⟩
    cases hfile.symm.trans hdata
    obtain ⟨hps, hvs, -⟩ := h
    rw [← htargets] at hps hvs; exact loadFromFileUnlocked_marshal hps hvs hlisted.1 hlisted.2

theorem StoreSource.inv_of_reach (h : Reach (StoreSource.Init codec) (StoreStep codec) s) : s.Inv codec :=
  h.invariant (fun _ hs => hs.inv) fun _ _ _ _ hs hstep => hstep.inv hs

theorem StoreStep.of_run (s : StoreSource P V) (op : StoreOp P V) (x : SaveFaults) {ps : List P} {vs : List V}
    (hps : Enumerates codec.proxyName (op.targets codec s).1 ps)
    (hvs : Enumerates codec.visitorName (op.targets codec s).2 vs) :
    StoreStep codec s ⟨op, x, ps, vs, (s.run codec x ps vs op).2⟩ (s.run codec x ps vs op).1 :=
  ⟨hps, hvs, rfl⟩

theorem StoreSource.step_exists (h : Reach (StoreSource.Init codec) (StoreStep codec) s) (op : StoreOp P V)
    (x : SaveFaults) : ∃ ps vs err t, StoreStep codec s ⟨op, x, ps, vs, err⟩ t := by
  have hs := inv_of_reach h
  have hlists : ∃ ps vs, Enumerates codec.proxyName (op.targets codec s).1 ps ∧
      Enumerates codec.visitorName (op.targets codec s).2 vs := by
    obtain ⟨ps, hps, -⟩ := hs.proxies
    obtain ⟨vs, hvs, -⟩ := hs.visitors
    cases op with
    | proxy op =>
      obtain ⟨qs, hqs⟩ := op.target_enumerates hs.proxies
      exact ⟨qs, vs, hqs, hvs⟩
    | visitor op =>
      obtain ⟨us, hus⟩ := op.target_enumerates hs.visitors
      exact ⟨ps, us, hps, hus⟩
  obtain ⟨ps, vs, hps, hvs⟩ := hlists
  exact ⟨ps, vs, _, _, .of_run s op x hps hvs⟩

/-- The maps are what the file decodes to. An operation that fails has changed neither, and one that
succeeds has saved the maps it made. -/
theorem StoreSource.store_consistent (h : Reach (StoreSource.Init codec) (StoreStep codec) s) :
    (∀ data, s.disk.file = some data → loadFromFileUnlocked codec data = .ok (s.proxies, s.visitors)) ∧
      ∀ e t, StoreStep codec s e t →
        (e.error ≠ none → t.proxies = s.proxies ∧ t.visitors = s.visitors ∧ t.disk.file = s.disk.file) ∧
        (e.error = none → e.op.Ready codec s ∧ (t.proxies, t.visitors) = e.op.targets codec s ∧
          ∃ data, t.disk.file = some data ∧ loadFromFileUnlocked codec data = .ok (t.proxies, t.visitors)) := by
  refine ⟨(inv_of_reach h).file, fun e t hstep => ?_⟩
  have ht := hstep.inv (inv_of_reach h)
  rcases hstep.cases with ⟨⟨err, herr⟩, hsame⟩ | ⟨hok, hready, htargets, hfile⟩
  · exact ⟨fun _ => hsame, fun hnone => by simp [herr] at hnone⟩
  · exact ⟨fun herr => absurd hok herr, fun _ => ⟨hready, htargets, _, hfile, ht.file _ hfile⟩⟩

end

abbrev ByteConfig := { b : UInt8 // b ≠ 0 }

def byteCodec : StoreCodec ByteConfig ByteConfig UInt8 where
  proxyName p := [p.1]
  visitorName v := [v.1]
  marshalIndent ps vs := ps.map Subtype.val ++ 0 :: vs.map Subtype.val
  unmarshal data := .ok (data.takeWhile (· ≠ 0), (data.dropWhile (· ≠ 0)).tail)
  decodeProxy r := if h : r ≠ 0 then .ok ⟨r, h⟩ else .error []
  decodeVisitor r := if h : r ≠ 0 then .ok ⟨r, h⟩ else .error []
  decodes ps vs := by
    have hne : ∀ r ∈ ps.map Subtype.val, decide (r ≠ 0) = true := by
      intro r hr
      obtain ⟨p, -, rfl⟩ := List.mem_map.mp hr
      exact decide_eq_true p.2
    have hdecodes : ∀ l : List ByteConfig, List.Forall₂
        (fun r p => (if h : r ≠ 0 then .ok ⟨r, h⟩ else .error [] : Except Str ByteConfig) = .ok p)
        (l.map Subtype.val) l := by
      intro l
      induction l with
      | nil => exact .nil
      | cons p l ih => exact .cons (dif_pos p.2) ih
    refine ⟨_, _, rfl, ?_, ?_⟩
    · rw [List.takeWhile_append_of_pos hne]; simpa using hdecodes ps
    · rw [List.dropWhile_append_of_pos hne]; simpa using hdecodes vs

theorem StoreSource.store_consistent_rename :
    ∃ s e t, Reach (StoreSource.Init byteCodec) (StoreStep byteCodec) s ∧ StoreStep byteCodec s e t ∧
      s.disk.file = some [1, 0] ∧ e.op = .proxy (.add (some ⟨2, by decide⟩)) ∧
      e.error = some (.persist .rename [7]) ∧ t.proxies = s.proxies ∧ t.disk.file = some [1, 0] ∧
      loadFromFileUnlocked byteCodec [1, 0] = .ok (s.proxies, s.visitors) := by
  have hempty : Enumerates byteCodec.proxyName (fun _ => none) [] := ⟨List.nodup_nil, by simp⟩
  have h : Reach (StoreSource.Init byteCodec) (StoreStep byteCodec) ⟨fun _ => none, fun _ => none, none, none⟩ :=
    .start ⟨[47], none, ⟨none, none⟩, rfl⟩
  have h := h.next (.of_run _ (.proxy (.add (some (⟨1, by decide⟩ : ByteConfig)))) ⟨fun _ => none, 0, true⟩
    (hempty.insert ⟨1, by decide⟩) hempty)
  have hstep : StoreStep byteCodec _ _ _ := .of_run (StoreSource.mk (update (fun _ => none) [1]
      (some (⟨1, by decide⟩ : ByteConfig))) (fun _ => none) ⟨some [1, 0], none⟩)
    (.proxy (.add (some (⟨2, by decide⟩ : ByteConfig)))) ⟨fun i => if i = .rename then some [7] else none, 0, true⟩
    ((hempty.insert ⟨1, by decide⟩).insert ⟨2, by decide⟩) hempty
  obtain ⟨hfile, hops⟩ := store_consistent h
  obtain ⟨hproxies, -, hsame⟩ := (hops _ _ hstep).1 nofun
  exact ⟨_, _, _, h, hstep, rfl, rfl, rfl, hproxies, hsame, hfile _ rfl⟩

end Frp
