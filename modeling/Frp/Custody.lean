import Frp.Slots

/-!
# Resources and their holders

Resources are numbered as they are obtained, and each is closed or in somebody's hands.
`Delivery` is a request for one, answered over a channel of capacity one.
-/

namespace Frp

structure Custody where
  next : Nat := 0
  closed : Nat → Bool := fun _ => false

namespace Custody

variable {l : Custody} {P Q : Nat → Prop}

def acquire (l : Custody) : Custody := { l with next := l.next + 1 }

def close (l : Custody) (c : Nat) : Custody := { l with closed := Function.update l.closed c true }

def Covered (l : Custody) (P : Nat → Prop) : Prop := ∀ c, c < l.next → l.closed c = true ∨ P c

theorem closed_close_self (c : Nat) : (l.close c).closed c = true := Function.update_self ..

theorem closed_close {c d : Nat} (h : l.closed d = true) : (l.close c).closed d = true := by
  by_cases hd : d = c
  · rw [hd]; exact closed_close_self c
  · exact (Function.update_of_ne hd ..).trans h

namespace Covered

theorem mono (h : l.Covered P) (hPQ : ∀ c, P c → Q c) : l.Covered Q :=
  fun c hc => (h c hc).imp_right (hPQ c)

theorem acquire (h : l.Covered P) (hPQ : ∀ c, P c → Q c) (hnew : Q l.next) : l.acquire.Covered Q := by
  intro c hc
  rcases Nat.lt_succ_iff_lt_or_eq.mp hc with hlt | rfl
  · exact h.mono hPQ c hlt
  · exact .inr hnew

theorem close (h : l.Covered P) {c : Nat} (hPQ : ∀ d, d ≠ c → P d → Q d) : (l.close c).Covered Q := by
  intro d hd
  by_cases hdc : d = c
  · rw [hdc]; exact .inl (closed_close_self c)
  · exact (h d hd).imp closed_close (hPQ d hdc)

end Covered

end Custody

/-! ## A request and its producer -/

inductive ProducerPc
  | calling
  | has (r : Option Nat)
  | recycling (r : Option Nat)
  | done

/-- The answer is `none` when the producer fails. -/
structure Delivery where
  producer : ProducerPc := .calling
  slot : Option (Option Nat) := none
  canceled : Bool := false

namespace Delivery

def take (d : Delivery) : Delivery := { d with slot := none }

def cancel (d : Delivery) : Delivery := { d with slot := none, canceled := true }

inductive Produce (d : Delivery) (l : Custody) : Delivery → Custody → Prop
  | fails : d.producer = .calling → Produce d l { d with producer := .has none } l
  | obtains : d.producer = .calling → Produce d l { d with producer := .has (some l.next) } l.acquire
  | deliver {r} : d.producer = .has r → d.canceled = false → d.slot = none →
      Produce d l { d with producer := .done, slot := some r } l
  | full {r} : d.producer = .has r → d.canceled = false → d.slot ≠ none →
      Produce d l { d with producer := .recycling r } l
  | late {r} : d.producer = .has r → d.canceled = true → Produce d l { d with producer := .recycling r } l
  | recycle {c} : d.producer = .recycling (some c) → Produce d l { d with producer := .done } (l.close c)
  | nothing : d.producer = .recycling none → Produce d l { d with producer := .done } l

def Owes (d : Delivery) (c : Nat) : Prop := d.producer = .has (some c) ∨ d.producer = .recycling (some c)

def Holds (d : Delivery) (c : Nat) : Prop := d.Owes c ∨ d.slot = some (some c)

structure Ok (d : Delivery) : Prop where
  canceled : d.canceled = true → d.slot = none
  producing : d.producer ≠ .done → d.slot = none

def Settled (d : Delivery) : Prop := d.canceled = true ∨ d.producer = .done ∧ d.slot = none

variable {d d' : Delivery} {l l' : Custody}

theorem ok_take (d : Delivery) : d.take.Ok := ⟨fun _ => rfl, fun _ => rfl⟩

theorem ok_cancel (d : Delivery) : d.cancel.Ok := ⟨fun _ => rfl, fun _ => rfl⟩

theorem Ok.taken (h : d.Ok) {r : Option Nat} (hr : d.slot = some r) : d.producer = .done := by
  by_contra hp
  rw [h.producing hp] at hr; cases hr

theorem Ok.settled_take (h : d.Ok) {r : Option Nat} (hr : d.slot = some r) : d.take.Settled := .inr ⟨h.taken hr, rfl⟩

theorem Settled.owes (h : d.Settled) (hok : d.Ok) {c : Nat} (hc : d.Holds c) : d.canceled = true ∧ d.Owes c := by
  rcases h with hcan | ⟨hdone, hslot⟩
  · refine ⟨hcan, hc.resolve_right fun hs => ?_⟩
    rw [hok.canceled hcan] at hs; cases hs
  · rcases hc with (hp | hp) | hs
    · rw [hdone] at hp; cases hp
    · rw [hdone] at hp; cases hp
    · rw [hslot] at hs; cases hs

namespace Produce

variable (h : Produce d l d' l')
include h

theorem ok (hd : d.Ok) : d'.Ok := by
  cases h with
  | fails hp | obtains hp | full hp | late hp | recycle hp | nothing hp =>
    exact ⟨hd.canceled, fun _ => hd.producing (by rw [hp]; nofun)⟩
  | deliver hp hc => exact ⟨fun h => absurd (hc.symm.trans h) Bool.false_ne_true, fun h => absurd rfl h⟩

theorem canceled : d'.canceled = d.canceled := by
  cases h <;> rfl

theorem settled (hd : d.Settled) : d'.Settled := by
  rcases hd with hc | ⟨hp, -⟩
  · exact .inl (h.canceled.trans hc)
  · cases h <;> simp_all

theorem covered {P Q : Nat → Prop} (hc : l.Covered P) (hold : ∀ c, P c → d.Holds c ∨ Q c)
    (hnew : ∀ c, d'.Holds c → Q c) : l'.Covered Q := by
  have hmove : (∀ c, d.Holds c → d'.Holds c) → ∀ c, P c → Q c := fun hdd c hp =>
    (hold c hp).elim (fun h => hnew c (hdd c h)) id
  cases h with
  | fails hp | nothing hp => exact hc.mono (hmove fun c h => by simpa [Holds, Owes, hp] using h)
  | obtains => exact hc.acquire (hmove fun c h => by simp_all [Holds, Owes]) (hnew _ (.inl (.inl rfl)))
  | deliver | full | late => exact hc.mono (hmove fun c h => by simp_all [Holds, Owes])
  | recycle =>
    refine hc.close fun e hne he => ?_
    refine (hold e he).elim (fun h => hnew e ?_) id
    simp_all [Holds, Owes, Ne.symm hne]

def rank : ProducerPc → Nat
  | .has _ => 2
  | .recycling _ => 1
  | _ => 0

theorem owes {c : Nat} (hcan : d.canceled = true) (hc : d.Owes c) :
    l'.closed c = true ∨ d'.Owes c ∧ rank d'.producer < rank d.producer := by
  rcases hc with hp | hp
  · cases h <;> simp_all [Owes, rank]
  · cases h <;> simp_all [Owes, rank, Custody.closed_close_self]

end Produce

theorem Owes.produces (hcan : d.canceled = true) {c : Nat} (hc : d.Owes c) (l : Custody) :
    ∃ d' l', Produce d l d' l' := by
  rcases hc with hp | hp
  · exact ⟨_, _, .late hp hcan⟩
  · exact ⟨_, _, .recycle hp⟩

end Delivery

/-! ## A table of requests -/

def HeldIn (ds : List Delivery) (c : Nat) : Prop := ∃ (k : Nat) (d : Delivery), ds[k]? = some d ∧ d.Holds c

namespace HeldIn

variable {ds : List Delivery} {k : Nat} {d d' : Delivery} {c : Nat}

theorem append (h : HeldIn ds c) (x : Delivery) : HeldIn (ds ++ [x]) c := by
  obtain ⟨k, d, hk, hd⟩ := h
  exact ⟨k, d, getElem?_append_old hk, hd⟩

variable (hk : ds[k]? = some d)
include hk

theorem set_self (h : d'.Holds c) : HeldIn (ds.set k d') c :=
  ⟨k, d', (getElem?_set_iff hk).mpr (.inl ⟨rfl, rfl⟩), h⟩

theorem set (d' : Delivery) (h : HeldIn ds c) : d.Holds c ∨ HeldIn (ds.set k d') c := by
  obtain ⟨j, x, hj, hx⟩ := h
  by_cases hjk : j = k
  · subst hjk
    rw [hk] at hj; cases hj
    exact .inl hx
  · exact .inr ⟨j, x, (getElem?_set_iff hk).mpr (.inr ⟨hjk, hj⟩), hx⟩

theorem produce {l l' : Custody} (h : Delivery.Produce d l d' l') {P : Nat → Prop}
    (hc : l.Covered fun c => HeldIn ds c ∨ P c) : l'.Covered fun c => HeldIn (ds.set k d') c ∨ P c := by
  refine h.covered hc (fun c hc => ?_) fun c hc => .inl (set_self hk hc)
  rcases hc with hc | hc
  · exact (hc.set hk d').imp_right .inl
  · exact .inr (.inr hc)

theorem take {r : Option Nat} (hr : d.slot = some r) (hok : d.Ok) (h : HeldIn ds c) :
    HeldIn (ds.set k d.take) c ∨ r = some c := by
  rcases h.set hk d.take with hc | hc
  · rcases hc with (hp | hp) | hs
    · rw [hok.taken hr] at hp; cases hp
    · rw [hok.taken hr] at hp; cases hp
    · exact .inr (Option.some.inj (hr.symm.trans hs))
  · exact .inl hc

theorem cancel (h : HeldIn ds c) : HeldIn (ds.set k d.cancel) c ∨ d.slot = some (some c) := by
  rcases h.set hk d.cancel with hc | hc
  · exact hc.imp_left fun ho => set_self hk (.inl ho)
  · exact .inl hc

end HeldIn

structure DeliveriesOk (ds : List Delivery) (waits : Option Nat) : Prop where
  ok : ∀ (k : Nat) (d : Delivery), ds[k]? = some d → d.Ok
  settled : ∀ (k : Nat) (d : Delivery), ds[k]? = some d → waits ≠ some k → d.Settled

namespace DeliveriesOk

variable {ds : List Delivery} {waits : Option Nat} {k : Nat} {d d' : Delivery}

theorem nil : DeliveriesOk [] waits := ⟨nofun, nofun⟩

theorem waitFor (h : DeliveriesOk ds none) (waits : Option Nat) : DeliveriesOk ds waits :=
  ⟨h.ok, fun j x hj _ => h.settled j x hj nofun⟩

theorem set (h : DeliveriesOk ds waits) (hk : ds[k]? = some d) (hok : d'.Ok) {w : Option Nat}
    (hs : w ≠ some k → d'.Settled) (hw : ∀ j, j ≠ k → w ≠ some j → waits ≠ some j) : DeliveriesOk (ds.set k d') w := by
  refine ⟨fun j x hj => ?_, fun j x hj hne => ?_⟩
  · rcases (getElem?_set_iff hk).mp hj with ⟨rfl, rfl⟩ | ⟨-, hj⟩
    · exact hok
    · exact h.ok j x hj
  · rcases (getElem?_set_iff hk).mp hj with ⟨rfl, rfl⟩ | ⟨hjk, hj⟩
    · exact hs hne
    · exact h.settled j x hj (hw j hjk hne)

theorem produce {l l' : Custody} (h : DeliveriesOk ds waits) (hk : ds[k]? = some d) (hp : Delivery.Produce d l d' l') :
    DeliveriesOk (ds.set k d') waits :=
  h.set hk (hp.ok (h.ok k d hk)) (fun hne => hp.settled (h.settled k d hk hne)) fun _ _ hne => hne

theorem settle (h : DeliveriesOk ds (some k)) (hk : ds[k]? = some d) (hok : d'.Ok) (hs : d'.Settled) :
    DeliveriesOk (ds.set k d') none :=
  h.set hk hok (fun _ => hs) fun _ hjk _ he => hjk (Option.some.inj he).symm

theorem new (h : DeliveriesOk ds none) : DeliveriesOk (ds ++ [({} : Delivery)]) (some ds.length) := by
  refine ⟨fun j x hj => ?_, fun j x hj hw => ?_⟩
  · rcases getElem?_append_singleton_iff.mp hj with ⟨-, hj⟩ | ⟨-, rfl⟩
    · exact h.ok j x hj
    · exact ⟨fun _ => rfl, fun _ => rfl⟩
  · rcases getElem?_append_singleton_iff.mp hj with ⟨-, hj⟩ | ⟨rfl, -⟩
    · exact h.settled j x hj nofun
    · exact absurd rfl hw

end DeliveriesOk

/-! ## Requests that were given up -/

def OwedBy (ds : List Delivery) (k c : Nat) : Prop := ∃ d, ds[k]? = some d ∧ d.canceled = true ∧ d.Owes c

def owedRank (ds : List Delivery) (k : Nat) : Nat := (ds[k]?.map fun d => Delivery.Produce.rank d.producer).getD 0

def SameProducer (ds ds' : List Delivery) (k : Nat) : Prop :=
  ∀ d, ds[k]? = some d → ∃ d', ds'[k]? = some d' ∧ d'.producer = d.producer ∧ (d.canceled = true → d'.canceled = true)

namespace SameProducer

variable {ds ds' : List Delivery} {j k c : Nat}

theorem refl : SameProducer ds ds k := fun d hd => ⟨d, hd, rfl, id⟩

theorem append (x : Delivery) : SameProducer ds (ds ++ [x]) k := fun d hd =>
  ⟨d, getElem?_append_old hd, rfl, id⟩

theorem set {d d' : Delivery} (hj : ds[j]? = some d)
    (h : j = k → d'.producer = d.producer ∧ (d.canceled = true → d'.canceled = true)) :
    SameProducer ds (ds.set j d') k := by
  intro x hx
  by_cases hjk : j = k
  · subst hjk
    rw [hj] at hx; cases hx
    exact ⟨d', (getElem?_set_iff hj).mpr (.inl ⟨rfl, rfl⟩), h rfl⟩
  · exact ⟨x, (getElem?_set_iff hj).mpr (.inr ⟨fun he => hjk he.symm, hx⟩), rfl, id⟩

theorem owed (h : SameProducer ds ds' k) (ho : OwedBy ds k c) : OwedBy ds' k c ∧ owedRank ds' k = owedRank ds k := by
  obtain ⟨d, hd, hcan, hc⟩ := ho
  obtain ⟨d', hd', hp, hcan'⟩ := h d hd
  refine ⟨⟨d', hd', hcan' hcan, ?_⟩, by simp [owedRank, hd, hd', hp]⟩
  rw [Delivery.Owes, hp]; exact hc

end SameProducer

theorem OwedBy.produce {ds : List Delivery} {k c : Nat} {d d' : Delivery} {l l' : Custody} (ho : OwedBy ds k c)
    (hk : ds[k]? = some d) (hp : Delivery.Produce d l d' l') :
    l'.closed c = true ∨ OwedBy (ds.set k d') k c ∧ owedRank (ds.set k d') k < owedRank ds k := by
  obtain ⟨x, hx, hcan, hc⟩ := ho
  rw [hk] at hx; cases hx
  have hnew : (ds.set k d')[k]? = some d' := (getElem?_set_iff hk).mpr (.inl ⟨rfl, rfl⟩)
  refine (hp.owes hcan hc).imp_right fun ⟨hc', hlt⟩ => ⟨⟨d', hnew, hp.canceled.trans hcan, hc'⟩, ?_⟩
  simpa only [owedRank, hnew, hk, Option.map_some, Option.getD_some] using hlt

end Frp
