import Frp.NatHoleSound
import Frp.Register
import Frp.Slots

/-!
# Connections of visitors

`server/visitor/visitor.go` with `InternalListener` of `pkg/util/net/listener.go`. A call of the
manager is one step: its map does not change while `NewConn` has the lock. Listeners are
numbered as they are made.
-/

namespace Frp

open Function

/-- A connection, with what its visitor has presented. -/
structure VisitorConn where
  conn : Nat
  timestamp : Int
  signKey : Str
  user : Str

structure InternalListener where
  acceptCh : List VisitorConn := []
  closed : Bool := false

namespace InternalListener

/-- Whether the connection was sent; if the channel is full, it is closed. -/
def putConn (l : InternalListener) (x : VisitorConn) : Except Str (InternalListener × Bool) :=
  if l.closed then .error (lit "put conn error: listener is closed")
  else if l.acceptCh.length < 128 then .ok ({ l with acceptCh := l.acceptCh ++ [x] }, true)
  else .ok (l, false)

/-- A call that blocks has no result. -/
def accept (l : InternalListener) : Option (Except Str VisitorConn × InternalListener) :=
  match l.acceptCh with
  | x :: rest => some (.ok x, { l with acceptCh := rest })
  | [] => if l.closed then some (.error (lit "listener closed"), l) else none

variable {l o : InternalListener} {x : VisitorConn} {err : Str}

theorem putConn_ok {sent : Bool} (h : l.putConn x = .ok (o, sent)) :
    o.acceptCh = l.acceptCh ++ if sent then [x] else [] := by
  unfold putConn at h
  grind

theorem accept_ok (h : l.accept = some (.ok x, o)) : l.acceptCh = x :: o.acceptCh := by
  unfold accept at h
  grind

theorem accept_error (h : l.accept = some (.error err, o)) : l.acceptCh = [] := by
  unfold accept at h
  grind

end InternalListener

structure VisitorManager where
  listeners : Str → Option ListenerBundle := fun _ => none
  objs : Nat → InternalListener := fun _ => {}
  next : Nat := 0

inductive VisitorEvent
  | listen (l : Nat) (sk : Str) (allowUsers : List Str)
  | put (l : Nat) (x : VisitorConn)
  | accept (l : Nat) (x : VisitorConn)
  | other

namespace VisitorManager

def setObj (s : VisitorManager) (l : Nat) (o : InternalListener) : VisitorManager :=
  { s with objs := update s.objs l o }

def listen (s : VisitorManager) (name sk : Str) (allowUsers : List Str) : Except Str VisitorManager :=
  match insertNew s.listeners name ⟨s.next, sk, allowUsers⟩ with
  | none => .error (repeatedListener name)
  | some listeners => .ok { s with listeners := listeners, next := s.next + 1 }

/-- Calls that fail change nothing. -/
inductive Step [Md5] (s : VisitorManager) : VisitorEvent → VisitorManager → Prop
  | listen {name sk us t} : s.listen name sk us = .ok t → Step s (.listen s.next sk us) t
  | newConn {name x enc comp wp codecs err pc o sent} :
      newConn s.listeners name x.timestamp x.signKey enc comp x.user wp codecs err = .ok pc →
      (s.objs pc.listener).putConn x = .ok (o, sent) →
      Step s (if sent then .put pc.listener x else .other) (s.setObj pc.listener o)
  | accept {l x o} : (s.objs l).accept = some (.ok x, o) → Step s (.accept l x) (s.setObj l o)
  | close (l : Nat) : Step s .other (s.setObj l { s.objs l with closed := true })
  | closeListener (name : Str) : Step s .other { s with listeners := update s.listeners name none }

def Init (s : VisitorManager) : Prop := s = {}

/-! ## Histories, latest first -/

def madeWith : List VisitorEvent → Nat → Option (Str × List Str)
  | [] => fun _ => none
  | .listen l sk us :: log => update (madeWith log) l (some (sk, us))
  | _ :: log => madeWith log

def puts : List VisitorEvent → Nat → List VisitorConn
  | [] => fun _ => []
  | .put l x :: log => update (puts log) l (puts log l ++ [x])
  | _ :: log => puts log

def accepts : List VisitorEvent → Nat → List VisitorConn
  | [] => fun _ => []
  | .accept l x :: log => update (accepts log) l (accepts log l ++ [x])
  | _ :: log => accepts log

/-- The visitor has passed the checks of the proxy that made the listener. -/
def Admitted [Md5] (made : Option (Str × List Str)) (x : VisitorConn) : Prop :=
  ∃ sk us, made = some (sk, us) ∧ x.signKey = getAuthKey sk x.timestamp ∧ allows us x.user

structure Inv [Md5] (log : List VisitorEvent) (s : VisitorManager) : Prop where
  fresh : ∀ l, s.next ≤ l → madeWith log l = none
  bundle : ∀ name b, s.listeners name = some b → madeWith log b.listener = some (b.sk, b.allowUsers)
  admitted : ∀ l, ∀ x ∈ puts log l, Admitted (madeWith log l) x
  fifo : ∀ l, puts log l = accepts log l ++ (s.objs l).acceptCh

section
variable [Md5] {log : List VisitorEvent} {s t : VisitorManager} {e : VisitorEvent}

namespace Inv

theorem listen (h : s.Inv log) {name sk : Str} {us : List Str} (hl : s.listen name sk us = .ok t) :
    t.Inv (.listen s.next sk us :: log) := by
  unfold VisitorManager.listen insertNew at hl
  split at hl
  · cases hl
  rename_i ls hls
  split at hls <;> cases hls
  cases hl
  have hkeep : ∀ l p, madeWith log l = some p → madeWith (.listen s.next sk us :: log) l = some p := by
    intro l p hp
    refine (update_of_ne ?_ ..).trans hp
    rintro rfl
    cases (h.fresh _ (Nat.le_refl _)).symm.trans hp
  refine ⟨fun l hl => (update_of_ne (Nat.ne_of_gt hl) ..).trans (h.fresh l (Nat.le_of_succ_le hl)), fun n b hb => ?_,
    fun l x hx => ?_, h.fifo⟩
  · rcases update_cases (· = some b) hb with ⟨-, hnew⟩ | ⟨-, hb⟩
    · cases hnew; exact update_self ..
    · exact hkeep _ _ (h.bundle n b hb)
  · obtain ⟨sk', us', hmade, hok⟩ := h.admitted l x hx
    exact ⟨sk', us', hkeep _ _ hmade, hok⟩

variable {o : InternalListener} {l : Nat}

theorem put (h : s.Inv log) {x : VisitorConn} (hx : Admitted (madeWith log l) x)
    (ho : o.acceptCh = (s.objs l).acceptCh ++ [x]) : (s.setObj l o).Inv (.put l x :: log) := by
  refine { h with admitted := fun l' y hy => ?_, fifo := fun l' => ?_ }
  · rcases update_cases (y ∈ ·) hy with ⟨rfl, hy⟩ | ⟨-, hy⟩
    · rcases List.mem_append.mp hy with hy | hy
      · exact h.admitted l' y hy
      · rw [List.mem_singleton.mp hy]; exact hx
    · exact h.admitted l' y hy
  · by_cases heq : l' = l
    · simp [puts, accepts, setObj, heq, h.fifo l, ho]
    · simp [puts, accepts, setObj, heq, h.fifo l']

theorem accept (h : s.Inv log) {x : VisitorConn}
    (ho : (s.objs l).acceptCh = x :: o.acceptCh) : (s.setObj l o).Inv (.accept l x :: log) := by
  refine { h with fifo := fun l' => ?_ }
  by_cases heq : l' = l
  · simp [puts, accepts, setObj, heq, h.fifo l, ho]
  · simp [puts, accepts, setObj, heq, h.fifo l']

theorem setObj (h : s.Inv log) (ho : o.acceptCh = (s.objs l).acceptCh) : (s.setObj l o).Inv log :=
  { h with fifo := fun l' => (h.fifo l').trans (congrArg _ (update_same InternalListener.acceptCh ho l').symm) }

end Inv

theorem Step.inv (hst : s.Step e t) (h : s.Inv log) : t.Inv (e :: log) := by
  cases hst with
  | listen hl => exact h.listen hl
  | @newConn name x _ _ _ _ _ pc o sent hn hp =>
    obtain ⟨b, hb, hkey, hallow, hl⟩ := newConn_ok hn
    cases sent with
    | true => exact h.put ⟨b.sk, b.allowUsers, hl ▸ h.bundle name b hb, hkey, hallow⟩ (InternalListener.putConn_ok hp)
    | false => exact { h.setObj ((InternalListener.putConn_ok hp).trans (List.append_nil _)) with }
  | accept ha => exact h.accept (InternalListener.accept_ok ha)
  | close l => exact { h.setObj (o := { s.objs l with closed := true }) rfl with }
  | closeListener name => exact { h with bundle := fun n b hb => h.bundle n b (of_update (· = some b) hb nofun) }

/-- What a listener was sent is what its `Accept` has returned and then what is in the channel, and
was admitted with the key and the users of the proxy that made it. -/
theorem visitor_conns_delivered (h : Traced Init Step log s) (l : Nat) :
    puts log l = accepts log l ++ (s.objs l).acceptCh ∧ (∀ x ∈ puts log l, Admitted (madeWith log l) x) ∧
      ∀ err o, (s.objs l).accept = some (.error err, o) → accepts log l = puts log l := by
  have hi : s.Inv log := by
    refine h.invariant (fun s h0 => ?_) fun log s e t hi hst => hst.inv hi
    rw [h0]; exact ⟨fun _ _ => rfl, nofun, nofun, fun _ => rfl⟩
  refine ⟨hi.fifo l, hi.admitted l, fun err o herr => ?_⟩
  rw [hi.fifo l, InternalListener.accept_error herr, List.append_nil]

end

section
attribute [local instance] Md5.plain

def aliceConn : VisitorConn := ⟨0, 7, getAuthKey (lit "key") 7, lit "alice"⟩

theorem visitor_conns_delivered_alice : ∃ log s, Traced Init Step log s ∧ accepts log 0 = [aliceConn] ∧
    Admitted (madeWith log 0) aliceConn := by
  have h := (.start rfl : Traced Init Step [] {})
    |>.next (@Step.listen _ _ (lit "ssh") (lit "key") [lit "*"] _ rfl)
    |>.next (@Step.newConn _ _ (lit "ssh") aliceConn false false [] [] none ⟨0, none, false, [], []⟩ _ true
      (by simp [newConn, aliceConn, allows]) rfl)
    |>.next (Step.accept (l := 0) rfl)
  exact ⟨_, _, h, rfl, (visitor_conns_delivered h 0).2.1 _ (List.mem_singleton.mpr rfl)⟩

end

end VisitorManager

end Frp
