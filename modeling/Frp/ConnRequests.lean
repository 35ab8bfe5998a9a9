import Mathlib.Data.List.Count
import Frp.AsyncResult

/-!
# The requests for a connection

`xudpPrepareRequest`, `sudpVisitorConnRequest` and `udpWorkConnRequest` are one request each
with its own result. Connections are numbers.
-/

namespace Frp

/-! ## The results -/

structure PrepareResult where
  listenConn : Option Nat

structure XudpPrepareResult where
  result : Option PrepareResult
  err : Bool

structure UdpWorkConnResult where
  conn : Option Nat
  err : Bool

structure SudpVisitorConnResult where
  conn : Option Nat
  recycleFn : Option Nat
  err : Bool

inductive RecycleCall
  | close (c : Nat)
  | recycleFn (f : Nat)
  deriving DecidableEq

namespace XudpPrepareResult

def conn (r : XudpPrepareResult) : Option Nat := r.result.bind PrepareResult.listenConn

def recycle (r : XudpPrepareResult) : List RecycleCall :=
  match r.result with
  | some ⟨some c⟩ => [.close c]
  | some ⟨none⟩ | none => []

end XudpPrepareResult

def UdpWorkConnResult.close (r : UdpWorkConnResult) : List RecycleCall :=
  match r.conn with
  | some c => [.close c]
  | none => []

def SudpVisitorConnResult.recycle (r : SudpVisitorConnResult) : List RecycleCall :=
  (match r.conn with
    | some c => [.close c]
    | none => []) ++
  match r.recycleFn with
  | some f => [.recycleFn f]
  | none => []

/-! ## Who owns the connection -/

namespace AsyncRequest

variable {ρ : Type*}

def closes (recycle : ρ → List RecycleCall) (s : AsyncRequest ρ) (c : Nat) : Nat :=
  (s.recycled.flatMap recycle).count (.close c)

structure Owned (conn : ρ → Option Nat) (recycle : ρ → List RecycleCall) (s : AsyncRequest ρ) : Prop where
  returned : ∀ r, s.waiter = .returned (some r) → s.produced = some r ∧ ∀ c, s.closes recycle c = 0
  closed : ∀ c, s.closes recycle c ≠ 0 → s.closes recycle c = 1 ∧ (∃ r, s.produced = some r ∧ conn r = some c) ∧
    ∀ r, s.waiter ≠ .returned (some r)
  finished : s.producer = .done → ∀ x, s.waiter = .returned x → ∃ r, s.produced = some r ∧
    ∀ c, conn r = some c → x = some r ∧ s.closes recycle c = 0 ∨ x = none ∧ s.closes recycle c = 1
  returns : s.producer = .done → (∃ x, s.waiter = .returned x) ∨
    ∃ s', AsyncStep s .waiter s' ∧ s'.waiter.rank < s.waiter.rank

variable {conn : ρ → Option Nat} {recycle : ρ → List RecycleCall} {s : AsyncRequest ρ}

theorem Inv.owned (h : s.Inv) (hcount : ∀ r c, (recycle r).count (.close c) = if conn r = some c then 1 else 0) :
    s.Owned conn recycle := by
  refine ⟨fun r hw => ?_, fun c hc => ?_, fun hp x hw => ?_, fun hp => ?_⟩
  · obtain ⟨hr, hrec⟩ := h.returned hw
    exact ⟨hr, fun c => by simp [closes, hrec]⟩
  · rcases h.recycled_once with hrec | ⟨r, hr, hrec⟩
    · exact absurd (by simp [closes, hrec]) hc
    · have hcl : s.closes recycle c = if conn r = some c then 1 else 0 := by simp [closes, hrec, hcount]
      have hconn : conn r = some c := by
        by_contra hne
        rw [hcl, if_neg hne] at hc; exact hc rfl
      refine ⟨by rw [hcl, if_pos hconn], ⟨r, hr, hconn⟩, fun r' hw => ?_⟩
      rw [(h.returned hw).2] at hrec; cases hrec
  · obtain ⟨r, hr, hcase⟩ := h.finished hp hw
    refine ⟨r, hr, fun c hc => hcase.imp (fun hx => ⟨hx.1, ?_⟩) fun hx => ⟨hx.1, ?_⟩⟩
    · simp [closes, hx.2]
    · simp [closes, hx.2, hcount, hc]
  · by_cases hw : ∃ x, s.waiter = .returned x
    · exact .inl hw
    · obtain ⟨s', hst⟩ := h.waiter_step hp fun x hx => hw ⟨x, hx⟩
      exact .inr ⟨s', hst, hst.rank_lt⟩

end AsyncRequest

theorem XudpPrepareResult.count_recycle (r : XudpPrepareResult) (c : Nat) :
    r.recycle.count (.close c) = if r.conn = some c then 1 else 0 := by
  obtain ⟨result, err⟩ := r
  cases result with
  | none => rfl
  | some p =>
    obtain ⟨listenConn⟩ := p
    cases listenConn with
    | none => rfl
    | some => simp [recycle, conn, List.count_singleton]

theorem UdpWorkConnResult.count_close (r : UdpWorkConnResult) (c : Nat) :
    r.close.count (.close c) = if r.conn = some c then 1 else 0 := by
  obtain ⟨conn, err⟩ := r
  cases conn with
  | none => rfl
  | some => simp [close, List.count_singleton]

theorem SudpVisitorConnResult.count_recycle (r : SudpVisitorConnResult) (c : Nat) :
    r.recycle.count (.close c) = if r.conn = some c then 1 else 0 := by
  obtain ⟨conn, recycleFn, err⟩ := r
  cases conn <;> cases recycleFn <;> simp [recycle, List.count_cons]

/-- A connection that a request has produced is returned by `wait` and left open, or closed once
and not returned. -/
theorem conn_requests_owned :
    (∀ s : AsyncRequest XudpPrepareResult, Reach (· = {}) AsyncStep s →
      s.Owned XudpPrepareResult.conn XudpPrepareResult.recycle) ∧
    (∀ s : AsyncRequest UdpWorkConnResult, Reach (· = {}) AsyncStep s →
      s.Owned UdpWorkConnResult.conn UdpWorkConnResult.close) ∧
    ∀ s : AsyncRequest SudpVisitorConnResult, Reach (· = {}) AsyncStep s →
      s.Owned SudpVisitorConnResult.conn SudpVisitorConnResult.recycle :=
  ⟨fun _ h => (AsyncRequest.reach_inv h).owned XudpPrepareResult.count_recycle,
    fun _ h => (AsyncRequest.reach_inv h).owned UdpWorkConnResult.count_close,
    fun _ h => (AsyncRequest.reach_inv h).owned SudpVisitorConnResult.count_recycle⟩

theorem conn_requests_owned_late : ∃ s : AsyncRequest SudpVisitorConnResult, Reach (· = {}) AsyncStep s ∧
    s.waiter = .returned none ∧ s.closes SudpVisitorConnResult.recycle 3 = 1 := by
  have h := (.start rfl : Reach (· = {}) (AsyncStep (ρ := SudpVisitorConnResult)) {})
    |>.next (.call rfl)
    |>.next .close
    |>.next (.waitClosed rfl rfl)
    |>.next (.lockCancel rfl rfl)
    |>.next (.flag rfl)
    |>.next (.drainEmpty rfl rfl)
    |>.next (.recycleNone rfl)
    |>.next (.produce ⟨some 3, some 0, false⟩ rfl)
    |>.next (.lock rfl rfl)
    |>.next (.checkCanceled rfl rfl)
    |>.next (.recycle rfl)
  obtain ⟨r, hr, hown⟩ := (conn_requests_owned.2.2 _ h).finished rfl none rfl
  cases hr
  rcases hown 3 rfl with ⟨hx, -⟩ | ⟨-, hclosed⟩
  · cases hx
  · exact ⟨_, h, rfl, hclosed⟩

end Frp
