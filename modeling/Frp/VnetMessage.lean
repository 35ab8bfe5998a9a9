import Frp.NatHole
import Frp.WireSound

/-!
# Messages of the virtual network

`pkg/vnet/message.go`. A message is its length in four bytes, least significant first, and
its data. `WriteMessage` converts the length to 32 bits before it checks it.
-/

namespace Frp

def leBytes (w n : Nat) : List UInt8 := (beBytes w n).reverse

def leNat (l : List UInt8) : Nat := beNat l.reverse

def maxMessageSize : Nat := 1024 * 1024

inductive VnetError
  | readLength (e : ReadError)
  | readData (e : ReadError)
  | lengthZero
  | dataLengthZero
  | tooLarge (length : Nat)
  deriving DecidableEq

def readMessage (r : Str) : Except VnetError (Str × Str) :=
  match readFull r 4 with
  | .error e => .error (.readLength e)
  | .ok (header, r) =>
    let length := leNat header
    if length = 0 then .error .lengthZero
    else if length > maxMessageSize then .error (.tooLarge length)
    else
      match readFull r length with
      | .error e => .error (.readData e)
      | .ok (data, r) => .ok (data, r)

/-- The stream takes whatever is written to it. -/
def writeMessage (w data : Str) : Str × Option VnetError :=
  let length := data.length % 2 ^ 32
  if length = 0 then (w, some .dataLengthZero)
  else if length > maxMessageSize then (w, some (.tooLarge length))
  else (w ++ leBytes 4 length ++ data, none)

def writeMessages (w : Str) : List Str → Str × List Str
  | [] => (w, [])
  | data :: rest =>
    match writeMessage w data with
    | (w, some _) => writeMessages w rest
    | (w, none) => ((writeMessages w rest).1, data :: (writeMessages w rest).2)

def readMessages : Nat → Str → Except VnetError (List Str × Str)
  | 0, r => .ok ([], r)
  | n + 1, r => do
    let (data, r) ← readMessage r
    let (rest, r) ← readMessages n r
    return (data :: rest, r)

/-! ## What is written -/

theorem leNat_leBytes {w n : Nat} (h : n < 256 ^ w) : leNat (leBytes w n) = n := by
  rw [leNat, leBytes, List.reverse_reverse, beNat_beBytes w h]

def MessageAccepted (data : Str) : Prop := data.length % 2 ^ 32 ≠ 0 ∧ data.length % 2 ^ 32 ≤ maxMessageSize

def vnetFrame (data : Str) : Str := leBytes 4 (data.length % 2 ^ 32) ++ data

variable {data : Str}

theorem writeMessage_accepted (h : MessageAccepted data) (w : Str) :
    writeMessage w data = (w ++ vnetFrame data, none) := by
  simp only [writeMessage, h.1, Nat.not_lt.mpr h.2, if_false, vnetFrame, List.append_assoc]

theorem writeMessage_refused (h : ¬ MessageAccepted data) (w : Str) : ∃ e, writeMessage w data = (w, some e) := by
  by_cases hzero : data.length % 2 ^ 32 = 0
  · exact ⟨_, if_pos hzero⟩
  · have hlarge : data.length % 2 ^ 32 > maxMessageSize := Nat.not_le.mp fun hle => h ⟨hzero, hle⟩
    exact ⟨_, (if_neg hzero).trans (if_pos hlarge)⟩

theorem writeMessages_frames (slices : List Str) : ∀ w,
    (∀ data ∈ (writeMessages w slices).2, MessageAccepted data) ∧
      (writeMessages w slices).1 = w ++ (writeMessages w slices).2.flatMap vnetFrame := by
  induction slices with
  | nil => simp [writeMessages]
  | cons data rest ih =>
    intro w
    by_cases hacc : MessageAccepted data
    · obtain ⟨hall, hstream⟩ := ih (w ++ vnetFrame data)
      simp only [writeMessages, writeMessage_accepted hacc]
      exact ⟨List.forall_mem_cons.mpr ⟨hacc, hall⟩, by rw [hstream, List.flatMap_cons, List.append_assoc]⟩
    · obtain ⟨e, hw⟩ := writeMessage_refused hacc w
      simp only [writeMessages, hw]; exact ih w

/-! ## What is read -/

theorem readFull_prefix {s t : Str} {n : Nat} (h : n ≤ s.length) :
    readFull (s ++ t) n = .ok (s.take n, s.drop n ++ t) := by
  have hr := readFull_append (s.take n) (s.drop n ++ t)
  rwa [← List.append_assoc, List.take_append_drop, List.length_take, Nat.min_eq_left h] at hr

theorem readMessage_frame (h : MessageAccepted data) (t : Str) : readMessage (vnetFrame data ++ t) =
    .ok (data.take (data.length % 2 ^ 32), data.drop (data.length % 2 ^ 32) ++ t) := by
  obtain ⟨hzero, hmax⟩ := h
  have hheader : readFull (vnetFrame data ++ t) 4 = .ok (leBytes 4 (data.length % 2 ^ 32), data ++ t) := by
    have hlen : (leBytes 4 (data.length % 2 ^ 32)).length = 4 := by simp [leBytes]
    have hr := readFull_append (leBytes 4 (data.length % 2 ^ 32)) (data ++ t)
    rwa [hlen, ← List.append_assoc] at hr
  have hlength : leNat (leBytes 4 (data.length % 2 ^ 32)) = data.length % 2 ^ 32 :=
    leNat_leBytes (Nat.mod_lt _ (by decide))
  have hdata := readFull_prefix (t := t) (Nat.mod_le data.length (2 ^ 32))
  simp only [readMessage, hheader, hlength, hzero, Nat.not_lt.mpr hmax, if_false, hdata]

theorem readMessages_succ {n : Nat} {r data t : Str} {rest : List Str} :
    readMessages (n + 1) r = .ok (data :: rest, t) ↔
      ∃ r', readMessage r = .ok (data, r') ∧ readMessages n r' = .ok (rest, t) := by
  simp only [readMessages, Checked.bind_eq_ok, Prod.exists]
  constructor
  · intro h
    obtain ⟨d, r', hd, ds, t', hds, h⟩ := h
    cases h; exact ⟨r', hd, hds⟩
  · rintro ⟨r', hd, hds⟩
    exact ⟨data, r', hd, rest, t, hds, rfl⟩

theorem readMessages_frames {accepted : List Str} (h : ∀ data ∈ accepted, MessageAccepted data) :
    (∃ t, readMessages accepted.length (accepted.flatMap vnetFrame) = .ok (accepted, t)) ↔
      ∀ data ∈ accepted, data.length < 2 ^ 32 := by
  induction accepted with
  | nil => simp [readMessages]
  | cons data rest ih =>
    obtain ⟨hacc, hrest⟩ := List.forall_mem_cons.mp h
    have hread := readMessage_frame hacc (rest.flatMap vnetFrame)
    simp only [List.length_cons, List.flatMap_cons, readMessages_succ, hread, List.forall_mem_cons]
    by_cases hlt : data.length < 2 ^ 32
    · rw [Nat.mod_eq_of_lt hlt, List.take_length, List.drop_length, List.nil_append, ← ih hrest]
      constructor
      · intro hok
        obtain ⟨t, r, hfirst, hok⟩ := hok
        cases hfirst; exact ⟨hlt, t, hok⟩
      · intro hok
        obtain ⟨-, t, hok⟩ := hok
        exact ⟨t, _, rfl, hok⟩
    · -- what is read of this message is shorter than what was written
      refine iff_of_false ?_ fun hall => hlt hall.1
      rintro ⟨t, r, hfirst, -⟩
      have hlen := congrArg List.length (Prod.ext_iff.mp (Except.ok.inj hfirst)).1
      have := Nat.mod_lt data.length (show 0 < 2 ^ 32 by decide)
      simp only [List.length_take] at hlen; omega

/-- What was written is read back if and only if no length exceeds 32 bits. -/
theorem messages_read_back_iff (slices : List Str) :
    (∃ rest, readMessages (writeMessages [] slices).2.length (writeMessages [] slices).1 =
        .ok ((writeMessages [] slices).2, rest)) ↔
      ∀ data ∈ (writeMessages [] slices).2, data.length < 2 ^ 32 := by
  obtain ⟨hacc, hstream⟩ := writeMessages_frames slices []
  rw [hstream, List.nil_append]; exact readMessages_frames hacc

theorem long_message_truncated : ∃ data : Str, data = List.replicate (2 ^ 32 + 1) 0 ∧
    (writeMessages [] [data]).2 = [data] ∧
    ∃ rest, readMessages 1 (writeMessages [] [data]).1 = .ok ([[0]], rest) ∧ [0] ≠ data := by
  obtain ⟨data, hdata⟩ : ∃ data : Str, data = List.replicate (2 ^ 32 + 1) 0 := ⟨_, rfl⟩
  have hlen : data.length = 2 ^ 32 + 1 := by rw [hdata, List.length_replicate]
  have hmod : data.length % 2 ^ 32 = 1 := by omega
  have hacc : MessageAccepted data := ⟨by rw [hmod]; decide, by rw [hmod]; decide⟩
  have htake : data.take 1 = [0] := by rw [hdata, List.replicate_succ]; rfl
  have hwrite : writeMessages [] [data] = (vnetFrame data, [data]) := by
    simp only [writeMessages, writeMessage_accepted hacc, List.nil_append]
  have hread := readMessage_frame hacc []
  rw [hmod, htake, List.append_nil] at hread
  refine ⟨data, hdata, by rw [hwrite], _, by rw [hwrite]; exact readMessages_succ.mpr ⟨_, hread, rfl⟩, fun h => ?_⟩
  rw [← h] at hlen; cases hlen

end Frp
