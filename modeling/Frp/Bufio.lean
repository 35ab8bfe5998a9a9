import Mathlib.Data.List.Basic

/-!
# Lines read through a buffer

A buffered reader takes bytes from a stream in pieces of any size and gives out lines, which
do not depend on the pieces (`Bufio.readHead_spec`).
-/

namespace Frp

/-- The bytes in the buffer, all bytes read so far, the bytes that follow, and the sizes (less one)
of the next reads; then there is an error. -/
structure Bufio where
  buffered : List UInt8
  taken : List UInt8
  rest : List UInt8
  reads : List Nat

namespace Bufio

def bufSize : Nat := 4096

def ofStream (stream : List UInt8) (reads : List Nat) : Bufio := ⟨[], [], stream, reads⟩

def cut (line buffered : List UInt8) : Option (List UInt8 × List UInt8) :=
  if 10 ∈ buffered then some (line ++ buffered.takeWhile (· ≠ 10), (buffered.dropWhile (· ≠ 10)).tail) else none

def spill (line buffered : List UInt8) : List UInt8 × List UInt8 :=
  if buffered.length < bufSize then (line, buffered)
  else if buffered.getLast? = some 13 then (line ++ buffered.dropLast, [13])
  else (line ++ buffered, [])

def readLineFrom (line buffered taken rest : List UInt8) : List Nat → Option (List UInt8 × Bufio)
  | [] => (cut line buffered).map fun x => (x.1, ⟨x.2, taken, rest, []⟩)
  | n :: reads =>
    match cut line buffered with
    | some (out, left) => some (out, ⟨left, taken, rest, n :: reads⟩)
    | none =>
      if rest = [] then none
      else
        let x := spill line buffered
        let k := min (n + 1) (bufSize - x.2.length)
        readLineFrom x.1 (x.2 ++ rest.take k) (taken ++ rest.take k) (rest.drop k) reads

def readLine (b : Bufio) : Option (List UInt8 × Bufio) := readLineFrom [] b.buffered b.taken b.rest b.reads

def trimCr (line : List UInt8) : List UInt8 := if line.getLast? = some 13 then line.dropLast else line

def readHead : Nat → Bufio → Option (List (List UInt8) × Bufio)
  | 0, _ => none
  | fuel + 1, b =>
    match b.readLine with
    | none => none
    | some (line, b) =>
      if trimCr line = [] then some ([], b)
      else (readHead fuel b).map fun x => (trimCr line :: x.1, x.2)

inductive HeadLines : List (List UInt8) → List UInt8 → Prop
  | blank {l} (hl : 10 ∉ l) (hblank : trimCr l = []) : HeadLines [] (l ++ [10])
  | line {l ls h} (hl : 10 ∉ l) (hne : trimCr l ≠ []) (hrest : HeadLines ls h) :
    HeadLines (trimCr l :: ls) (l ++ 10 :: h)

/-! ## One line -/

variable {line buffered taken rest l t : List UInt8} {reads : List Nat}

theorem cut_eq_none : cut line buffered = none ↔ 10 ∉ buffered := by
  unfold cut
  split <;> simp [*]

variable {p q : List UInt8}

theorem cut_append (hp : 10 ∉ p) : cut line (p ++ 10 :: q) = some (line ++ p, q) := by
  have hne : ∀ x ∈ p, decide (x ≠ 10) = true := fun x hx => decide_eq_true fun h => hp (h ▸ hx)
  unfold cut
  rw [if_pos (by simp), List.takeWhile_append_of_pos hne, List.dropWhile_append_of_pos hne]; simp

theorem split_of_not_mem {p : List UInt8} (hp : 10 ∉ p) (hs : p ++ rest = l ++ 10 :: t) :
    ∃ q, l = p ++ q ∧ rest = q ++ 10 :: t := by
  rcases List.append_eq_append_iff.mp hs with ⟨q, hl, hrest⟩ | ⟨q, hpl, hq⟩
  · exact ⟨q, hl, hrest⟩
  · cases q with
    | nil => exact ⟨[], by simpa using hpl.symm, by simpa using hq.symm⟩
    | cons => cases hq; exact absurd (by simp [hpl]) hp

theorem line_unique (hp : 10 ∉ p) (hl : 10 ∉ l) (hs : p ++ 10 :: q = l ++ 10 :: t) : p = l ∧ q = t := by
  obtain ⟨r, rfl, hr⟩ := split_of_not_mem hp hs
  cases r with
  | nil => exact ⟨by simp, List.tail_eq_of_cons_eq hr⟩
  | cons => simp [(List.cons.inj hr).1] at hl

theorem cut_eq_some {out left : List UInt8} (hline : 10 ∉ line) (hl : 10 ∉ l)
    (hs : line ++ buffered ++ rest = l ++ 10 :: t) (h : cut line buffered = some (out, left)) :
    out = l ∧ left ++ rest = t ∧ line.length + buffered.length = l.length + 1 + left.length := by
  have hmem : 10 ∈ buffered := by
    by_contra hmem
    simp [cut_eq_none.mpr hmem] at h
  obtain ⟨p, q, rfl, hp⟩ := List.eq_append_cons_of_mem hmem
  rw [cut_append hp] at h
  obtain ⟨rfl, rfl⟩ := Prod.mk.inj (Option.some.inj h)
  have hs : (line ++ p) ++ 10 :: (q ++ rest) = l ++ 10 :: t := by simpa using hs
  have hlp : 10 ∉ line ++ p := by simp [hline, hp]
  obtain ⟨rfl, rfl⟩ := line_unique hlp hl hs
  refine ⟨rfl, rfl, ?_⟩
  simp only [List.length_append, List.length_cons]; omega

theorem spill_append (line buffered : List UInt8) :
    (spill line buffered).1 ++ (spill line buffered).2 = line ++ buffered := by
  unfold spill
  split
  · rfl
  · split
    · rename_i hlast
      rw [List.append_assoc, List.dropLast_append_getLast? 13 hlast]
    · simp

theorem spill_length_lt (line buffered : List UInt8) : (spill line buffered).2.length < bufSize := by
  unfold spill
  split
  · assumption
  · split <;> simp [bufSize]

-- The line goes on in the stream, so a read gets at least one byte of it.
theorem spill_read {k : Nat} (hk : 0 < k) (hmem : 10 ∉ line ++ buffered)
    (hs : line ++ buffered ++ rest = l ++ 10 :: t) : 10 ∉ (spill line buffered).1 ∧
      (spill line buffered).1 ++ ((spill line buffered).2 ++ rest.take k) ++ rest.drop k = l ++ 10 :: t ∧
      line.length + buffered.length < (spill line buffered).1.length +
        ((spill line buffered).2 ++ rest.take k).length := by
  obtain ⟨q, -, hrest⟩ := split_of_not_mem hmem hs
  refine ⟨fun h => ?_, ?_, ?_⟩
  · rw [← spill_append line buffered] at hmem; exact hmem (List.mem_append_left _ h)
  · rw [List.append_assoc, List.append_assoc, List.take_append_drop, ← List.append_assoc, spill_append, hs]
  · have hpos : 0 < rest.length := List.length_pos_of_ne_nil (by simp [hrest])
    have hspill := congrArg List.length (spill_append line buffered)
    simp only [List.length_append, List.length_take] at hspill ⊢; omega

theorem readLineFrom_spec (taken : List UInt8) (reads : List Nat) (hline : 10 ∉ line) (hl : 10 ∉ l)
    (hs : line ++ buffered ++ rest = l ++ 10 :: t) :
    (∀ out b, readLineFrom line buffered taken rest reads = some (out, b) →
      out = l ∧ b.buffered ++ b.rest = t ∧ b.taken ++ b.rest = taken ++ rest ∧
        line.length + buffered.length + reads.length ≤ l.length + 1 + b.buffered.length + b.reads.length) ∧
      (l.length + 1 ≤ line.length + buffered.length + reads.length →
        readLineFrom line buffered taken rest reads ≠ none) := by
  -- A read adds at least one byte to the line or the buffer, so these and the reads left never get fewer in all.
  induction reads generalizing line buffered taken rest with
  | nil =>
    unfold readLineFrom
    cases hcut : cut line buffered with
    | none =>
      obtain ⟨q, rfl, -⟩ := split_of_not_mem (by simp [hline, cut_eq_none.mp hcut]) hs
      refine ⟨fun _ _ h => by simp at h, fun hlen => ?_⟩
      simp only [List.length_append, List.length_nil] at hlen; omega
    | some =>
      obtain ⟨hout, hleft, hlen⟩ := cut_eq_some hline hl hs hcut
      refine ⟨fun out b h => ?_, fun _ => by simp⟩
      cases h; exact ⟨hout, hleft, rfl, by simp only [List.length_nil]; omega⟩
  | cons n reads ih =>
    unfold readLineFrom
    cases hcut : cut line buffered with
    | some =>
      obtain ⟨hout, hleft, hlen⟩ := cut_eq_some hline hl hs hcut
      refine ⟨fun out b h => ?_, fun _ => by simp⟩
      cases h; exact ⟨hout, hleft, rfl, by simp only [List.length_cons]; omega⟩
    | none =>
      have hmem : 10 ∉ line ++ buffered := by simp [hline, cut_eq_none.mp hcut]
      obtain ⟨q, -, hrest⟩ := split_of_not_mem hmem hs
      have hroom := spill_length_lt line buffered
      simp only [show rest ≠ [] by simp [hrest], if_false]
      generalize hk : min (n + 1) (bufSize - (spill line buffered).2.length) = k
      obtain ⟨hline', hs', hgrow⟩ := spill_read (k := k) (by omega) hmem hs
      obtain ⟨hread, henough⟩ := ih (taken ++ rest.take k) hline' hs'
      simp only [List.length_cons]
      refine ⟨fun out b h => ?_, fun hlen => henough (by omega)⟩
      obtain ⟨hout, hleft, htaken, hused⟩ := hread out b h
      refine ⟨hout, hleft, ?_, by omega⟩
      rw [htaken, List.append_assoc, List.take_append_drop]

theorem readLine_spec {b : Bufio} (hl : 10 ∉ l) (hs : b.buffered ++ b.rest = l ++ 10 :: t) :
    (∀ out c, b.readLine = some (out, c) →
      out = l ∧ c.buffered ++ c.rest = t ∧ c.taken ++ c.rest = b.taken ++ b.rest ∧
        b.buffered.length + b.reads.length ≤ l.length + 1 + c.buffered.length + c.reads.length) ∧
      (l.length + 1 ≤ b.buffered.length + b.reads.length → b.readLine ≠ none) := by
  have hs : [] ++ b.buffered ++ b.rest = l ++ 10 :: t := hs
  have h := readLineFrom_spec b.taken b.reads List.not_mem_nil hl hs
  rw [List.length_nil, Nat.zero_add] at h; exact h

/-! ## All lines -/

theorem readHead_spec {ls : List (List UInt8)} {h : List UInt8} (hh : HeadLines ls h) {b : Bufio} {fuel : Nat}
    (hs : b.buffered ++ b.rest = h ++ t) (hfuel : h.length ≤ fuel) :
    (∀ out c, readHead fuel b = some (out, c) →
      out = ls ∧ c.buffered ++ c.rest = t ∧ c.taken ++ c.rest = b.taken ++ b.rest) ∧
      (h.length ≤ b.buffered.length + b.reads.length → readHead fuel b ≠ none) := by
  induction hh generalizing b fuel with
  | @blank l hl hblank =>
    obtain ⟨fuel, rfl⟩ : ∃ f, fuel = f + 1 := ⟨fuel - 1, by simp at hfuel; omega⟩
    obtain ⟨hread, henough⟩ := readLine_spec hl (by simpa using hs)
    unfold readHead
    cases hline : b.readLine with
    | none =>
      refine ⟨fun _ _ h => by simp at h, fun hlen => absurd hline (henough ?_)⟩
      simp only [List.length_append, List.length_cons, List.length_nil] at hlen ⊢; omega
    | some =>
      obtain ⟨rfl, hleft, htaken, -⟩ := hread _ _ hline
      simp only [hblank, if_true]
      refine ⟨fun out c h => ?_, fun _ => by simp⟩
      cases h; exact ⟨rfl, hleft, htaken⟩
  | @line l ls h hl hne _ ih =>
    obtain ⟨fuel, rfl⟩ : ∃ f, fuel = f + 1 := ⟨fuel - 1, by simp at hfuel; omega⟩
    obtain ⟨hread, henough⟩ := readLine_spec hl (by simpa using hs)
    unfold readHead
    cases hline : b.readLine with
    | none =>
      refine ⟨fun _ _ h => by simp at h, fun hlen => absurd hline (henough ?_)⟩
      simp only [List.length_append, List.length_cons] at hlen ⊢; omega
    | some x =>
      obtain ⟨out, c⟩ := x
      obtain ⟨rfl, hleft, htaken, hused⟩ := hread _ _ hline
      simp only [List.length_append, List.length_cons] at hfuel hused
      obtain ⟨hrest, hmore⟩ := ih hleft (Nat.le_of_lt_succ (show h.length < fuel + 1 by omega))
      simp only [hne, if_false]
      constructor
      · intro lines d h
        obtain ⟨⟨ms, d⟩, hd, heq⟩ := Option.map_eq_some_iff.mp h
        cases heq
        obtain ⟨rfl, hbuf, htk⟩ := hrest _ _ hd
        exact ⟨rfl, hbuf, htk.trans htaken⟩
      · intro hlen h
        simp only [List.length_append, List.length_cons] at hlen
        exact hmore (by omega) (Option.map_eq_none_iff.mp h)

end Bufio

end Frp
