import Mathlib.Data.List.Basic

/-!
# Readers over a byte stream

A read takes its bytes from the front of what is still to be read (`Reader.Law`).
`Reader.bufio`, `Reader.slice`, `Reader.tee` and `Reader.multi` are readers of Go's library; a
program that reads is a `Reading`.
-/

namespace Frp

variable {ε α : Type}

inductive ReadFailure (ε : Type)
  | eof
  | failed (e : ε)

abbrev ReadOutcome (ε : Type) := Except (ReadFailure ε) (List UInt8)

inductive ReadLaw (n : Nat) (before after : List UInt8) : ReadOutcome ε → Prop
  | data {b} : b.length ≤ n → b ++ after = before → ReadLaw n before after (.ok b)
  | eof : before = [] → after = [] → ReadLaw n before after (.error .eof)
  | failed {e} : after = before → ReadLaw n before after (.error (.failed e))

/-- `Live` says that the reader gives at least one byte or the end at every read from now on. -/
structure Reader (ε : Type) where
  State : Type
  read : State → Nat → ReadOutcome ε × State
  remaining : State → List UInt8
  Live : State → Prop
  law : ∀ s n, ReadLaw n (remaining s) (remaining (read s n).2) (read s n).1
  live : ∀ s n, Live s → 0 < n → Live (read s n).2 ∧ ((read s n).1 = .error .eof ∨ ∃ a b, (read s n).1 = .ok (a :: b))

/-! ## A connection -/

/-- `data k`: at most `k` bytes are there. -/
inductive SourceAnswer (ε : Type)
  | data (k : Nat)
  | fail (e : ε)

structure Source (ε : Type) where
  rest : List UInt8
  answers : Nat → SourceAnswer ε
  reads : Nat

namespace Source

def read (s : Source ε) (n : Nat) : ReadOutcome ε × Source ε :=
  match s.answers s.reads with
  | .fail e => (.error (.failed e), { s with reads := s.reads + 1 })
  | .data k =>
    if s.rest = [] then (.error .eof, { s with reads := s.reads + 1 })
    else (.ok (s.rest.take (min k n)), { s with rest := s.rest.drop (min k n), reads := s.reads + 1 })

def Live (s : Source ε) : Prop := ∀ i, s.reads ≤ i → ∃ k, s.answers i = .data (k + 1)

theorem read_answers (s : Source ε) (n : Nat) : (s.read n).2.answers = s.answers := by
  unfold read
  split
  · rfl
  · split <;> rfl

end Source

namespace Reader

def source (ε : Type) : Reader ε where
  State := Source ε
  read := Source.read
  remaining := Source.rest
  Live := Source.Live
  law s n := by
    unfold Source.read
    split
    · exact .failed rfl
    · split
      · rename_i h
        exact .eof h h
      · exact .data (Nat.le_trans (List.length_take_le _ _) (Nat.min_le_right _ _)) (List.take_append_drop _ _)
  live s n h hn := by
    obtain ⟨k, hk⟩ := h s.reads (Nat.le_refl _)
    have hlater : ∀ i, s.reads + 1 ≤ i → ∃ k, s.answers i = .data (k + 1) := fun i hi => h i (by omega)
    unfold Source.read
    rw [hk]
    cases hr : s.rest with
    | nil => exact ⟨hlater, .inl rfl⟩
    | cons a l =>
      obtain ⟨m, hm⟩ : ∃ m, min (k + 1) n = m + 1 := ⟨min (k + 1) n - 1, by omega⟩
      refine ⟨hlater, .inr ⟨a, l.take m, ?_⟩⟩
      simp [hm]

/-! ## bytes.Reader -/

def slice (ε : Type) : Reader ε where
  State := List UInt8
  read s n := if s = [] then (.error .eof, s) else (.ok (s.take n), s.drop n)
  remaining := id
  Live _ := True
  law s n := by
    split
    · rename_i h
      exact .eof h h
    · exact .data (List.length_take_le _ _) (List.take_append_drop _ _)
  live s n _ hn := by
    refine ⟨trivial, ?_⟩
    obtain ⟨m, rfl⟩ : ∃ m, n = m + 1 := ⟨n - 1, by omega⟩
    cases s with
    | nil => exact .inl rfl
    | cons a l => exact .inr ⟨a, l.take m, rfl⟩

/-! ## bufio.Reader -/

def fill (r : Reader ε) (size : Nat) (s : r.State) (n : Nat) : ReadOutcome ε × (List UInt8 × r.State) :=
  if size ≤ n then ((r.read s n).1, ([], (r.read s n).2))
  else
    match r.read s size with
    | (.ok b, s') => (.ok (b.take n), (b.drop n, s'))
    | (.error e, s') => (.error e, ([], s'))

theorem fill_law (r : Reader ε) (size : Nat) (s : r.State) (n : Nat) :
    ReadLaw n (r.remaining s) ((r.fill size s n).2.1 ++ r.remaining (r.fill size s n).2.2) (r.fill size s n).1 := by
  unfold fill
  split
  · exact r.law s n
  · have h := r.law s size
    match hr : r.read s size with
    | (.ok b, s') =>
      rw [hr] at h
      cases h with
      | data hle heq =>
        refine .data (List.length_take_le _ _) ?_
        rw [← List.append_assoc, List.take_append_drop]; exact heq
    | (.error .eof, s') =>
      rw [hr] at h
      cases h with
      | eof h0 h1 => exact .eof h0 h1
    | (.error (.failed e), s') =>
      rw [hr] at h
      cases h with
      | failed h => exact .failed h

theorem fill_live (r : Reader ε) {size : Nat} (hsize : 0 < size) {s : r.State} {n : Nat} (h : r.Live s) (hn : 0 < n) :
    r.Live (r.fill size s n).2.2 ∧
      ((r.fill size s n).1 = .error .eof ∨ ∃ a b, (r.fill size s n).1 = .ok (a :: b)) := by
  unfold fill
  split
  · exact r.live s n h hn
  · obtain ⟨hl, hout⟩ := r.live s size h hsize
    obtain ⟨m, rfl⟩ : ∃ m, n = m + 1 := ⟨n - 1, by omega⟩
    match hr : r.read s size with
    | (.ok b, s') =>
      rw [hr] at hl hout
      rcases hout with hout | ⟨a, l, hout⟩
      · cases hout
      · cases hout; exact ⟨hl, .inr ⟨a, l.take m, rfl⟩⟩
    | (.error e, s') =>
      rw [hr] at hl hout
      rcases hout with hout | ⟨a, l, hout⟩
      · cases hout; exact ⟨hl, .inl rfl⟩
      · cases hout

def bufio (size : Nat) (hsize : 0 < size) (r : Reader ε) : Reader ε where
  State := List UInt8 × r.State
  read s n :=
    if n = 0 then (.ok [], s) else if s.1 = [] then r.fill size s.2 n else (.ok (s.1.take n), (s.1.drop n, s.2))
  remaining s := s.1 ++ r.remaining s.2
  Live s := r.Live s.2
  law s n := by
    split
    · exact .data (Nat.zero_le _) rfl
    · split
      · rename_i hbuf
        rw [hbuf]; exact r.fill_law size s.2 n
      · refine .data (List.length_take_le _ _) ?_
        rw [← List.append_assoc, List.take_append_drop]
  live s n h hn := by
    rw [if_neg (Nat.pos_iff_ne_zero.mp hn)]
    obtain ⟨buf, t⟩ := s
    cases buf with
    | nil => exact r.fill_live hsize h hn
    | cons a l =>
      obtain ⟨m, rfl⟩ : ∃ m, n = m + 1 := ⟨n - 1, by omega⟩
      exact ⟨h, .inr ⟨a, l.take m, rfl⟩⟩

theorem bufio_keeps {r : Reader ε} {P : r.State → Prop} (hread : ∀ s n, P s → P (r.read s n).2) (size : Nat)
    (hsize : 0 < size) (s : (r.bufio size hsize).State) (n : Nat) (h : P s.2) :
    P ((r.bufio size hsize).read s n).2.2 := by
  unfold bufio
  simp only
  split
  · exact h
  · split
    · unfold fill
      split
      · exact hread s.2 n h
      · have hr := hread s.2 size h
        match hx : r.read s.2 size with
        | (.ok b, t) => rwa [hx] at hr
        | (.error e, t) => rwa [hx] at hr
    · exact h

/-! ## io.TeeReader -/

def tee (r : Reader ε) : Reader ε where
  State := r.State × List UInt8
  read s n :=
    match r.read s.1 n with
    | (.ok b, t) => (.ok b, (t, s.2 ++ b))
    | (.error e, t) => (.error e, (t, s.2))
  remaining s := r.remaining s.1
  Live s := r.Live s.1
  law s n := by
    have h := r.law s.1 n
    match hr : r.read s.1 n with
    | (.ok b, t) => rwa [hr] at h
    | (.error e, t) => rwa [hr] at h
  live s n hl hn := by
    have h := r.live s.1 n hl hn
    match hr : r.read s.1 n with
    | (.ok b, t) => rwa [hr] at h
    | (.error e, t) => rwa [hr] at h

theorem tee_keeps {r : Reader ε} {P : r.State → Prop} (hread : ∀ s n, P s → P (r.read s n).2) (s : r.tee.State)
    (n : Nat) (h : P s.1) : P (r.tee.read s n).2.1 := by
  have hr := hread s.1 n h
  unfold tee
  simp only
  match hx : r.read s.1 n with
  | (.ok b, t) => rwa [hx] at hr
  | (.error e, t) => rwa [hx] at hr

theorem tee_captured (r : Reader ε) (s : r.tee.State) (n : Nat) :
    (r.tee.read s n).2.2 ++ r.remaining (r.tee.read s n).2.1 = s.2 ++ r.remaining s.1 := by
  have h := r.law s.1 n
  unfold tee
  simp only
  match hr : r.read s.1 n with
  | (.ok b, t) =>
    rw [hr] at h
    cases h with
    | data _ heq =>
      simp only [List.append_assoc]
      rw [← heq]
  | (.error e, t) =>
    rw [hr] at h
    cases h with
    | eof h0 h1 => simp only [h0, h1]
    | failed h => simp only [h]

/-! ## io.MultiReader -/

def readSecond (a b : Reader ε) (t : Option b.State) (n : Nat) : ReadOutcome ε × (Option a.State × Option b.State) :=
  match t with
  | none => (.error .eof, (none, none))
  | some t =>
    match b.read t n with
    | (.error .eof, _) => (.error .eof, (none, none))
    | (o, t') => (o, (none, some t'))

def bothRemaining (a b : Reader ε) (s : Option a.State × Option b.State) : List UInt8 :=
  (s.1.map a.remaining).getD [] ++ (s.2.map b.remaining).getD []

def BothLive (a b : Reader ε) (s : Option a.State × Option b.State) : Prop :=
  (∀ t, s.1 = some t → a.Live t) ∧ ∀ t, s.2 = some t → b.Live t

section
variable {a b : Reader ε}

theorem readSecond_law (t : Option b.State) (n : Nat) :
    ReadLaw n (bothRemaining a b (none, t)) (bothRemaining a b (readSecond a b t n).2) (readSecond a b t n).1 := by
  unfold readSecond
  cases t with
  | none => exact .eof rfl rfl
  | some t =>
    have h := b.law t n
    simp only
    match hr : b.read t n with
    | (.error .eof, t') =>
      rw [hr] at h
      cases h with
      | eof h0 => exact .eof h0 rfl
    | (.error (.failed e), t') => rw [hr] at h; exact h
    | (.ok d, t') => rw [hr] at h; exact h

theorem readSecond_live {t : Option b.State} {n : Nat} (hl : ∀ t', t = some t' → b.Live t') (hn : 0 < n) :
    BothLive a b (readSecond a b t n).2 ∧
      ((readSecond a b t n).1 = .error .eof ∨ ∃ x l, (readSecond a b t n).1 = .ok (x :: l)) := by
  have hnone : BothLive a b (none, none) := by simp [BothLive]
  unfold readSecond
  cases t with
  | none => exact ⟨hnone, .inl rfl⟩
  | some t =>
    obtain ⟨hlive, hout⟩ := b.live t n (hl t rfl) hn
    simp only
    match hr : b.read t n with
    | (.error .eof, t') => exact ⟨hnone, .inl rfl⟩
    | (.error (.failed e), t') =>
      rw [hr] at hlive hout; exact ⟨by simpa [BothLive] using hlive, hout⟩
    | (.ok d, t') => rw [hr] at hlive hout; exact ⟨by simpa [BothLive] using hlive, hout⟩

end

def multi (a b : Reader ε) : Reader ε where
  State := Option a.State × Option b.State
  read s n :=
    match s.1 with
    | none => readSecond a b s.2 n
    | some t =>
      match a.read t n with
      | (.error .eof, _) => readSecond a b s.2 n
      | (o, t') => (o, (some t', s.2))
  remaining := bothRemaining a b
  Live := BothLive a b
  law s n := by
    obtain ⟨sa, sb⟩ := s
    cases sa with
    | none => exact readSecond_law sb n
    | some t =>
      have h := a.law t n
      simp only
      match hr : a.read t n with
      | (.error .eof, t') =>
        rw [hr] at h
        cases h with
        | eof h0 =>
          have heq : bothRemaining a b (some t, sb) = bothRemaining a b (none, sb) := by simp [bothRemaining, h0]
          rw [heq]; exact readSecond_law sb n
      | (.error (.failed e), t') =>
        rw [hr] at h
        cases h with
        | failed h => exact .failed (by simp [bothRemaining, h])
      | (.ok d, t') =>
        rw [hr] at h
        cases h with
        | data hle heq => exact .data hle (by simp [bothRemaining, ← heq])
  live s n hl hn := by
    obtain ⟨sa, sb⟩ := s
    cases sa with
    | none => exact readSecond_live hl.2 hn
    | some t =>
      obtain ⟨hlive, hout⟩ := a.live t n (hl.1 t rfl) hn
      simp only
      match hr : a.read t n with
      | (.error .eof, t') => exact readSecond_live hl.2 hn
      | (.error (.failed e), t') =>
        rw [hr] at hlive hout; exact ⟨⟨by simpa using hlive, hl.2⟩, hout⟩
      | (.ok d, t') => rw [hr] at hlive hout; exact ⟨⟨by simpa using hlive, hl.2⟩, hout⟩

/-! ## Reading on -/

def reads (r : Reader ε) (s : r.State) : List Nat → List UInt8 × r.State
  | [] => ([], s)
  | n :: ns =>
    match r.read s n with
    | (.ok b, t) => (b ++ (r.reads t ns).1, (r.reads t ns).2)
    | (.error _, t) => r.reads t ns

theorem reads_append (r : Reader ε) (ns : List Nat) (s : r.State) :
    (r.reads s ns).1 ++ r.remaining (r.reads s ns).2 = r.remaining s := by
  induction ns generalizing s with
  | nil => rfl
  | cons n ns ih =>
    have h := r.law s n
    unfold reads
    match hr : r.read s n with
    | (.ok b, t) =>
      rw [hr] at h
      cases h with
      | data _ heq =>
        simp only [List.append_assoc]
        rw [ih t]; exact heq
    | (.error e, t) =>
      rw [hr] at h
      simp only
      rw [ih t]
      cases h with
      | eof h0 h1 => rw [h0, h1]
      | failed h => exact h

theorem reads_live (r : Reader ε) (ns : List Nat) (hpos : ∀ n ∈ ns, 0 < n) (s : r.State) (hl : r.Live s)
    (hlen : (r.remaining s).length ≤ ns.length) : (r.reads s ns).1 = r.remaining s := by
  induction ns generalizing s with
  | nil => exact (List.eq_nil_of_length_eq_zero (Nat.le_zero.mp hlen)).symm
  | cons n ns ih =>
    have h := r.law s n
    obtain ⟨hlive, hout⟩ := r.live s n hl (hpos n (by simp))
    have hpos' : ∀ m ∈ ns, 0 < m := fun m hm => hpos m (List.mem_cons_of_mem _ hm)
    unfold reads
    match hr : r.read s n with
    | (.ok b, t) =>
      rw [hr] at h hlive hout
      rcases hout with hout | ⟨x, l, hout⟩
      · cases hout
      · cases hout
        cases h with
        | data _ heq =>
          have hshort : (r.remaining t).length ≤ ns.length := by
            rw [← heq] at hlen
            simp only [List.length_append, List.length_cons] at hlen; omega
          simp only
          rw [ih hpos' t hlive hshort]; exact heq
    | (.error e, t) =>
      rw [hr] at h hlive hout
      rcases hout with hout | ⟨x, l, hout⟩
      · cases hout
        cases h with
        | eof h0 h1 =>
          simp only
          rw [ih hpos' t hlive (by rw [h1]; simp), h0, h1]
      · cases hout

end Reader

/-! ## Programs that read -/

inductive Reading (ε α : Type)
  | done (a : α)
  | read (n : Nat) (next : ReadOutcome ε → Reading ε α)

namespace Reading

def run (r : Reader ε) : Reading ε α → r.State → α × r.State
  | done a, s => (a, s)
  | read n next, s => (next (r.read s n).1).run r (r.read s n).2

theorem run_invariant {r : Reader ε} {P : r.State → Prop} (hread : ∀ s n, P s → P (r.read s n).2) (p : Reading ε α)
    {s : r.State} (h : P s) : P (p.run r s).2 := by
  induction p generalizing s with
  | done => exact h
  | read n next ih => exact ih _ (hread s n h)

end Reading

end Frp
