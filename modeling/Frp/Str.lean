import Mathlib.Data.List.Basic

/-!
# Byte strings

A string is a sequence of bytes, as in Go. Lower-casing of a string that is not ASCII goes
through the Unicode tables, which `UnicodeCase` supplies.
-/

namespace Frp

abbrev Str := List UInt8

def lit (s : String) : Str := s.toList.map fun c => UInt8.ofNat c.toNat

/-- `EmptyOr` of `pkg/util/util`; the default of a type stands for its zero value. -/
def emptyOr {α : Type} [DecidableEq α] [Inhabited α] (v fallback : α) : α := if v = default then fallback else v

class UnicodeCase where
  mapToLower : Str → Str

@[reducible] def UnicodeCase.ascii : UnicodeCase := ⟨id⟩

namespace Str

def colon : UInt8 := 58
def dot : UInt8 := 46
def lbrack : UInt8 := 91
def rbrack : UInt8 := 93

def lowerByte (b : UInt8) : UInt8 := if 65 ≤ b ∧ b ≤ 90 then b + 32 else b

def isASCII (s : Str) : Bool := s.all (· < 128)

def toLower [UnicodeCase] (s : Str) : Str :=
  if s.isASCII then s.map lowerByte else UnicodeCase.mapToLower s

def hasPrefix (s p : Str) : Bool := p.isPrefixOf s

def trimSuffix (s t : Str) : Str := if t.isSuffixOf s then s.take (s.length - t.length) else s

def indexByte (s : Str) (b : UInt8) : Option Nat := s.findIdx? (· == b)

def lastIndexByte (s : Str) (b : UInt8) : Option Nat :=
  (s.reverse.findIdx? (· == b)).map fun i => s.length - 1 - i

def split (s : Str) (sep : UInt8) : List Str :=
  match s with
  | [] => [[]]
  | b :: r =>
    match split r sep with
    | [] => [[b]]
    | w :: ws => if b = sep then [] :: w :: ws else (b :: w) :: ws

def join : List Str → UInt8 → Str
  | [], _ => []
  | [w], _ => w
  | w :: ws, sep => w ++ sep :: join ws sep

def cut (s : Str) (sep : UInt8) : Option (Str × Str) :=
  match s with
  | [] => none
  | b :: r => if b = sep then some ([], r) else (cut r sep).map fun p => (b :: p.1, p.2)

def containsPair (s : Str) (a b : UInt8) : Bool :=
  match s with
  | x :: y :: r => (x == a && y == b) || containsPair (y :: r) a b
  | _ => false

/-- `net.SplitHostPort`; `none` is any of its errors. -/
def splitHostPort (hostport : Str) : Option (Str × Str) :=
  match lastIndexByte hostport colon with
  | none => none
  | some i =>
    if hostport.head? = some lbrack then
      match indexByte hostport rbrack with
      | none => none
      | some e =>
        if e + 1 = i then
          if (hostport.drop 1).contains lbrack ∨ (hostport.drop (e + 1)).contains rbrack then none
          else some ((hostport.take e).drop 1, hostport.drop (i + 1))
        else none
    else if (hostport.take i).contains colon then none
    else if hostport.contains lbrack ∨ hostport.contains rbrack then none
    else some (hostport.take i, hostport.drop (i + 1))

end Str

/-! ## Fields without the separator -/

variable {sep : UInt8}

theorem append_sep_inj : ∀ {a b x y : Str}, sep ∉ x → sep ∉ y → a ++ sep :: x = b ++ sep :: y → a = b ∧ x = y := by
  intro a b x y hx hy h
  have hr := congrArg List.reverse h
  simp only [List.reverse_append, List.reverse_cons, List.append_assoc, List.singleton_append] at hr
  have key : ∀ {u v r t : Str}, sep ∉ u → sep ∉ v → u ++ sep :: r = v ++ sep :: t → u = v ∧ r = t := by
    intro u
    induction u with
    | nil =>
      intro v r t _ hv h
      cases v with
      | nil => simpa using h
      | cons => simp only [List.nil_append, List.cons_append, List.cons.injEq] at h; simp [h.1] at hv
    | cons c u ih =>
      intro v r t hu hv h
      cases v with
      | nil => simp only [List.nil_append, List.cons_append, List.cons.injEq] at h; simp [h.1] at hu
      | cons =>
        simp only [List.cons_append, List.cons.injEq] at h
        obtain ⟨rfl, h⟩ := h
        obtain ⟨rfl, rfl⟩ := ih (fun hm => hu (by simp [hm])) (fun hm => hv (by simp [hm])) h
        exact ⟨rfl, rfl⟩
  obtain ⟨h1, h2⟩ := key (by simpa using hx) (by simpa using hy) hr
  exact ⟨List.reverse_inj.mp h2, List.reverse_inj.mp h1⟩

/-! ## The fields of a string -/

theorem split_ne_nil (s : Str) (sep : UInt8) : s.split sep ≠ [] := by
  cases s with
  | nil => exact List.cons_ne_nil _ _
  | cons =>
    unfold Str.split
    split
    · exact List.cons_ne_nil _ _
    · split
      · exact List.cons_ne_nil _ _
      · exact List.cons_ne_nil _ _

theorem not_mem_split {s : Str} : ∀ w ∈ s.split sep, sep ∉ w := by
  induction s with
  | nil =>
    intro w h
    rw [List.mem_singleton.mp h]; exact List.not_mem_nil
  | cons b r ih =>
    unfold Str.split
    cases hs : Str.split r sep with
    | nil => exact absurd hs (split_ne_nil r sep)
    | cons =>
      rw [hs] at ih
      by_cases hb : b = sep
      · simp only [hb, if_true]; exact List.forall_mem_cons.mpr ⟨List.not_mem_nil, ih⟩
      · simp only [hb, if_false]
        obtain ⟨hv, hvs⟩ := List.forall_mem_cons.mp ih
        exact List.forall_mem_cons.mpr ⟨fun hm => (List.mem_cons.mp hm).elim (fun h => hb h.symm) hv, hvs⟩

theorem split_append (a b : Str) (sep : UInt8) : (a ++ sep :: b).split sep = a.split sep ++ b.split sep := by
  induction a with
  | nil =>
    obtain ⟨w, ws, hb⟩ := List.exists_cons_of_ne_nil (split_ne_nil b sep)
    simp [Str.split, hb]
  | cons x a ih =>
    obtain ⟨v, vs, ha⟩ := List.exists_cons_of_ne_nil (split_ne_nil a sep)
    rw [ha] at ih
    by_cases hx : x = sep
    · simp [Str.split, ih, ha, hx]
    · simp [Str.split, ih, ha, hx]

theorem split_of_free {s : Str} (h : sep ∉ s) : s.split sep = [s] := by
  induction s with
  | nil => rfl
  | cons b r ih =>
    have hb : b ≠ sep := fun e => h (e ▸ List.mem_cons_self)
    simp [Str.split, ih fun hm => h (List.mem_cons_of_mem b hm), hb]

theorem split_join : ∀ {ws : List Str}, ws ≠ [] → (∀ w ∈ ws, sep ∉ w) → (Str.join ws sep).split sep = ws
  | [], h, _ => absurd rfl h
  | [w], _, hw => split_of_free (hw w List.mem_cons_self)
  | w :: v :: ws, _, hw => by
    obtain ⟨hfree, hrest⟩ := List.forall_mem_cons.mp hw
    rw [Str.join, split_append, split_of_free hfree, split_join (List.cons_ne_nil v ws) hrest]
    · rfl
    · exact List.cons_ne_nil v ws

end Frp
