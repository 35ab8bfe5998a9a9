import Frp.Buffer
import Frp.PortsRangeText

/-!
# Pages of the dashboard

`parseV2PageParams` and `paginateV2Items` of `server/http/controller_v2.go`. Arithmetic on
`int` wraps around at 64 bits, and a slice expression out of range is a panic.
-/

namespace Frp

structure HTTPError where
  code : Nat
  text : Str
  deriving DecidableEq

def badRequest (text : Str) : HTTPError := ⟨400, text⟩

def defaultV2Page : Int := 1

def defaultV2PageSize : Int := 50

def maxV2PageSize : Int := 200

def parseV2PositiveInt (raw : Str) (defaultValue : Int) (name : Str) : Except HTTPError Int :=
  if raw = [] then .ok defaultValue
  else
    match atoi raw with
    | none => .error (badRequest (name ++ lit " must be a positive integer"))
    | some value =>
      if value < 1 then .error (badRequest (name ++ lit " must be a positive integer")) else .ok value

def parseV2PageParams (page pageSize : Str) : Except HTTPError (Int × Int) := do
  let page ← parseV2PositiveInt page defaultV2Page (lit "page")
  let pageSize ← parseV2PositiveInt pageSize defaultV2PageSize (lit "pageSize")
  if pageSize > maxV2PageSize then
    .error (badRequest (lit "pageSize must be between 1 and " ++ formatInt maxV2PageSize))
  else if page > maxInt64 / pageSize then .error (badRequest (lit "page is too large"))
  else .ok (page, pageSize)

/-- `none` is a panic. -/
def paginateV2Items {T : Type} (items : List T) (page pageSize : Int) : Option (List T) :=
  let start := wrapInt (wrapInt (page - 1) * pageSize)
  if start ≥ items.length then some []
  else
    let stop := min (wrapInt (start + pageSize)) items.length
    if 0 ≤ start ∧ start ≤ stop then some ((items.drop start.toNat).take (stop - start).toNat) else none

structure V2PageResp (T : Type) where
  total : Nat
  page : Int
  pageSize : Int
  items : List T

def buildV2PageResp {T : Type} (items : List T) (page pageSize : Int) : Option (V2PageResp T) :=
  (paginateV2Items items page pageSize).map fun part => ⟨items.length, page, pageSize, part⟩

def maxAlloc : Nat := 2 ^ 48

structure ItemSlice (T : Type) where
  items : List T
  fits : items.length ≤ maxAlloc

def pageCount (total : Nat) (pageSize : Int) : Nat := (total + pageSize.toNat - 1) / pageSize.toNat

/-! ## What the parser accepts -/

structure PageParams (page pageSize : Int) : Prop where
  page_pos : 1 ≤ page
  size_pos : 1 ≤ pageSize
  size_le : pageSize ≤ maxV2PageSize
  fits : page * pageSize ≤ maxInt64

theorem parseV2PositiveInt_pos {raw name : Str} {d n : Int} (hd : 1 ≤ d) (h : parseV2PositiveInt raw d name = .ok n) :
    1 ≤ n := by
  unfold parseV2PositiveInt at h
  split at h
  · cases h; exact hd
  · split at h
    · cases h
    · split at h
      · cases h
      · cases h; omega

variable {rawPage rawSize : Str} {page pageSize : Int}

theorem parseV2PageParams_ok (h : parseV2PageParams rawPage rawSize = .ok (page, pageSize)) :
    PageParams page pageSize ∧ parseV2PositiveInt rawSize defaultV2PageSize (lit "pageSize") = .ok pageSize := by
  obtain ⟨n, hn, h⟩ := Checked.bind_eq_ok.mp h
  obtain ⟨k, hk, h⟩ := Checked.bind_eq_ok.mp h
  have hpage := parseV2PositiveInt_pos (by decide) hn
  have hsize := parseV2PositiveInt_pos (by decide) hk
  split at h
  · cases h
  · rename_i hmax
    split at h
    · cases h
    · rename_i hlarge
      cases h
      refine ⟨⟨hpage, hsize, Int.not_lt.mp hmax, ?_⟩, hk⟩
      exact (Int.le_ediv_iff_mul_le (by omega)).mp (Int.not_lt.mp hlarge)

theorem PageParams.accepted (h : PageParams page pageSize)
    (hsize : parseV2PositiveInt rawSize defaultV2PageSize (lit "pageSize") = .ok pageSize) :
    parseV2PageParams (formatInt page) rawSize = .ok (page, pageSize) := by
  have hpos := h.page_pos
  have hlt : page < 2 ^ 63 := by
    have := Int.mul_le_mul_of_nonneg_left h.size_pos (by omega : 0 ≤ page)
    have := h.fits
    unfold maxInt64 at this
    omega
  have hpage : parseV2PositiveInt (formatInt page) defaultV2Page (lit "page") = .ok page := by
    unfold parseV2PositiveInt
    rw [if_neg (formatInt_natural (by omega)).1, atoi_formatInt (by omega) hlt]
    exact if_neg (by omega)
  refine Checked.bind_eq_ok.mpr ⟨page, hpage, Checked.bind_eq_ok.mpr ⟨pageSize, hsize, ?_⟩⟩
  have hquot := (Int.le_ediv_iff_mul_le (by have := h.size_pos; omega)).mpr h.fits
  rw [if_neg (Int.not_lt.mpr h.size_le), if_neg (Int.not_lt.mpr hquot)]

/-! ## One page -/

section
variable {T : Type}

theorem PageParams.exact (h : PageParams page pageSize) :
    wrapInt (page - 1) = page - 1 ∧ wrapInt ((page - 1) * pageSize) = (page - 1) * pageSize ∧
      wrapInt ((page - 1) * pageSize + pageSize) = (page - 1) * pageSize + pageSize := by
  obtain ⟨hpage, hsize, -, hfits⟩ := h
  have hstart : 0 ≤ (page - 1) * pageSize := Int.mul_nonneg (by omega) (by omega)
  have hstop : (page - 1) * pageSize + pageSize = page * pageSize := by
    rw [Int.sub_mul, Int.one_mul, Int.sub_add_cancel]
  have hle : page - 1 ≤ (page - 1) * pageSize := by
    simpa using Int.mul_le_mul_of_nonneg_left hsize (by omega : 0 ≤ page - 1)
  unfold maxInt64 at hfits
  refine ⟨wrapInt_eq (by omega) (by omega), wrapInt_eq (by omega) (by omega), wrapInt_eq (by omega) (by omega)⟩

def pageItems (items : List T) (size k : Nat) : List T := (items.drop (k * size)).take size

theorem PageParams.paginate {k : Nat} (h : PageParams ((k : Int) + 1) pageSize) (items : List T) :
    paginateV2Items items ((k : Int) + 1) pageSize = some (pageItems items pageSize.toNat k) := by
  obtain ⟨hpred, hstart, hstop⟩ := h.exact
  have hsize := h.size_pos
  obtain ⟨size, rfl⟩ := Int.eq_ofNat_of_zero_le (by omega : 0 ≤ pageSize)
  have hfrom : ((k : Int) + 1 - 1) * (size : Int) = ((k * size : Nat) : Int) := by
    rw [Int.add_sub_cancel, Int.natCast_mul]
  rw [hfrom] at hstart hstop
  simp only [paginateV2Items, hpred, hfrom, hstart, hstop, pageItems, Int.toNat_natCast]
  by_cases hpast : items.length ≤ k * size
  · rw [if_pos (Int.ofNat_le.mpr hpast), List.drop_eq_nil_of_le hpast, List.take_nil]
  · rw [if_neg (by omega), if_pos ⟨by omega, by omega⟩]
    refine congrArg some (List.take_eq_take_iff.mpr ?_)
    rw [List.length_drop]; omega

theorem flatten_pages (items : List T) (size m : Nat) :
    ((List.range m).map (pageItems items size)).flatten = items.take (m * size) := by
  induction m with
  | zero => simp
  | succ m ih =>
    rw [List.range_succ, List.map_append, List.flatten_append, ih, Nat.succ_mul, List.take_add]
    simp [pageItems]

theorem length_le_pageCount {pageSize : Int} (h : 1 ≤ pageSize) (total : Nat) :
    total ≤ pageCount total pageSize * pageSize.toNat ∧
      pageCount total pageSize * pageSize.toNat < total + pageSize.toNat := by
  have hpos : 0 < pageSize.toNat := by omega
  have hdiv := Nat.div_add_mod (total + pageSize.toNat - 1) pageSize.toNat
  have hmod := Nat.mod_lt (total + pageSize.toNat - 1) hpos
  rw [Nat.mul_comm] at hdiv
  unfold pageCount
  omega

theorem PageParams.of_lt (h : PageParams page pageSize) (s : ItemSlice T) {k : Nat}
    (hk : k < pageCount s.items.length pageSize) : PageParams ((k : Int) + 1) pageSize := by
  obtain ⟨-, hsize, hmax, -⟩ := h
  refine ⟨by omega, hsize, hmax, ?_⟩
  have hmul : (k + 1) * pageSize.toNat ≤ _ := Nat.mul_le_mul_right pageSize.toNat (Nat.succ_le_of_lt hk)
  have hlast := (length_le_pageCount hsize s.items.length).2
  have hfits := s.fits
  have hcast : ((k : Int) + 1) * pageSize = ((k + 1) * pageSize.toNat : Nat) := by
    rw [Int.natCast_mul, Int.toNat_of_nonneg (by omega)]; rfl
  unfold maxV2PageSize at hmax
  unfold maxAlloc at hfits
  unfold maxInt64
  omega

/-- Nothing overflows, a page has at most `pageSize` items, and the pages up to the last one
together are the list. -/
theorem pages_partition (s : ItemSlice T) (h : parseV2PageParams rawPage rawSize = .ok (page, pageSize)) :
    (wrapInt (page - 1) = page - 1 ∧ wrapInt ((page - 1) * pageSize) = (page - 1) * pageSize ∧
      wrapInt ((page - 1) * pageSize + pageSize) = (page - 1) * pageSize + pageSize) ∧
    (∃ resp, buildV2PageResp s.items page pageSize = some resp ∧ resp.items.length ≤ pageSize ∧
      (pageCount s.items.length pageSize < page → resp.items = [])) ∧
    (∀ k < pageCount s.items.length pageSize,
      parseV2PageParams (formatInt ((k : Int) + 1)) rawSize = .ok ((k : Int) + 1, pageSize)) ∧
    ∃ pages : List (List T),
      ((List.range (pageCount s.items.length pageSize)).map fun k : Nat =>
        paginateV2Items s.items ((k : Int) + 1) pageSize) = pages.map some ∧
      (∀ items ∈ pages, items.length ≤ pageSize) ∧ pages.flatten = s.items := by
  obtain ⟨hparams, hraw⟩ := parseV2PageParams_ok h
  have hsize := hparams.size_pos
  obtain ⟨hcover, -⟩ := length_le_pageCount hsize s.items.length
  have hlen : ∀ k, ((pageItems s.items pageSize.toNat k).length : Int) ≤ pageSize := by
    intro k
    rw [pageItems, List.length_take]; omega
  refine ⟨hparams.exact, ?_, fun k hk => (hparams.of_lt s hk).accepted hraw, ?_⟩
  · obtain ⟨k, rfl⟩ : ∃ k : Nat, page = (k : Int) + 1 := ⟨(page - 1).toNat, by have := hparams.page_pos; omega⟩
    refine ⟨_, congrArg _ (hparams.paginate s.items), hlen k, fun hpast => ?_⟩
    refine List.take_eq_nil_of_eq_nil (List.drop_eq_nil_of_le (Nat.le_trans hcover ?_))
    exact Nat.mul_le_mul_right _ (by omega)
  · refine ⟨(List.range (pageCount s.items.length pageSize)).map (pageItems s.items pageSize.toNat), ?_, ?_, ?_⟩
    · rw [List.map_map]
      exact List.map_congr_left fun k hk => (hparams.of_lt s (List.mem_range.mp hk)).paginate s.items
    · exact List.forall_mem_map.mpr fun k _ => hlen k
    · rw [flatten_pages, List.take_of_length_le hcover]

theorem pages_partition_last :
    parseV2PageParams (lit "3") (lit "2") = .ok (3, 2) ∧ pageCount [10, 20, 30, 40, 50].length 2 = 3 ∧
    ∃ pages : List (List Nat),
      ((List.range 3).map fun k : Nat => paginateV2Items [10, 20, 30, 40, 50] ((k : Int) + 1) 2) = pages.map some ∧
      pages.flatten = [10, 20, 30, 40, 50] := by
  have hparse : parseV2PageParams (lit "3") (lit "2") = .ok (3, 2) := by decide
  obtain ⟨pages, hpages, -, hflat⟩ := (pages_partition ⟨[10, 20, 30, 40, 50], by decide⟩ hparse).2.2.2
  exact ⟨hparse, rfl, pages, hpages, hflat⟩

end

end Frp
