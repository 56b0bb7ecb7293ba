import Ngs3fs.Cache.Basic

/-!
# Pages, blocks and regions

The page and block arithmetic of `CacheEntry`. A region is a block counted from zero, `pageBlock`
the region of a page. -/

namespace Ngs3fs.Cache
open Loop Nat

namespace Bitmap

def set (bitmap : Bitmap) (page : Nat) (state : CachePageState) : Bitmap :=
  Function.update bitmap page state

def anyState (bitmap : Bitmap) (first last : Nat) (state : CachePageState) : Bool :=
  (List.range' first (last - first)).any fun page => bitmap page == state

def allState (bitmap : Bitmap) (first last : Nat) (state : CachePageState) : Bool :=
  (List.range' first (last - first)).all fun page => bitmap page == state

/-- `for (page = first; page < last; ++page) set_page_state(page, state)`. -/
def fill (bitmap : Bitmap) (first last : Nat) (state : CachePageState) : Bitmap :=
  forRange first last bitmap fun bitmap page => bitmap.set page state

def replace (bitmap : Bitmap) (first last : Nat) (old new : CachePageState) : Bitmap :=
  forRange first last bitmap fun bitmap page =>
    bitmap.set page (if bitmap page = old then new else bitmap page)

lemma anyState_iff {bitmap : Bitmap} {first last state} :
    bitmap.anyState first last state = true ↔
      ∃ page, first ≤ page ∧ page < last ∧ bitmap page = state := by
  simp only [anyState, List.any_eq_true, mem_range'_iff, beq_iff_eq, and_assoc]

lemma allState_iff {bitmap : Bitmap} {first last state} :
    bitmap.allState first last state = true ↔
      ∀ page, first ≤ page → page < last → bitmap page = state := by
  simp only [allState, List.all_eq_true, mem_range'_iff, beq_iff_eq, and_imp]

lemma fill_apply (bitmap : Bitmap) (first last : Nat) (state : CachePageState) (page : Nat) :
    bitmap.fill first last state page =
      if first ≤ page ∧ page < last then state else bitmap page :=
  forRange_update first last bitmap (fun _ _ => state) page

lemma replace_apply (bitmap : Bitmap) (first last : Nat) (old new : CachePageState) (page : Nat) :
    bitmap.replace first last old new page =
      if first ≤ page ∧ page < last then (if bitmap page = old then new else bitmap page)
      else bitmap page :=
  forRange_update first last bitmap (fun _ s => if s = old then new else s) page

end Bitmap

def Meets (blockSize offset length region : Nat) : Prop :=
  0 < length ∧ offset < region * blockSize + blockSize ∧ region * blockSize < offset + length

instance (blockSize offset length region : Nat) :
    Decidable (Meets blockSize offset length region) :=
  inferInstanceAs (Decidable (_ ∧ _ ∧ _))

lemma add_le_of_dvd_of_lt {b x y : Nat} (hx : b ∣ x) (hy : b ∣ y) (h : x < y) : x + b ≤ y := by
  obtain ⟨k, rfl⟩ := hx
  obtain ⟨l, rfl⟩ := hy
  have hkl : k + 1 ≤ l := Nat.lt_of_mul_lt_mul_left h
  calc b * k + b = b * (k + 1) := by rw [mul_succ]
    _ ≤ b * l := Nat.mul_le_mul_left b hkl

namespace CacheConfig

variable (config : CacheConfig)

def pageBlock (page : Nat) : Nat := page * kCacheBitmapUnit / config.blockSize

lemma pageBlock_bounds (page : Nat) :
    config.pageBlock page * config.blockSize ≤ page * kCacheBitmapUnit ∧
    page * kCacheBitmapUnit + kCacheBitmapUnit ≤
      config.pageBlock page * config.blockSize + config.blockSize := by
  have lo : config.pageBlock page * config.blockSize ≤ page * kCacheBitmapUnit :=
    div_mul_le_self _ _
  have hi : page * kCacheBitmapUnit < config.pageBlock page * config.blockSize + config.blockSize :=
    lt_div_mul_add config.block_pos
  refine ⟨lo, ?_⟩
  have hd : kCacheBitmapUnit ∣ config.pageBlock page * config.blockSize + config.blockSize :=
    Dvd.dvd.add (Dvd.dvd.mul_left config.unit_dvd _) config.unit_dvd
  exact add_le_of_dvd_of_lt (Dvd.intro_left page rfl) hd hi

lemma pageBlock_eq_iff {page region} : config.pageBlock page = region ↔
      region * config.blockSize ≤ page * kCacheBitmapUnit ∧
      page * kCacheBitmapUnit < region * config.blockSize + config.blockSize := by
  constructor
  · rintro rfl
    have h := config.pageBlock_bounds page
    have : 0 < kCacheBitmapUnit := by decide
    omega
  · rintro ⟨h1, h2⟩
    refine Nat.div_eq_of_lt_le h1 ?_
    rw [succ_mul]
    exact h2

lemma div_eq_iff {i region} : i / config.blockSize = region ↔
      region * config.blockSize ≤ i ∧ i < region * config.blockSize + config.blockSize := by
  rw [Nat.div_eq_iff config.block_pos]
  have := config.block_pos
  omega

lemma div_eq_pageBlock {page i} (lo : page * kCacheBitmapUnit ≤ i)
    (hi : i < page * kCacheBitmapUnit + kCacheBitmapUnit) :
    i / config.blockSize = config.pageBlock page := by
  have bounds := config.pageBlock_bounds page
  rw [config.div_eq_iff]
  omega

lemma meets_of_mem {offset length i} (lo : offset ≤ i) (hi : i < offset + length) :
    Meets config.blockSize offset length (i / config.blockSize) := by
  have bounds := config.div_eq_iff.1 (rfl : i / config.blockSize = i / config.blockSize)
  refine ⟨?_, ?_, ?_⟩ <;> omega

end CacheConfig

namespace CacheEntry

def pageCount (e : CacheEntry) : Nat :=
  if e.size = 0 then 0 else (e.size - 1) / kCacheBitmapUnit + 1

def regionCount (e : CacheEntry) : Nat :=
  if e.size = 0 then 0 else (e.size - 1) / e.blockSize + 1

/-- `block_first_page`. -/
def blockFirstPage (e : CacheEntry) (offset : Nat) : Nat :=
  offset / e.blockSize * e.blockSize / kCacheBitmapUnit

/-- `block_last_page`. -/
def blockLastPage (e : CacheEntry) (offset : Nat) : Nat :=
  let first := offset / e.blockSize * e.blockSize
  let stop := min e.size (first + e.blockSize)
  if stop = 0 then 0 else min e.pageCount ((stop - 1) / kCacheBitmapUnit + 1)

/-- `range_has_state`. -/
def rangeHasState (e : CacheEntry) (offset length : Nat) (state : CachePageState) : Bool :=
  if length = 0 then false
  else e.bitmap.anyState (offset / kCacheBitmapUnit)
    ((offset + length - 1) / kCacheBitmapUnit + 1) state

/-- `range_all_state`. -/
def rangeAllState (e : CacheEntry) (offset length : Nat) (state : CachePageState) : Bool :=
  if length = 0 then true
  else e.bitmap.allState (offset / kCacheBitmapUnit)
    ((offset + length - 1) / kCacheBitmapUnit + 1) state

variable {e : CacheEntry}

lemma lt_pageCount {page} : page < e.pageCount ↔ page * kCacheBitmapUnit < e.size := by
  unfold pageCount
  have unit : 0 < kCacheBitmapUnit := by decide
  split
  · omega
  · rw [Nat.lt_succ_iff, le_div_iff_mul_le unit]
    omega

lemma lt_regionCount {region} : region < e.regionCount ↔ region * e.blockSize < e.size := by
  unfold regionCount
  split
  · omega
  · rw [Nat.lt_succ_iff, le_div_iff_mul_le e.block_pos]
    omega

lemma mem_blockPages {block page} (aligned : e.blockSize ∣ block) (inside : block < e.size) :
    e.blockFirstPage block ≤ page ∧ page < e.blockLastPage block ↔
      page < e.pageCount ∧ e.pageBlock page = block / e.blockSize := by
  have unit : 0 < kCacheBitmapUnit := by decide
  have hb := e.block_pos
  have start : block / e.blockSize * e.blockSize = block := Nat.div_mul_cancel aligned
  have lower : e.blockFirstPage block ≤ page ↔ block ≤ page * kCacheBitmapUnit := by
    have hd : kCacheBitmapUnit ∣ block := Dvd.dvd.trans e.unit_dvd aligned
    rw [blockFirstPage, start]
    constructor
    · intro h
      calc block = block / kCacheBitmapUnit * kCacheBitmapUnit := (Nat.div_mul_cancel hd).symm
        _ ≤ page * kCacheBitmapUnit := mul_le_mul_right _ h
    · intro h
      exact Nat.div_le_of_le_mul (by rwa [mul_comm])
  have upper : page < e.blockLastPage block ↔
      page * kCacheBitmapUnit < e.size ∧
      page * kCacheBitmapUnit < block + e.blockSize := by
    simp only [blockLastPage, start]
    rw [if_neg (by omega), lt_min_iff, lt_pageCount, Nat.lt_succ_iff, le_div_iff_mul_le unit]
    omega
  rw [lower, upper, lt_pageCount, e.pageBlock_eq_iff, start]
  tauto

lemma rangeAllState_iff {offset length state} (pos : 0 < length) :
    e.rangeAllState offset length state = true ↔
      ∀ page, offset < page * kCacheBitmapUnit + kCacheBitmapUnit →
        page * kCacheBitmapUnit < offset + length → e.bitmap page = state := by
  have unit : 0 < kCacheBitmapUnit := by decide
  have bounds (page : Nat) : offset / kCacheBitmapUnit ≤ page ∧
      page < (offset + length - 1) / kCacheBitmapUnit + 1 ↔
      offset < page * kCacheBitmapUnit + kCacheBitmapUnit ∧
      page * kCacheBitmapUnit < offset + length := by
    rw [Nat.lt_succ_iff, le_div_iff_mul_le unit, ← Nat.lt_succ_iff, div_lt_iff_lt_mul unit,
      succ_mul]
    omega
  rw [rangeAllState, if_neg (by omega), Bitmap.allState_iff]
  constructor
  · intro h page h1 h2
    obtain ⟨lo, hi⟩ := (bounds page).2 ⟨h1, h2⟩
    exact h page lo hi
  · intro h page h1 h2
    obtain ⟨lo, hi⟩ := (bounds page).1 ⟨h1, h2⟩
    exact h page lo hi

end CacheEntry

end Ngs3fs.Cache
