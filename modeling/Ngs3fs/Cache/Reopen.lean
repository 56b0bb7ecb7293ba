import Ngs3fs.Cache.Geometry

/-!
# Pending pages at open

The constructor of `CacheEntry` makes a pending page of the last mount a missing one and punches the
blocks that are left without any content. The asynchronous open finds the blocks to punch before,
from the bitmap as it was (`begin_recovery_punches`), and constructs the entry without punching. -/

namespace Ngs3fs.Cache
open Loop List

namespace CacheEntry

/-- The pages of a block that the constructor goes through. -/
def openPages (e : CacheEntry) (bitmap : Bitmap) (offset : Nat) : Bitmap :=
  bitmap.replace (e.blockFirstPage offset) (e.blockLastPage offset) .readPending .missing

def allMissing (e : CacheEntry) (bitmap : Bitmap) (offset : Nat) : Bool :=
  let first := e.blockFirstPage offset
  let last := e.blockLastPage offset
  bitmap.anyState first last .readPending &&
    (e.openPages bitmap offset).allState first last .missing

/-- One turn of the constructor's loop. The offsets are those of the punches. -/
def openBlock (e : CacheEntry) (punchMissing : Bool) (s : Bitmap × List Nat) (block : Nat) :
    Bitmap × List Nat :=
  let offset := block * e.blockSize
  (e.openPages s.1 offset,
    if punchMissing && e.allMissing s.1 offset && !e.exported then s.2 ++ [offset] else s.2)

/-- The constructor of `CacheEntry`. -/
def construct (e : CacheEntry) (punchMissing : Bool) : Bitmap × List Nat :=
  (range e.regionCount).foldl (e.openBlock punchMissing) (e.bitmap, [])

/-- The test of `begin_recovery_punches`. -/
def recoverable (e : CacheEntry) (offset : Nat) : Bool :=
  let pages := (e.size - 1) / kCacheBitmapUnit + 1
  let first := offset / kCacheBitmapUnit
  let last := min pages (first + e.blockSize / kCacheBitmapUnit)
  e.bitmap.anyState first last .readPending &&
    (range' first (last - first)).all fun page =>
      e.bitmap page == .missing || e.bitmap page == .readPending

/-- `recovery_offsets_`. -/
def recoveryOffsets (e : CacheEntry) : List Nat :=
  if e.exported || e.size == 0 then []
  else
    ((range ((e.size - 1) / e.blockSize + 1)).map (· * e.blockSize)).filter
      e.recoverable

/-- The bitmap after the first `blocks` blocks. -/
def opened (e : CacheEntry) (blocks : Nat) : Bitmap := fun page =>
  if page < e.pageCount ∧ e.pageBlock page < blocks ∧
    e.bitmap page = .readPending then .missing else e.bitmap page

/-- A block that had pending pages and has no content. -/
def Emptied (e : CacheEntry) (block : Nat) : Prop :=
  (∃ page, (page < e.pageCount ∧ e.pageBlock page = block) ∧
    e.bitmap page = .readPending) ∧
  ∀ page, page < e.pageCount ∧ e.pageBlock page = block →
    e.bitmap page ≠ .clean ∧ e.bitmap page ≠ .bad

variable {e : CacheEntry} {block page : Nat}

lemma mem_openPages (inside : block < e.regionCount) :
    e.blockFirstPage (block * e.blockSize) ≤ page ∧
      page < e.blockLastPage (block * e.blockSize) ↔
    page < e.pageCount ∧ e.pageBlock page = block := by
  rw [mem_blockPages ⟨block, mul_comm _ _⟩ (lt_regionCount.1 inside),
    Nat.mul_div_cancel _ e.block_pos]

lemma mem_recoveryPages (inside : block < e.regionCount) :
    block * e.blockSize / kCacheBitmapUnit ≤ page ∧
      page < min ((e.size - 1) / kCacheBitmapUnit + 1) (block * e.blockSize /
        kCacheBitmapUnit + e.blockSize / kCacheBitmapUnit) ↔
    page < e.pageCount ∧ e.pageBlock page = block := by
  have some := lt_regionCount.1 inside
  have unit : 0 < kCacheBitmapUnit := by decide
  obtain ⟨k, size⟩ := e.unit_dvd
  rw [e.pageBlock_eq_iff, pageCount, if_neg (by omega), size, mul_left_comm,
    Nat.mul_div_cancel_left _ unit, Nat.mul_div_cancel_left _ unit, lt_min_iff, ← Nat.mul_add,
    mul_comm page, Nat.mul_le_mul_left_iff unit, Nat.mul_lt_mul_left unit]
  tauto

lemma state_cases (state : CachePageState) :
    state ≠ .clean ∧ state ≠ .bad ↔ state = .missing ∨ state = .readPending := by
  cases state <;> decide

lemma recoverable_iff (inside : block < e.regionCount) :
    e.recoverable (block * e.blockSize) = true ↔ e.Emptied block := by
  simp only [recoverable, Bool.and_eq_true, Bitmap.anyState_iff, all_eq_true, mem_range'_iff,
    mem_recoveryPages inside, Bool.or_eq_true, beq_iff_eq, Emptied, state_cases, ← and_assoc]

lemma opened_of_ge (later : block ≤ e.pageBlock page) :
    e.opened block page = e.bitmap page := if_neg fun h => by omega

lemma openPages_opened (inside : block < e.regionCount) :
    e.openPages (e.opened block) (block * e.blockSize) = e.opened (block + 1) := by
  funext page
  rw [openPages, Bitmap.replace_apply]
  simp only [mem_openPages inside]
  split
  next here =>
    rw [opened_of_ge (by omega), opened]
    simp only [here, Nat.lt_succ_self, true_and]
  next other =>
    exact if_congr (and_congr_right fun counted => and_congr_left' (by omega)) rfl rfl

lemma opened_eq_missing_iff (here : page < e.pageCount ∧ e.pageBlock page = block) :
    e.opened (block + 1) page = .missing ↔ e.bitmap page ≠ .clean ∧ e.bitmap page ≠ .bad := by
  rw [opened, here.2, state_cases]
  simp only [here.1, Nat.lt_succ_self, true_and]
  split
  next pending => exact ⟨fun _ => .inr pending, fun _ => rfl⟩
  next other => exact (or_iff_left other).symm

lemma allMissing_iff (inside : block < e.regionCount) :
    e.allMissing (e.opened block) (block * e.blockSize) = true ↔ e.Emptied block := by
  simp only [allMissing, openPages_opened inside, Bool.and_eq_true, Bitmap.anyState_iff,
    Bitmap.allState_iff, ← and_assoc, ← and_imp, mem_openPages inside]
  refine and_congr (exists_congr fun page => and_congr_right fun here => ?_)
    (forall_congr' fun page => forall_congr' opened_eq_missing_iff)
  rw [opened_of_ge (Nat.le_of_eq here.2.symm)]

/-- The blocks before do not touch the pages of this one. -/
lemma openBlock_run (punchMissing : Bool) {blocks} (le : blocks ≤ e.regionCount) :
    (range blocks).foldl (e.openBlock punchMissing) (e.bitmap, []) = (e.opened blocks,
      ((range blocks).map (· * e.blockSize)).filter fun offset =>
        punchMissing && e.recoverable offset && !e.exported) := by
  induction blocks with
  | zero =>
    refine Prod.ext (funext fun page => ?_) rfl
    exact (opened_of_ge (Nat.zero_le _)).symm
  | succ block ih =>
    have same : e.allMissing (e.opened block) (block * e.blockSize) =
        e.recoverable (block * e.blockSize) := by
      rw [Bool.eq_iff_iff, allMissing_iff le, recoverable_iff le]
    rw [range_succ, foldl_append, ih (Nat.le_of_succ_le le), foldl_cons,
      foldl_nil, openBlock, openPages_opened le, same, map_append, filter_append,
      map_singleton, filter_singleton]
    refine Prod.ext rfl ?_
    dsimp only
    cases punchMissing && e.recoverable (block * e.blockSize) && !e.exported with
    | true => rfl
    | false => exact (append_nil _).symm

lemma recoveryOffsets_eq (e : CacheEntry) : e.recoveryOffsets =
    ((range e.regionCount).map (· * e.blockSize)).filter fun offset =>
      e.recoverable offset && !e.exported := by
  rw [recoveryOffsets, regionCount]
  cases e.exported with
  | true => exact (filter_eq_nil_iff.2 fun _ _ => by simp).symm
  | false =>
    by_cases empty : e.size = 0
    · simp [empty]
    · simp [empty]

lemma construct_eq (e : CacheEntry) (punchMissing : Bool) : e.construct punchMissing =
    (e.opened e.regionCount, if punchMissing then e.recoveryOffsets else []) := by
  rw [construct, openBlock_run punchMissing (Nat.le_refl _), recoveryOffsets_eq]
  refine Prod.ext rfl ?_
  cases punchMissing with
  | false => exact filter_eq_nil_iff.2 fun _ _ => Bool.false_ne_true
  | true => rfl

lemma mem_recoveryOffsets {offset} : offset ∈ e.recoveryOffsets ↔ e.exported = false ∧
    ∃ block, block < e.regionCount ∧ e.Emptied block ∧ offset = block * e.blockSize := by
  rw [recoveryOffsets_eq, mem_filter, mem_map, Bool.and_eq_true, Bool.not_eq_true']
  constructor
  · rintro ⟨⟨block, inside, rfl⟩, emptied, owned⟩
    have inside := mem_range.1 inside
    exact ⟨owned, block, inside, (recoverable_iff inside).1 emptied, rfl⟩
  · rintro ⟨owned, block, inside, emptied, rfl⟩
    exact ⟨⟨block, mem_range.2 inside, rfl⟩, (recoverable_iff inside).2 emptied, owned⟩

end CacheEntry

/-- Both ways to open an entry leave the same bitmap and punch the same blocks. `io` says which of
the punches succeed. -/
theorem open_cleans_pending (e : CacheEntry) (io : Nat → Bool) (data : Nat → UInt8) :
    (e.construct false).1 = (e.construct true).1 ∧ e.recoveryOffsets = (e.construct true).2 ∧
    (∀ page, (e.construct true).1 page =
      if page < e.pageCount ∧ e.bitmap page = .readPending then .missing else e.bitmap page) ∧
    (∀ offset, offset ∈ e.recoveryOffsets ↔ e.exported = false ∧
      ∃ block, block < e.regionCount ∧ e.Emptied block ∧ offset = block * e.blockSize) ∧
    ∀ i, i < e.size →
      e.bitmap (i / kCacheBitmapUnit) = .clean ∨ e.bitmap (i / kCacheBitmapUnit) = .bad →
      FileOp.applyAll ((e.recoveryOffsets.filter io).map (.punch · e.blockSize)) data i =
        data i := by
  rw [e.construct_eq, e.construct_eq]
  refine ⟨rfl, rfl, fun page => ?_, fun _ => CacheEntry.mem_recoveryOffsets, ?_⟩
  · refine if_congr (and_congr_right fun counted => and_iff_right ?_) rfl rfl
    have start := (e.pageBlock_bounds page).1
    exact CacheEntry.lt_regionCount.2 (Nat.lt_of_le_of_lt start (CacheEntry.lt_pageCount.1 counted))
  · intro i inside content
    refine FileOp.applyAll_of_not_touches fun op punched touched => ?_
    obtain ⟨offset, mem, rfl⟩ := mem_map.1 punched
    obtain ⟨-, block, -, emptied, rfl⟩ :=
      CacheEntry.mem_recoveryOffsets.1 (mem_filter.1 mem).1
    have start := Nat.div_mul_le_self i kCacheBitmapUnit
    have page := e.div_eq_pageBlock start (Nat.lt_div_mul_add (by decide))
    rw [e.div_eq_iff.2 touched] at page
    obtain ⟨clean, bad⟩ := emptied.2 _
      ⟨CacheEntry.lt_pageCount.2 (Nat.lt_of_le_of_lt start inside), page.symm⟩
    exact content.elim clean bad

end Ngs3fs.Cache
