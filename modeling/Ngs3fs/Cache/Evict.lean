import Ngs3fs.Cache.Tail

/-!
# Eviction, retirement and export

The second-chance eviction `evict_one_region`, the asynchronous one of `CacheCapacityOperation`
(`claim_live_region` marks the clean pages of a region pending, the punch runs later,
`finish_claim` settles them), `retire_generation` and `try_export`. The outcome of a system call is
an argument. The byte counts eviction returns are left out. -/

namespace Ngs3fs.Cache
open Loop List

/-- An asynchronous eviction in flight: the range to punch, the pages it marked (`offset_`,
`length_`, `clean_pages_`), and whether it has punched. -/
structure Eviction where
  offset : Nat
  length : Nat
  cleanPages : List Nat
  punched : Bool
  deriving DecidableEq

/-- The system calls of `evict_one_region`. -/
structure EvictIo where
  statBefore : Bool
  punch : Bool
  statAfter : Bool
  deriving DecidableEq

namespace CacheEntry

def regionFirstPage (e : CacheEntry) (region : Nat) : Nat :=
  region * e.blockSize / kCacheBitmapUnit

def regionLastPage (e : CacheEntry) (region : Nat) : Nat :=
  (min e.size (region * e.blockSize + e.blockSize) - 1) / kCacheBitmapUnit + 1

def cleanPages (e : CacheEntry) (region : Nat) : List Nat :=
  (range' (e.regionFirstPage region) (e.regionLastPage region - e.regionFirstPage region)).filter
    fun page => e.bitmap page == .clean

/-- Without pins, its pages clean or missing, and a clean one among them. -/
def evictable (e : CacheEntry) (region : Nat) : Bool :=
  e.regionPins region == 0 &&
    (range' (e.regionFirstPage region)
      (e.regionLastPage region - e.regionFirstPage region)).all
        (fun page => e.bitmap page == .clean || e.bitmap page == .missing) &&
    !(e.cleanPages region).isEmpty

/-- A referenced region loses its reference bit, and the first other one that can be evicted is
chosen. -/
def clockScan : Nat → CacheEntry → CacheEntry × Option Nat
  | 0, e => (e, none)
  | n + 1, e =>
    let region := e.clockHand % e.regionCount
    let e := { e with clockHand := e.clockHand + 1 }
    if e.referenced region then
      clockScan n { e with referenced := Function.update e.referenced region false }
    else if e.evictable region then (e, some region)
    else clockScan n e

def evictionRefused (e : CacheEntry) : Bool :=
  e.unlimited || e.stale || e.evictionDisabled || e.dirty || e.exported || e.regionCount == 0

/-- `for (page : pages) set_page_state(page, state)`. -/
def setPages (bitmap : Bitmap) (pages : List Nat) (state : CachePageState) : Bitmap :=
  pages.foldl (fun bitmap page => bitmap.set page state) bitmap

/-- A failed punch restores the pages it had dropped. -/
def evictOneRegion (e : CacheEntry) (io : EvictIo) : CacheEntry × List FileOp :=
  if e.evictionRefused then (e, [])
  else
    match clockScan e.regionCount e with
    | (e, none) => (e, [])
    | (e, some region) =>
      if !io.statBefore then (e, [])
      else
        let pages := e.cleanPages region
        let dropped := setPages e.bitmap pages .missing
        if !io.punch then ({ e with bitmap := setPages dropped pages .clean }, [])
        else
          (notifyWaitersIf io.statAfter { e with bitmap := dropped },
            [.punch (region * e.blockSize) e.blockSize])

/-- `claim_live_region`. -/
def claimLiveRegion (e : CacheEntry) : CacheEntry × Option Eviction :=
  if e.evictionRefused then (e, none)
  else
    match clockScan e.regionCount e with
    | (e, none) => (e, none)
    | (e, some region) =>
      let pages := e.cleanPages region
      ({ e with bitmap := setPages e.bitmap pages .readPending },
        some { offset := region * e.blockSize, length := e.blockSize,
               cleanPages := pages, punched := false })

/-- The page loop of `finish_claim`; `none` is its `abort`. -/
def finishPages (state : CachePageState) : List Nat → Bitmap → Option Bitmap
  | [], bitmap => some bitmap
  | page :: pages, bitmap =>
    if bitmap page = .readPending then finishPages state pages (bitmap.set page state) else none

/-- `none` is its `abort`. -/
def finishClaim (e : CacheEntry) (ev : Eviction) (punched : Bool) : Option CacheEntry :=
  (finishPages (if punched then .missing else .clean) ev.cleanPages e.bitmap).map fun bitmap =>
    notifyWaiters { e with bitmap }

def quiescent (e : CacheEntry) : Bool :=
  e.activeClaims.isEmpty && e.checksumOps == 0 && e.pinnedRegions == 0

/-- Without waiting. -/
def retireGeneration (e : CacheEntry) : CacheEntry × Except CacheError Unit :=
  let e := if e.stale then e else notifyWaiters { e with stale := true }
  (e, if e.quiescent then .ok ()
    else .error (.systemError .EAGAIN "cache generation retirement pending"))

/-- As far as `try_export` asks. -/
def exportVerified (e : CacheEntry) : Bool :=
  e.checksumManifest == .available && !(e.size != 0 && e.checksumParts.isEmpty) &&
    e.checksumStates.length == e.checksumParts.length &&
    e.checksumStates.all fun state => state == .verified

/-- `try_export`. -/
def tryExport (e : CacheEntry) (verify : Bool) : CacheEntry × Bool :=
  if !e.unlimited || e.stale || e.detached || e.dirty || !e.activeClaims.isEmpty ||
      e.checksumOps != 0 || e.pinnedRegions != 0 || e.checksumStates.any (· == .bad) ||
      !e.rangeAllState 0 e.size .clean then (e, false)
  else if verify && !e.exportVerified then (e, false)
  else ({ e with exported := true, evictionDisabled := true }, true)

variable {e : CacheEntry}

section
variable {r : Nat} (inside : r * e.blockSize < e.size)
include inside

lemma mem_regionPages {page} :
    e.regionFirstPage r ≤ page ∧ page < e.regionLastPage r ↔
      page < e.pageCount ∧ e.pageBlock page = r := by
  have unit : 0 < kCacheBitmapUnit := by decide
  have block : e.blockFirstPage (r * e.blockSize) ≤ page ∧
      page < e.blockLastPage (r * e.blockSize) ↔ page < e.pageCount ∧
        e.pageBlock page = r * e.blockSize / e.blockSize :=
    mem_blockPages (Dvd.intro_left r rfl) inside
  have start : r * e.blockSize / e.blockSize = r :=
    Nat.mul_div_cancel _ e.block_pos
  have last : page < e.blockLastPage (r * e.blockSize) ↔ page < e.regionLastPage r := by
    rw [blockLastPage, start, regionLastPage]
    have := e.block_pos
    have upper : page < (min e.size (r * e.blockSize + e.blockSize) - 1) /
        kCacheBitmapUnit + 1 → page < e.pageCount := by
      intro h
      rw [Nat.lt_succ_iff, Nat.le_div_iff_mul_le unit] at h
      rw [lt_pageCount]
      omega
    rw [if_neg (by omega), lt_min_iff]
    exact ⟨And.right, fun h => ⟨upper h, h⟩⟩
  rw [start, last, blockFirstPage, start] at block
  exact block

lemma mem_cleanPages {page} :
    page ∈ e.cleanPages r ↔ page < e.pageCount ∧ e.pageBlock page = r ∧
      e.bitmap page = .clean := by
  rw [cleanPages, mem_filter, mem_range'_iff, mem_regionPages inside, beq_iff_eq, and_assoc]

lemma evictable_iff (h : e.evictable r = true) :
    e.regionPins r = 0 ∧ e.cleanPages r ≠ [] ∧
      ∀ page < e.pageCount, e.pageBlock page = r →
        e.bitmap page = .clean ∨ e.bitmap page = .missing := by
  simp only [evictable, Bool.and_eq_true, beq_iff_eq, all_eq_true, mem_range'_iff,
    Bool.or_eq_true, Bool.not_eq_true', isEmpty_eq_false_iff] at h
  exact ⟨h.1.1, h.2, fun page hp hr => h.1.2 page ((mem_regionPages inside).2 ⟨hp, hr⟩)⟩

end

lemma clockScan_spec (n : Nat) :
    ∃ referenced clockHand, (clockScan n e).1 = { e with referenced, clockHand } ∧
      ∀ r, (clockScan n e).2 = some r → 0 < e.regionCount →
        r < e.regionCount ∧ e.evictable r = true := by
  induction n generalizing e with
  | zero => exact ⟨e.referenced, e.clockHand, rfl, nofun⟩
  | succ n ih =>
    rw [clockScan]
    simp only
    split
    · obtain ⟨referenced, clockHand, h1, h2⟩ := ih (e := { e with
        clockHand := e.clockHand + 1
        referenced := Function.update e.referenced (e.clockHand % e.regionCount) false })
      exact ⟨referenced, clockHand, h1, h2⟩
    split
    · refine ⟨e.referenced, e.clockHand + 1, rfl, ?_⟩
      intro r hr pos
      cases hr
      exact ⟨Nat.mod_lt _ pos, ‹_›⟩
    · obtain ⟨referenced, clockHand, h1, h2⟩ := ih (e := { e with clockHand := e.clockHand + 1 })
      exact ⟨referenced, clockHand, h1, h2⟩

lemma setPages_apply (bitmap : Bitmap) (pages : List Nat) (state : CachePageState) (page : Nat) :
    setPages bitmap pages state page = if page ∈ pages then state else bitmap page := by
  induction pages generalizing bitmap with
  | nil => simp [setPages]
  | cons p pages ih =>
    rw [setPages, foldl_cons, ← setPages, ih, Bitmap.set]
    by_cases hp : page = p
    all_goals simp [hp]

lemma setPages_cleanPages {r} (inside : r * e.blockSize < e.size) (new : CachePageState) :
    setPages e.bitmap (e.cleanPages r) new =
      e.mapRegions (· == r) (fun _ s => if s = .clean then new else s) := by
  funext page
  rw [setPages_apply, mapRegions]
  simp only [mem_cleanPages inside, beq_iff_eq]
  by_cases hp : page < e.pageCount ∧ e.pageBlock page = r
  · simp [hp]
  · rw [if_neg (by tauto), if_neg hp]

lemma finishPages_eq {state pages bitmap}
    (nodup : pages.Nodup) (h : ∀ page ∈ pages, bitmap page = .readPending) :
    finishPages state pages bitmap = some (setPages bitmap pages state) := by
  induction pages generalizing bitmap with
  | nil => rfl
  | cons p pages ih =>
    obtain ⟨hp, hn⟩ := nodup_cons.1 nodup
    rw [finishPages, if_pos (h p mem_cons_self), ih hn]
    · rfl
    · intro page hm
      have ne : page ≠ p := by
        rintro rfl
        exact hp hm
      rw [Bitmap.set, Function.update_of_ne ne]
      exact h page (mem_cons_of_mem _ hm)

end CacheEntry

end Ngs3fs.Cache
