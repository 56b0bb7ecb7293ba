import Ngs3fs.Cache.Fence

/-!
# When a cached read waits

`range_ready_locked` decides whether a reader of a range waits. The read loop asks it after
`pin_clean` and `claim_fetch` have both refused the range, and goes round again at once if the
range is ready: it spins if the three tests disagree. They do for one kind of block, `Poisoned`. -/

namespace Ngs3fs.Cache
open Loop List

namespace CacheEntry

/-- None of its pages is pending, and it is complete or nobody pins it. -/
def blockReady (e : CacheEntry) (block : Nat) : Bool :=
  let offset := block * e.blockSize
  !e.blockPending offset &&
    !(!e.blockAllClean offset && decide (block < e.regionCount) && e.regionPins block != 0)

/-- A reader of the range does not wait (`range_ready_locked`). -/
def rangeReady (e : CacheEntry) (offset length : Nat) : Bool :=
  if e.stale ∨ length = 0 then true
  else if e.checksumBlocked offset length = .bad then true
  else if e.checksumBlocked offset length = .retrying then false
  -- a bad page ends the loop over the pages, a pending one is remembered
  else if e.rangeHasState offset length .bad then true
  else if e.rangeHasState offset length .readPending then false
  else
    let first := offset / e.blockSize
    let last := (offset + length - 1) / e.blockSize
    (range' first (last + 1 - first)).all e.blockReady

variable {e : CacheEntry} {offset length expansion : Nat}

def PageIn (offset length page : Nat) : Prop :=
  offset < page * kCacheBitmapUnit + kCacheBitmapUnit ∧ page * kCacheBitmapUnit < offset + length

lemma pageIn_iff (pos : 0 < length) {page} :
    offset / kCacheBitmapUnit ≤ page ∧ page < (offset + length - 1) / kCacheBitmapUnit + 1 ↔
      PageIn offset length page := by
  have unit : 0 < kCacheBitmapUnit := by decide
  rw [Nat.lt_succ_iff, Nat.le_div_iff_mul_le unit, ← Nat.lt_succ_iff, Nat.div_lt_iff_lt_mul unit,
    Nat.succ_mul, PageIn]
  omega

lemma rangeHasState_eq_false (pos : 0 < length) {state} :
    e.rangeHasState offset length state = false ↔
      ∀ page, PageIn offset length page → e.bitmap page ≠ state := by
  rw [rangeHasState, if_neg (Nat.ne_of_gt pos), ← Bool.not_eq_true, Bitmap.anyState_iff]
  constructor
  · intro none page mem eq
    obtain ⟨lo, hi⟩ := (pageIn_iff pos).2 mem
    exact none ⟨page, lo, hi, eq⟩
  · rintro none ⟨page, lo, hi, eq⟩
    exact none page ((pageIn_iff pos).1 ⟨lo, hi⟩) eq

lemma mem_rangeBlocks (pos : 0 < length) {r} : r ∈ range' (offset / e.blockSize)
        ((offset + length - 1) / e.blockSize + 1 - offset / e.blockSize) ↔
      Meets e.blockSize offset length r := by
  rw [mem_range'_iff, mem_spanRegions pos]

lemma blockReady_iff {r} (inside : r * e.blockSize < e.size) : e.blockReady r = true ↔
      (∀ page < e.pageCount, e.pageBlock page = r → e.bitmap page ≠ .readPending) ∧
      (e.regionPins r ≠ 0 → ∀ page < e.pageCount, e.pageBlock page = r →
        e.bitmap page = .clean) := by
  have region : r * e.blockSize / e.blockSize = r :=
    Nat.mul_div_cancel _ e.block_pos
  have pages (page : Nat) : e.blockFirstPage (r * e.blockSize) ≤ page ∧
      page < e.blockLastPage (r * e.blockSize) ↔
      page < e.pageCount ∧ e.pageBlock page = r := by
    rw [mem_blockPages (Dvd.intro_left r rfl) inside, region]
  have pending : e.blockPending (r * e.blockSize) = false ↔
      ∀ page < e.pageCount, e.pageBlock page = r →
        e.bitmap page ≠ .readPending := by
    rw [blockPending, ← Bool.not_eq_true, Bitmap.anyState_iff]
    constructor
    · intro none page count block eq
      obtain ⟨lo, hi⟩ := (pages page).2 ⟨count, block⟩
      exact none ⟨page, lo, hi, eq⟩
    · rintro none ⟨page, lo, hi, eq⟩
      obtain ⟨count, block⟩ := (pages page).1 ⟨lo, hi⟩
      exact none page count block eq
  have clean : e.blockAllClean (r * e.blockSize) = true ↔
      ∀ page < e.pageCount, e.pageBlock page = r → e.bitmap page = .clean := by
    rw [blockAllClean, Bitmap.allState_iff]
    constructor
    · intro all page count block
      obtain ⟨lo, hi⟩ := (pages page).2 ⟨count, block⟩
      exact all page lo hi
    · intro all page lo hi
      obtain ⟨count, block⟩ := (pages page).1 ⟨lo, hi⟩
      exact all page count block
  rw [← pending, ← clean, blockReady]
  simp only [lt_regionCount.2 inside, decide_true, Bool.and_true, Bool.and_eq_true,
    Bool.not_eq_true', Bool.and_eq_false_iff, Bool.not_eq_false', bne_eq_false_iff_eq]
  tauto

lemma meets_inside (inside : offset + length ≤ e.size) {r}
    (meets : Meets e.blockSize offset length r) : r * e.blockSize < e.size := by
  have := meets.2.2
  omega

lemma PageIn.meets {page} (mem : PageIn offset length page) (pos : 0 < length) :
    Meets e.blockSize offset length (e.pageBlock page) := by
  have bounds := e.pageBlock_bounds page
  obtain ⟨lo, hi⟩ := mem
  exact ⟨pos, by omega, by omega⟩

def PartsFree (e : CacheEntry) (offset length : Nat) : Prop :=
  ∀ part state, (part, state) ∈ e.checksumParts.zip e.checksumStates →
    part.offset < offset + length → offset < part.offset + part.size →
    state ≠ .bad ∧ state ≠ .retrying

lemma checksumBlocked_of_free (tiled : Tiled e.size e.checksumParts) (live : e.stale = false)
    (free : e.PartsFree offset length) : e.checksumBlocked offset length = .unverified := by
  obtain ⟨⟨part, b, mem, blocks⟩, -⟩ | ⟨-, ⟨⟨part, b, mem, blocks⟩, -⟩ | ⟨-, unverified⟩⟩ :=
    checksumBlocked_spec tiled live offset length
  · exact absurd rfl (free part .bad mem (by omega) (by omega)).1
  · exact absurd rfl (free part .retrying mem (by omega) (by omega)).2
  · exact unverified

/-- What the read loop knows when it asks whether to wait. -/
structure Refused (e : CacheEntry) (offset length expansion : Nat) : Prop where
  live : e.stale = false
  committed : e.dirty = false
  writable : e.exported = false
  parts : e.PartsFree offset length
  pin : e.pinClean offset length = .ok (e, false)
  bad : e.rangeHasState offset length .bad = false
  claim : e.claimFetch offset length expansion = .ok (e, none)

/-- The block of the first missing page has a bad page, and no block of the range has a pending
page, or a pin while it is incomplete. -/
structure Poisoned (e : CacheEntry) (offset length : Nat) : Prop where
  bad : ∃ page other, PageIn offset length page ∧ e.bitmap page = .missing ∧
    (∀ before < page, PageIn offset length before → e.bitmap before = .clean) ∧
    other < e.pageCount ∧ e.bitmap other = .bad ∧
    e.pageBlock other = e.pageBlock page
  settled : ∀ page < e.pageCount,
    Meets e.blockSize offset length (e.pageBlock page) →
    e.bitmap page ≠ .readPending
  unpinned : ∀ page < e.pageCount,
    Meets e.blockSize offset length (e.pageBlock page) →
    e.regionPins (e.pageBlock page) ≠ 0 → e.bitmap page = .clean

lemma rangeReady_iff (pos : 0 < length) (inside : offset + length ≤ e.size) (live : e.stale = false)
    (free : e.checksumBlocked offset length = .unverified)
    (good : e.rangeHasState offset length .bad = false) :
    e.rangeReady offset length = true ↔
      (∀ page < e.pageCount,
        Meets e.blockSize offset length (e.pageBlock page) →
        e.bitmap page ≠ .readPending) ∧
      ∀ page < e.pageCount,
        Meets e.blockSize offset length (e.pageBlock page) →
        e.regionPins (e.pageBlock page) ≠ 0 → e.bitmap page = .clean := by
  have asked : ¬ (e.stale = true ∨ length = 0) := by
    rw [live]
    rintro (h | h)
    · cases h
    · exact absurd h (Nat.ne_of_gt pos)
  rw [rangeReady, if_neg asked, if_neg (by rw [free]; exact nofun),
    if_neg (by rw [free]; exact nofun), good, if_neg Bool.false_ne_true]
  cases pending : e.rangeHasState offset length .readPending with
  | false =>
    rw [if_neg Bool.false_ne_true, all_eq_true]
    constructor
    · intro ready
      refine ⟨fun page count meets => ?_, fun page count meets => ?_⟩
      · have block := (blockReady_iff (meets_inside inside meets)).1
          (ready _ ((mem_rangeBlocks pos).2 meets))
        exact block.1 page count rfl
      · have block := (blockReady_iff (meets_inside inside meets)).1
          (ready _ ((mem_rangeBlocks pos).2 meets))
        exact fun pinned => block.2 pinned page count rfl
    · rintro ⟨settled, unpinned⟩ r mem
      have meets := (mem_rangeBlocks pos).1 mem
      rw [blockReady_iff (meets_inside inside meets)]
      refine ⟨fun page count block => ?_, fun pinned page count block => ?_⟩
      · subst block
        exact settled page count meets
      · subst block
        exact unpinned page count meets pinned
  | true =>
    rw [if_pos rfl]
    refine iff_of_false Bool.false_ne_true fun settled => ?_
    rw [rangeHasState, if_neg (Nat.ne_of_gt pos), Bitmap.anyState_iff] at pending
    obtain ⟨page, lo, hi, eq⟩ := pending
    have mem := (pageIn_iff pos).1 ⟨lo, hi⟩
    have count : page < e.pageCount := by
      rw [lt_pageCount]
      have := mem.2
      omega
    exact settled.1 page count (mem.meets pos) eq

lemma firstMissing_first {bitmap first n page}
    (found : firstMissing bitmap (range' first n) = some page) :
    ∀ before, first ≤ before → before < page → bitmap before = .clean := by
  induction n generalizing first with
  | zero => cases found
  | succ n ih =>
    rw [range'_succ, firstMissing] at found
    split at found
    · rename_i clean
      intro before lo hi
      rcases Nat.eq_or_lt_of_le lo with rfl | later
      · exact clean
      · exact ih found before later hi
    · cases found
      intro before lo hi
      omega
    · cases found

lemma firstMissing_none {bitmap pages} (none : firstMissing bitmap pages = none) :
    (∃ page ∈ pages, bitmap page = .readPending ∨ bitmap page = .bad) ∨
      ∀ page ∈ pages, bitmap page = .clean := by
  induction pages with
  | nil => exact .inr nofun
  | cons page pages ih =>
    rw [firstMissing] at none
    cases state : bitmap page with
    | clean =>
      rw [state] at none
      rcases ih none with ⟨other, mem, found⟩ | clean
      · exact .inl ⟨other, mem_cons_of_mem _ mem, found⟩
      · refine .inr fun other mem => ?_
        rcases mem_cons.1 mem with rfl | mem
        · exact state
        · exact clean other mem
    | missing =>
      rw [state] at none
      cases none
    | readPending => exact .inl ⟨page, mem_cons_self, .inl state⟩
    | bad => exact .inl ⟨page, mem_cons_self, .inr state⟩

lemma lt_claimEnd {start limit blocks} (h : start < limit)
    (later : ∀ b ∈ blocks, start < b) : start < e.claimEnd start blocks limit := by
  induction blocks with
  | nil => exact h
  | cons b blocks ih =>
    rw [claimEnd]
    split
    · exact later b mem_cons_self
    · exact ih fun c mem => later c (mem_cons_of_mem _ mem)

lemma claimEnd_gt {start limit} (h : start < limit) (free : e.blockBlocked start = false) :
    start < e.claimEnd start (stepped start limit e.blockSize) limit := by
  rw [stepped_of_lt e.block_pos h, claimEnd, free]
  simp only [bne_self_eq_false, Bool.false_and, Bool.or_false, Bool.false_eq_true, if_false]
  refine lt_claimEnd h fun b mem => ?_
  have := ((mem_stepped e.block_pos).1 mem).1
  have := e.block_pos
  omega

lemma le_blockCeil {x} (le : x ≤ uint64Max) : x ≤ e.blockCeil x := by
  rw [blockCeil]
  split
  · exact le
  · have pos := e.block_pos
    have := Nat.lt_div_mul_add (a := x + e.blockSize - 1) pos
    omega

lemma claim_refused (size_le : e.size ≤ uint64Max) (pos : 0 < length)
    (inside : offset + length ≤ e.size) (refused : e.Refused offset length expansion)
    (settled : ∀ page, PageIn offset length page → e.bitmap page ≠ .readPending) :
    (∀ page, PageIn offset length page → e.bitmap page = .clean) ∨
    ∃ page, PageIn offset length page ∧ e.bitmap page = .missing ∧
      (∀ before < page, PageIn offset length before → e.bitmap before = .clean) ∧
      e.blockBlocked (e.pageBlock page * e.blockSize) = true := by
  have good := (rangeHasState_eq_false pos).1 refused.bad
  have wanted : min length (e.size - offset) = length := by omega
  have claim := refused.claim
  have asked : ¬ (length = 0 ∨ e.size ≤ offset ∨ e.dirty = true ∨ e.exported = true) := by
    rw [refused.committed, refused.writable]
    rintro (h | h | h | h)
    · omega
    · omega
    all_goals cases h
  rw [claimFetch, if_neg (by rw [refused.live]; exact Bool.false_ne_true), if_neg asked] at claim
  simp only [wanted] at claim
  split at claim
  · rename_i none
    left
    rcases firstMissing_none none with ⟨page, mem, state⟩ | clean
    · rw [mem_range'_iff] at mem
      have mem := (pageIn_iff pos).1 mem
      rcases state with state | state
      · exact absurd state (settled page mem)
      · exact absurd state (good page mem)
    · intro page mem
      exact clean page (mem_range'_iff.2 ((pageIn_iff pos).2 mem))
  · rename_i page found
    right
    obtain ⟨mem, missing⟩ := firstMissing_spec found
    have mem := (pageIn_iff pos).1 (mem_range'_iff.1 mem)
    refine ⟨page, mem, missing, fun before lt pageIn => ?_, ?_⟩
    · exact firstMissing_first found before ((pageIn_iff pos).2 pageIn).1 lt
    · have start : e.pageBlock page * e.blockSize ≤
          page * kCacheBitmapUnit := (e.pageBlock_bounds page).1
      have reach : offset + length ≤ e.claimLimit
          (page * kCacheBitmapUnit / e.blockSize * e.blockSize) (offset + length)
          expansion := by
        have ceil := le_blockCeil (e := e) (le_trans inside size_le)
        exact le_min inside (le_trans ceil (le_max_left _ _))
      by_contra blocked
      have free : e.blockBlocked
          (page * kCacheBitmapUnit / e.blockSize * e.blockSize) = false :=
        Bool.not_eq_true _ ▸ blocked
      generalize e.claimLimit (page * kCacheBitmapUnit / e.blockSize * e.blockSize)
        (offset + length) expansion = limit at claim reach
      have below : page * kCacheBitmapUnit / e.blockSize * e.blockSize < limit :=
        Nat.lt_of_le_of_lt start (Nat.lt_of_lt_of_le mem.2 reach)
      have gt := claimEnd_gt below free
      rw [if_neg (Nat.not_le.2 gt)] at claim
      cases (Prod.mk.inj (Except.ok.inj claim)).2

end CacheEntry

open CacheEntry

/-- The read loop waits for a range that it can neither pin nor claim, if and only if no bad page
outside the range keeps the claim from a block that has no other reason to wait for. -/
theorem refused_waits_iff {e : CacheEntry} {offset length expansion : Nat}
    (size_le : e.size ≤ uint64Max) (tiled : Tiled e.size e.checksumParts) (pos : 0 < length)
    (inside : offset + length ≤ e.size) (refused : e.Refused offset length expansion) :
    e.rangeReady offset length = false ↔ ¬ e.Poisoned offset length := by
  have free := checksumBlocked_of_free tiled refused.live refused.parts
  rw [← Bool.not_eq_true, not_iff_not, rangeReady_iff pos inside refused.live free refused.bad]
  constructor
  · rintro ⟨settled, unpinned⟩
    have count {page : Nat} (mem : PageIn offset length page) : page < e.pageCount := by
      rw [lt_pageCount]
      have := mem.2
      omega
    rcases claim_refused size_le pos inside refused
        (fun page mem => settled page (count mem) (mem.meets pos)) with
      clean | ⟨page, mem, missing, first, blocked⟩
    · -- a range of clean pages would have been pinned
      have all : e.rangeAllState offset length .clean = true :=
        (rangeAllState_iff pos).2 fun page lo hi => clean page ⟨lo, hi⟩
      have pin := refused.pin
      rw [pinClean, refused.live, if_neg Bool.false_ne_true, if_neg (Nat.ne_of_gt pos), all, free,
        if_neg (by decide)] at pin
      dsimp only at pin
      split at pin
      · cases pin
      · cases (Prod.mk.inj (Except.ok.inj pin)).2
    · refine ⟨?_, settled, unpinned⟩
      have meets := mem.meets (e := e) pos
      have inFile := meets_inside inside meets
      by_contra none
      have free : e.blockBlocked
          (e.pageBlock page * e.blockSize) = false := by
        have region : e.pageBlock page * e.blockSize / e.blockSize =
            e.pageBlock page := Nat.mul_div_cancel _ e.block_pos
        have absent (state : CachePageState) (none : ∀ other < e.pageCount,
            e.pageBlock other = e.pageBlock page →
            e.bitmap other ≠ state) : e.bitmap.anyState
              (e.blockFirstPage (e.pageBlock page * e.blockSize))
              (e.blockLastPage (e.pageBlock page * e.blockSize)) state =
              false := by
          rw [← Bool.not_eq_true, Bitmap.anyState_iff]
          rintro ⟨other, lo, hi, eq⟩
          have block := (mem_blockPages (Dvd.intro_left _ rfl) inFile).1 ⟨lo, hi⟩
          rw [region] at block
          exact none other block.1 block.2 eq
        have pins : e.regionPins (e.pageBlock page) = 0 := by
          by_contra pinned
          have clean := unpinned page (count mem) meets pinned
          rw [missing] at clean
          cases clean
        rw [blockBlocked]
        simp only [region, pins, bne_self_eq_false, Bool.and_false, Bool.false_or]
        have noPending := absent .readPending fun other lt block =>
          settled other lt (by rw [block]; exact meets)
        have noBad := absent .bad fun other lt block bad =>
          none ⟨page, other, mem, missing, first, lt, bad, block⟩
        rw [noPending, noBad]
        rfl
      rw [free] at blocked
      cases blocked
  · intro poisoned
    exact ⟨poisoned.settled, poisoned.unpinned⟩

def halfMissing (second : CachePageState) : CacheEntry :=
  { (Sys.empty twoPages 65536).entry with
    bitmap := fun page => if page = 1 then second else .missing }

lemma halfMissing_refused {second} (blocked : second = .readPending ∨ second = .bad) :
    (halfMissing second).Refused 0 32768 32768 := by
  refine ⟨rfl, rfl, rfl, nofun, rfl, rfl, ?_⟩
  rcases blocked with rfl | rfl
  all_goals rfl

theorem refused_waits_iff_pending : (halfMissing .readPending).Refused 0 32768 32768 ∧
    (halfMissing .readPending).rangeReady 0 32768 = false := by
  have refused := halfMissing_refused (.inl rfl)
  have tiled : Tiled 65536 [] := ⟨forall_mem_nil _, forall_mem_nil _, .nil⟩
  refine ⟨refused, (refused_waits_iff (by decide) tiled (by decide) (by decide) refused).2
    fun poisoned => ?_⟩
  exact poisoned.settled 1 (by decide) (by decide) rfl

theorem bad_neighbour_spins : (halfMissing .bad).Refused 0 32768 32768 ∧
    (halfMissing .bad).rangeReady 0 32768 = true :=
  ⟨halfMissing_refused (.inr rfl), rfl⟩

end Ngs3fs.Cache
