import Ngs3fs.Cache.Fetch

/-!
# Tails

The fetch functions read region by region. An active fetch owns the blocks of its unpublished tail,
and its whole range while it is verified; `ActiveFetch.Wf` makes blocks the right unit: a claim
starts on a block boundary, ends on one or at the end of the file, and is published by whole
blocks. The lemmas say which pages each function of `Fetch` moves, with no loop left. -/

namespace Ngs3fs.Cache
open Loop ActiveFetch List Nat

namespace ActiveFetch

def tailHas (blockSize : Nat) (a : ActiveFetch) (region : Nat) : Bool :=
  decide (a.offset + a.published ≤ region * blockSize) &&
    decide (region * blockSize < a.offset + a.length)

def rangeHas (blockSize : Nat) (a : ActiveFetch) (region : Nat) : Bool :=
  decide (a.offset ≤ region * blockSize) && decide (region * blockSize < a.offset + a.length)

def owns (blockSize : Nat) (a : ActiveFetch) (region : Nat) : Bool :=
  if a.verifying then a.rangeHas blockSize region else a.tailHas blockSize region

structure Wf (e : CacheEntry) (a : ActiveFetch) : Prop where
  offset_dvd : e.blockSize ∣ a.offset
  length_pos : 0 < a.length
  inside : a.offset + a.length ≤ e.size
  stop : e.blockSize ∣ a.offset + a.length ∨ a.offset + a.length = e.size
  published_le : a.published ≤ a.length
  published_dvd : a.published = a.length ∨ e.blockSize ∣ a.published
  verifying : a.verifying = true → a.retrying = true ∨ a.published = a.length
  retrying : a.retrying = true → a.verifying = true
  epoch : a.epoch = e.epoch
  id_lt : a.id < e.nextClaimId
  prior_length : a.offset / kCacheBitmapUnit + a.priorStates.length =
    min e.pageCount ((a.offset + a.length - 1) / kCacheBitmapUnit + 1)
  prior : ∀ s ∈ a.priorStates, s = .clean ∨ s = .missing

variable {b r : Nat} {a : ActiveFetch}

lemma tailHas_iff :
    a.tailHas b r = true ↔ a.offset + a.published ≤ r * b ∧ r * b < a.offset + a.length := by
  simp [tailHas]

lemma rangeHas_iff : a.rangeHas b r = true ↔ a.offset ≤ r * b ∧ r * b < a.offset + a.length := by
  simp [rangeHas]

lemma rangeHas_of_tailHas (h : a.tailHas b r = true) : a.rangeHas b r = true := by
  rw [tailHas_iff] at h
  rw [rangeHas_iff]
  omega

lemma owns_of_tailHas (h : a.tailHas b r = true) : a.owns b r = true := by
  unfold owns
  split
  · exact rangeHas_of_tailHas h
  · exact h

lemma rangeHas_of_owns (h : a.owns b r = true) : a.rangeHas b r = true := by
  unfold owns at h
  split at h
  · exact h
  · exact rangeHas_of_tailHas h

end ActiveFetch

namespace CacheEntry

variable {e : CacheEntry} {a : ActiveFetch}
variable {page : Nat}

lemma dvd_le_page_iff {x} (hx : e.blockSize ∣ x) : x ≤ page * kCacheBitmapUnit ↔
      x ≤ e.pageBlock page * e.blockSize := by
  obtain ⟨lo, hi⟩ := e.pageBlock_bounds page
  have unit : 0 < kCacheBitmapUnit := by decide
  constructor
  · intro h
    by_contra hlt
    have := add_le_of_dvd_of_lt (Dvd.intro_left _ rfl) hx (not_le.1 hlt)
    omega
  · intro h
    omega

variable {stop : Nat}

lemma page_lt_stop_iff (hs : e.blockSize ∣ stop ∨ stop = e.size) (hp : page < e.pageCount) :
    page * kCacheBitmapUnit < stop ↔
      e.pageBlock page * e.blockSize < stop := by
  obtain ⟨lo, hi⟩ := e.pageBlock_bounds page
  have unit : 0 < kCacheBitmapUnit := by decide
  rw [lt_pageCount] at hp
  constructor
  · intro h
    omega
  · intro h
    rcases hs with hs | hs
    · have := add_le_of_dvd_of_lt (Dvd.intro_left _ rfl) hs h
      omega
    · omega
variable {start : Nat}

lemma mem_rangePages (h0 : e.blockSize ∣ start) (hlt : start < stop)
    (hs : e.blockSize ∣ stop ∨ stop = e.size) :
    start / kCacheBitmapUnit ≤ page ∧
        page < min e.pageCount ((stop - 1) / kCacheBitmapUnit + 1) ↔
      page < e.pageCount ∧ start ≤ e.pageBlock page * e.blockSize ∧
        e.pageBlock page * e.blockSize < stop := by
  have unit : 0 < kCacheBitmapUnit := by decide
  have hd : kCacheBitmapUnit ∣ start := Dvd.dvd.trans e.unit_dvd h0
  have lower : start / kCacheBitmapUnit ≤ page ↔ start ≤ page * kCacheBitmapUnit := by
    rw [div_le_iff_le_mul_add_pred unit]
    obtain ⟨k, rfl⟩ := hd
    constructor
    · intro h
      have : k ≤ page := by
        by_contra hk
        have : kCacheBitmapUnit * (page + 1) ≤ kCacheBitmapUnit * k :=
          mul_le_mul_left _ (by omega)
        rw [mul_succ] at this
        omega
      rw [Nat.mul_comm page]
      exact mul_le_mul_left _ this
    · intro h
      rw [Nat.mul_comm page] at h
      omega
  have upper : page < (stop - 1) / kCacheBitmapUnit + 1 ↔ page * kCacheBitmapUnit < stop := by
    rw [Nat.lt_succ_iff, le_div_iff_mul_le unit]
    omega
  rw [lt_min_iff, lower, upper, dvd_le_page_iff h0]
  constructor
  · rintro ⟨h1, h2, h3⟩
    exact ⟨h2, h1, (page_lt_stop_iff hs h2).1 h3⟩
  · rintro ⟨h1, h2, h3⟩
    exact ⟨h2, h1, (page_lt_stop_iff hs h1).2 h3⟩

lemma ceilPage_eq {x} (hx : e.blockSize ∣ x) :
    (x + kCacheBitmapUnit - 1) / kCacheBitmapUnit = x / kCacheBitmapUnit := by
  have unit : 0 < kCacheBitmapUnit := by decide
  obtain ⟨k, rfl⟩ := Dvd.dvd.trans e.unit_dvd hx
  rw [Nat.mul_div_cancel_left _ unit]
  refine Nat.div_eq_of_lt_le ?_ ?_
  · rw [Nat.mul_comm]
    omega
  · rw [succ_mul, Nat.mul_comm]
    omega

lemma mem_fetchPages (wf : a.Wf e) : a.offset / kCacheBitmapUnit ≤ page ∧
        page < min e.pageCount ((a.offset + a.length - 1) / kCacheBitmapUnit + 1) ↔
      page < e.pageCount ∧
        a.rangeHas e.blockSize (e.pageBlock page) = true := by
  rw [mem_rangePages wf.offset_dvd (by have := wf.length_pos; omega) wf.stop,
    rangeHas_iff]

lemma mem_tailPages (wf : a.Wf e) :
    a.offset / kCacheBitmapUnit + (a.published + kCacheBitmapUnit - 1) / kCacheBitmapUnit ≤ page ∧
        page < min e.pageCount ((a.offset + a.length - 1) / kCacheBitmapUnit + 1) ↔
      page < e.pageCount ∧
        a.tailHas e.blockSize (e.pageBlock page) = true := by
  have unit : 0 < kCacheBitmapUnit := by decide
  have pos := wf.length_pos
  have hd : kCacheBitmapUnit ∣ a.offset := Dvd.dvd.trans e.unit_dvd wf.offset_dvd
  rw [tailHas_iff]
  rcases eq_or_lt_of_le wf.published_le with full | part
  · -- all pages are published, and the loop starts past its end
    have stop : (a.offset + a.length - 1) / kCacheBitmapUnit + 1 =
        a.offset / kCacheBitmapUnit + (a.length + kCacheBitmapUnit - 1) / kCacheBitmapUnit := by
      rw [show a.offset + a.length - 1 = a.offset + (a.length - 1) by omega,
        Nat.add_div_of_dvd_right hd,
        show a.length + kCacheBitmapUnit - 1 = a.length - 1 + kCacheBitmapUnit by omega,
        add_div_right _ unit]
      omega
    rw [stop, full, lt_min_iff]
    omega
  · have hp : e.blockSize ∣ a.published := by
      rcases wf.published_dvd with full | hp
      · omega
      · exact hp
    rw [ceilPage_eq hp, ← Nat.add_div_of_dvd_right hd,
      mem_rangePages (Dvd.dvd.add wf.offset_dvd hp) (by omega) wf.stop]

lemma mem_tailBlocks (wf : a.Wf e) {block} :
    block ∈ e.tailBlocks a ↔ e.blockSize ∣ block ∧
      a.offset + a.published ≤ block ∧ block < a.offset + a.length := by
  rw [tailBlocks, mem_stepped e.block_pos]
  rcases wf.published_dvd with full | hd
  · omega
  · have hs : e.blockSize ∣ a.offset + a.published := Dvd.dvd.add wf.offset_dvd hd
    constructor
    · rintro ⟨h1, h2, h3⟩
      refine ⟨?_, h1, h2⟩
      rw [show block = block - (a.offset + a.published) + (a.offset + a.published) by omega]
      exact Dvd.dvd.add h3 hs
    · rintro ⟨h1, h2, h3⟩
      exact ⟨h2, h3, dvd_sub h1 hs⟩

variable {r : Nat}

lemma mul_mem_tailBlocks (wf : a.Wf e) :
    r * e.blockSize ∈ e.tailBlocks a ↔ a.tailHas e.blockSize r = true := by
  rw [mem_tailBlocks wf, tailHas_iff]
  simp

lemma replacePending_apply {blocks} (bitmap : Bitmap) {new}
    (h : ∀ b ∈ blocks, e.blockSize ∣ b ∧ b < e.size) (page : Nat) :
    e.replacePending blocks bitmap new page =
      if page < e.pageCount ∧
          e.pageBlock page * e.blockSize ∈ blocks ∧
          bitmap page = .readPending
      then new else bitmap page := by
  induction blocks generalizing bitmap with
  | nil => simp [replacePending]
  | cons block blocks ih =>
    obtain ⟨hd, hlt⟩ := h block mem_cons_self
    have here : e.blockFirstPage block ≤ page ∧ page < e.blockLastPage block ↔
        page < e.pageCount ∧
          e.pageBlock page * e.blockSize = block := by
      rw [mem_blockPages hd hlt]
      constructor
      · rintro ⟨h1, h2⟩
        exact ⟨h1, by rw [h2, Nat.div_mul_cancel hd]⟩
      · rintro ⟨h1, h2⟩
        exact ⟨h1, by rw [← h2, Nat.mul_div_cancel _ e.block_pos]⟩
    have step :=
      ih (bitmap.replace (e.blockFirstPage block) (e.blockLastPage block) .readPending new)
      (fun b hb => h b (mem_cons_of_mem _ hb))
    rw [replacePending, foldl_cons, ← replacePending, step, Bitmap.replace_apply]
    simp only [here, mem_cons]
    by_cases hp : bitmap page = .readPending
    · by_cases hb : e.pageBlock page * e.blockSize = block
      · by_cases hc : page < e.pageCount
        · simp [hp, hb, hc]
        · simp [hc]
      · simp [hp, hb]
    · by_cases hb : page < e.pageCount ∧
          e.pageBlock page * e.blockSize = block
      all_goals simp [hp, hb]

def mapRegions (e : CacheEntry) (P : Nat → Bool)
    (f : Nat → CachePageState → CachePageState) : Bitmap := fun page =>
  if page < e.pageCount ∧ P (e.pageBlock page) = true then f page (e.bitmap page)
  else e.bitmap page

def settle (new : CachePageState) (_ : Nat) (s : CachePageState) : CachePageState :=
  if s = .readPending then new else s

lemma fill_eq {first last P state} (h : ∀ page, first ≤ page ∧ page < last ↔
      page < e.pageCount ∧ P (e.pageBlock page) = true) :
    e.bitmap.fill first last state = e.mapRegions P (fun _ _ => state) := by
  funext page
  rw [Bitmap.fill_apply, mapRegions]
  simp only [h]

lemma replacePending_eq {blocks P new} (h : ∀ b ∈ blocks, e.blockSize ∣ b ∧ b < e.size)
    (hP : ∀ r, r * e.blockSize ∈ blocks ↔ P r = true) :
    e.replacePending blocks e.bitmap new = e.mapRegions P (settle new) := by
  funext page
  rw [replacePending_apply _ h, mapRegions]
  simp only [hP, settle]
  by_cases hp : e.bitmap page = .readPending
  all_goals simp [hp]

/-- The blocks up to `q` published bytes, of which `length` arrived, and the last boundary they
record. -/
structure PublishedTo (e : CacheEntry) (a : ActiveFetch) (length start : Nat) (blocks : List Nat)
    (q : Nat) : Prop where
  start_le : start ≤ a.offset + q
  le_length : q ≤ a.length
  dvd : q = a.length ∨ e.blockSize ∣ q
  reached : a.offset + q = start ∨ q ≤ length
  mem : ∀ b, b ∈ blocks ↔ e.blockSize ∣ b ∧ start ≤ b ∧ b < a.offset + q
  last : blocks.foldl (fun _ b => e.blockEnd b - a.offset) (start - a.offset) = q

namespace PublishedTo

variable {length start q : Nat} {blocks : List Nat}

lemma nil (wf : a.Wf e) (hs : e.blockSize ∣ start) (lo : a.offset ≤ start)
    (hi : start ≤ a.offset + a.length) : PublishedTo e a length start [] (start - a.offset) where
  start_le := by omega
  le_length := by omega
  dvd := .inr (dvd_sub hs wf.offset_dvd)
  reached := .inl (by omega)
  mem := by
    intro b
    simp only [not_mem_nil, false_iff]
    omega
  last := rfl

lemma cons (hs : e.blockSize ∣ start) (lo : a.offset ≤ start)
    (stop : e.blockEnd start = start + e.blockSize)
    (reached : start + e.blockSize ≤ a.offset + length)
    (h : PublishedTo e a length (start + e.blockSize) blocks q) :
    PublishedTo e a length start (start :: blocks) q where
  start_le := by have := h.start_le; omega
  le_length := h.le_length
  dvd := h.dvd
  reached := by have := h.reached; omega
  mem := by
    intro b
    have := e.block_pos
    have := h.start_le
    rw [mem_cons, h.mem]
    constructor
    · rintro (rfl | ⟨k1, k2, k3⟩)
      · exact ⟨hs, le_refl _, by omega⟩
      · exact ⟨k1, by omega, k3⟩
    · rintro ⟨k1, k2, k3⟩
      rcases eq_or_lt_of_le k2 with rfl | k2
      · exact .inl rfl
      · exact .inr ⟨k1, add_le_of_dvd_of_lt hs k1 k2, k3⟩
  last := by
    rw [foldl_cons, stop]
    exact h.last

lemma last_block (hs : e.blockSize ∣ start) (lo : a.offset ≤ start)
    (hlt : start < a.offset + a.length) (short : a.offset + a.length < start + e.blockSize)
    (stop : e.blockEnd start = a.offset + a.length) (reached : a.length ≤ length) :
    PublishedTo e a length start [start] a.length where
  start_le := by omega
  le_length := le_refl _
  dvd := .inl rfl
  reached := .inr reached
  mem := by
    intro b
    rw [mem_singleton]
    constructor
    · rintro rfl
      exact ⟨hs, le_refl _, hlt⟩
    · rintro ⟨k1, k2, k3⟩
      rcases eq_or_lt_of_le k2 with rfl | k2
      · rfl
      · have := add_le_of_dvd_of_lt hs k1 k2
        omega
  last := by
    rw [foldl_cons, foldl_nil, stop]
    omega

end PublishedTo

lemma takeWhile_publishes (wf : a.Wf e) (length : Nat) (final : Bool)
    (hs : e.blockSize ∣ start) (lo : a.offset ≤ start) (hi : start ≤ a.offset + a.length) :
    ∃ q, PublishedTo e a length start ((stepped start (a.offset + a.length)
      e.blockSize).takeWhile (e.publishes (a.offset + min length a.length) final)) q ∧
      (final = true → a.length ≤ length → q = a.length) := by
  have hb := e.block_pos
  -- induction on the bytes that are left
  induction n : a.offset + a.length - start using Nat.strong_induction_on generalizing start with
  | _ n ih =>
    by_cases hlt : start < a.offset + a.length
    · rw [stepped_of_lt hb hlt]
      by_cases ok : e.publishes (a.offset + min length a.length) final start = true
      · have reached : e.blockEnd start ≤ a.offset + min length a.length := by
          simp only [publishes, Bool.and_eq_true, decide_eq_true_eq] at ok
          exact ok.1
        have inside := wf.inside
        rw [takeWhile_cons_of_pos ok]
        by_cases whole : start + e.blockSize ≤ a.offset + a.length
        · have stop : e.blockEnd start = start + e.blockSize := by
            rw [blockEnd]
            omega
          obtain ⟨q, hq, all⟩ := ih (a.offset + a.length - (start + e.blockSize)) (by omega)
            (Dvd.dvd.add hs (dvd_refl _)) (by omega) whole rfl
          exact ⟨q, .cons hs lo stop (by omega) hq, all⟩
        · have atEnd : a.offset + a.length = e.size := by
            rcases wf.stop with hd | hd
            · exact absurd (add_le_of_dvd_of_lt hs hd hlt) whole
            · exact hd
          have stop : e.blockEnd start = a.offset + a.length := by
            rw [blockEnd]
            omega
          rw [stepped_of_le (by omega), takeWhile_nil]
          exact ⟨_, .last_block hs lo hlt (by omega) stop (by omega), fun _ _ => rfl⟩
      · rw [takeWhile_cons_of_neg ok]
        refine ⟨_, .nil wf hs lo hi, ?_⟩
        intro hfinal hall
        refine absurd ?_ ok
        have stop : e.blockEnd start ≤ a.offset + a.length := by
          rw [blockEnd]
          rcases wf.stop with hd | hd
          · have := add_le_of_dvd_of_lt hs hd hlt
            omega
          · omega
        simp only [publishes, hfinal, Bool.not_true, Bool.and_false, Bool.not_false, Bool.and_true,
          decide_eq_true_eq]
        omega
    · rw [stepped_of_le (by omega), takeWhile_nil]
      exact ⟨_, .nil wf hs lo hi, fun _ _ => by omega⟩

def newlyPublished (e : CacheEntry) (a : ActiveFetch) (q region : Nat) : Bool :=
  a.tailHas e.blockSize region &&
    !({ a with published := q }).tailHas e.blockSize region

lemma publishedBlocks_spec (wf : a.Wf e) (length : Nat) (final : Bool) :
    ∃ q, a.published ≤ q ∧ q ≤ a.length ∧ (q = a.length ∨ e.blockSize ∣ q) ∧
      (q = a.published ∨ q ≤ length) ∧ (final = true → a.length ≤ length → q = a.length) ∧
      (e.publishedBlocks a length final).foldl (fun _ b => e.blockEnd b - a.offset) a.published =
      q ∧
      e.replacePending (e.publishedBlocks a length final) e.bitmap .clean =
        e.mapRegions (e.newlyPublished a q) (settle .clean) := by
  have inside := wf.inside
  rcases wf.published_dvd with full | hd
  · -- nothing is left to publish
    have none : e.publishedBlocks a length final = [] := by
      rw [publishedBlocks, tailBlocks, stepped_of_le (by omega), takeWhile_nil]
    refine ⟨a.published, le_refl _, wf.published_le, wf.published_dvd, .inl rfl, fun _ _ => full,
      by rw [none]; rfl, ?_⟩
    rw [none]
    refine replacePending_eq (by simp) ?_
    intro r
    simp [newlyPublished]
  · have hs : e.blockSize ∣ a.offset + a.published := Dvd.dvd.add wf.offset_dvd hd
    obtain ⟨q, hq, all⟩ := takeWhile_publishes wf length final hs (by omega)
      (by have := wf.published_le; omega)
    have lo := hq.start_le
    refine ⟨q, by omega, hq.le_length, hq.dvd, by have := hq.reached; omega, all, ?_, ?_⟩
    · have last := hq.last
      rwa [show a.offset + a.published - a.offset = a.published by omega] at last
    · have hl := hq.le_length
      refine replacePending_eq ?_ ?_
      · intro b hb
        rw [publishedBlocks, tailBlocks, hq.mem] at hb
        exact ⟨hb.1, by omega⟩
      · intro r
        rw [publishedBlocks, tailBlocks, hq.mem, newlyPublished]
        simp only [tailHas, Bool.and_eq_true, decide_eq_true_eq, Bool.not_eq_true',
          Bool.and_eq_false_iff, decide_eq_false_iff_not, dvd_mul_left, true_and]
        omega

variable {claim : CacheFetchClaim}

lemma findFetch_fields (h : e.findFetch claim = some a) :
    a ∈ e.activeClaims ∧ a.id = claim.id ∧ a.epoch = claim.epoch ∧ a.offset = claim.offset ∧
      a.length = claim.length := by
  have hp := find?_some h
  simp only [isFor, Bool.and_eq_true, beq_iff_eq] at hp
  exact ⟨mem_of_find?_eq_some h, hp.1.1.1, hp.1.1.2, hp.1.2, hp.2⟩

lemma publishClean_eq (wf : a.Wf e) (h : e.findFetch claim = some a) (published length : Nat)
    (final : Bool) :
    ∃ q tokens, a.published ≤ q ∧ q ≤ a.length ∧ (q = a.length ∨ e.blockSize ∣ q) ∧
      (q = a.published ∨ q ≤ length) ∧
      (e.stale = false → published ≤ length → final = true → a.length ≤ length → q = a.length) ∧
      e.publishClean claim published length final =
        { e with
          bitmap := e.mapRegions (e.newlyPublished a q) (settle .clean)
          activeClaims := modifyFirst (isFor claim)
            (fun a => { a with published := q }) e.activeClaims
          waitTokens := tokens } := by
  simp only [publishClean, h]
  split
  · rename_i refused
    refine ⟨a.published, e.waitTokens, le_refl _, wf.published_le, wf.published_dvd,
      .inl rfl, ?_, ?_⟩
    · intro live le hfinal
      have short : ¬ length < published := by omega
      simp [live, hfinal, short] at refused
    have same : e.mapRegions (e.newlyPublished a a.published) (settle .clean) = e.bitmap := by
      funext page
      simp [mapRegions, newlyPublished]
    rw [same, modifyFirst_eq_self]
    intro b hb
    rw [findFetch] at h
    rw [Option.some.inj (hb.symm.trans h)]
  · obtain ⟨q, h1, h2, h3, h4, all, h5, h6⟩ := publishedBlocks_spec wf length final
    rw [h5, h6]
    exact ⟨q,
      (notifyWaitersIf ((e.publishedBlocks a length final).any e.blockPending) e).waitTokens,
      h1, h2, h3, h4, fun _ _ => all, rfl⟩

lemma publishClean_of_none (h : e.findFetch claim = none) (published length : Nat) (final : Bool) :
    e.publishClean claim published length final = e := by
  simp only [publishClean, h]

def releasePins (e : CacheEntry) (a : ActiveFetch) : CacheEntry :=
  if a.verifying then
    e.unpinRegions (a.offset / e.blockSize)
      ((a.offset + a.length - 1) / e.blockSize + 1)
  else e

lemma endFetch_eq (h : e.findFetch claim = some a) (bitmap : Bitmap) :
    endFetch { e with bitmap } claim =
      { e with
        bitmap
        regionPins := (e.releasePins a).regionPins
        pinnedRegions := (e.releasePins a).pinnedRegions
        activeClaims := e.activeClaims.eraseP (isFor claim) } := by
  obtain ⟨-, -, -, ho, hl⟩ := findFetch_fields h
  have same : findFetch { e with bitmap } claim = some a := h
  simp only [endFetch, same, releasePins, ho, hl]
  cases a.verifying <;> rfl

lemma finishFetch_eq (wf : a.Wf e) (h : e.findFetch claim = some a) :
    ∃ tokens, (e.finishFetch claim).1 =
        { e with
          bitmap := e.mapRegions (a.tailHas e.blockSize) (settle .missing)
          regionPins := (e.releasePins a).regionPins
          pinnedRegions := (e.releasePins a).pinnedRegions
          activeClaims := e.activeClaims.eraseP (isFor claim)
          waitTokens := tokens } ∧
      ∀ op ∈ (e.finishFetch claim).2, ∃ r, a.tailHas e.blockSize r = true ∧
        e.blockPending (r * e.blockSize) = true ∧
        op = .punch (r * e.blockSize) e.blockSize := by
  have settled : e.replacePending (e.tailBlocks a) e.bitmap .missing =
      e.mapRegions (a.tailHas e.blockSize) (settle .missing) := by
    refine replacePending_eq ?_ (fun r => mul_mem_tailBlocks wf)
    intro b hb
    rw [mem_tailBlocks wf] at hb
    have := wf.inside
    exact ⟨hb.1, by omega⟩
  simp only [finishFetch, h]
  refine ⟨e.waitTokens + e.waiters, ?_, ?_⟩
  · rw [endFetch_eq h, settled]
    rfl
  · intro op hop
    simp only [mem_map, mem_filter] at hop
    obtain ⟨block, ⟨hb, hp⟩, rfl⟩ := hop
    rw [mem_tailBlocks wf] at hb
    have start := Nat.div_mul_cancel hb.1
    refine ⟨block / e.blockSize, ?_, by rwa [start], by rw [start]⟩
    rw [tailHas_iff, start]
    exact hb.2

lemma finishFetch_of_none (h : e.findFetch claim = none) :
    e.finishFetch claim = (e.notifyWaiters, []) := by
  simp only [finishFetch, h]

def priorState (a : ActiveFetch) (page : Nat) (_ : CachePageState) : CachePageState :=
  a.priorStates.getD (page - a.offset / kCacheBitmapUnit) .missing

lemma rollbackFetch_eq (wf : a.Wf e) (h : e.findFetch claim = some a) :
    ∃ tokens, e.rollbackFetch claim =
      { e with
        bitmap := e.mapRegions (a.tailHas e.blockSize) (priorState a)
        regionPins := (e.releasePins a).regionPins
        pinnedRegions := (e.releasePins a).pinnedRegions
        activeClaims := e.activeClaims.eraseP (isFor claim)
        waitTokens := tokens } := by
  obtain ⟨-, -, -, ho, hl⟩ := findFetch_fields h
  have first : e.blockFirstPage claim.offset = a.offset / kCacheBitmapUnit := by
    rw [blockFirstPage, ← ho, Nat.div_mul_cancel wf.offset_dvd]
  have restored : (forRange ((a.published + kCacheBitmapUnit - 1) / kCacheBitmapUnit)
      a.priorStates.length e.bitmap fun bitmap i =>
        bitmap.set (a.offset / kCacheBitmapUnit + i) (a.priorStates.getD i .missing)) =
      e.mapRegions (a.tailHas e.blockSize) (priorState a) := by
    funext page
    have shifted := forRange_shift (a.offset / kCacheBitmapUnit)
      ((a.published + kCacheBitmapUnit - 1) / kCacheBitmapUnit) a.priorStates.length e.bitmap
      fun bitmap page => bitmap.set page (priorState a page (bitmap page))
    simp only [priorState, Nat.add_sub_cancel_left] at shifted
    rw [shifted, wf.prior_length, mapRegions]
    simp only [← mem_tailPages wf]
    exact forRange_update _ _ e.bitmap (priorState a) page
  refine ⟨e.waitTokens + e.waiters, ?_⟩
  simp only [rollbackFetch, h, first]
  rw [endFetch_eq h, restored]
  rfl

lemma rollbackFetch_of_none (h : e.findFetch claim = none) : e.rollbackFetch claim = e := by
  simp only [rollbackFetch, h]

lemma markBad_eq (wf : a.Wf e) (h : e.findFetch claim = some a) (live : e.stale = false) :
    ∃ tokens, e.markBad claim =
      { e with
        bitmap := e.mapRegions (a.owns e.blockSize) (fun _ _ => .bad)
        waitTokens := tokens } := by
  obtain ⟨-, -, -, ho, hl⟩ := findFetch_fields h
  refine ⟨e.waitTokens + e.waiters, ?_⟩
  simp only [markBad, h, live, Bool.false_eq_true, if_false, claimEndPage, ← ho, ← hl]
  have condemned : e.bitmap.fill (a.offset / kCacheBitmapUnit + if a.verifying = true then 0 else
      (a.published + kCacheBitmapUnit - 1) / kCacheBitmapUnit)
      (min e.pageCount ((a.offset + a.length - 1) / kCacheBitmapUnit + 1)) .bad =
      e.mapRegions (a.owns e.blockSize) (fun _ _ => .bad) := by
    refine fill_eq ?_
    intro page
    unfold owns
    split
    · exact mem_fetchPages wf
    · exact mem_tailPages wf
  rw [condemned]
  rfl

lemma markBad_of_none (h : e.findFetch claim = none ∨ e.stale = true) :
    e.markBad claim = e.notifyWaiters := by
  cases hf : e.findFetch claim with
  | none => simp only [markBad, hf]
  | some a =>
    have hs : e.stale = true := by simpa [hf] using h
    simp only [markBad, hf, hs, if_true]

def retried (e : CacheEntry) (claim : CacheFetchClaim) (a : ActiveFetch)
    (tokens : Nat) : CacheEntry :=
  { e with
    bitmap := e.mapRegions (a.rangeHas e.blockSize) (fun _ _ => .readPending)
    activeClaims := modifyFirst (isFor claim)
      (fun a => { a with published := 0, retrying := true }) e.activeClaims
    waitTokens := tokens }

lemma beginRetry_first (wf : a.Wf e) (h : e.findFetch claim = some a) (live : e.stale = false)
    (hv : a.verifying = true) (hr : a.retrying = false) :
    ∃ tokens, e.beginRetry claim = .ok (e.retried claim a tokens,
      (e.retried claim a tokens).retryPinsReady claim.offset claim.length) := by
  obtain ⟨-, -, -, ho, hl⟩ := findFetch_fields h
  have taken : e.bitmap.fill (claim.offset / kCacheBitmapUnit)
    (e.claimEndPage (claim.offset + claim.length)) .readPending =
      e.mapRegions (a.rangeHas e.blockSize) (fun _ _ => .readPending) := by
    refine fill_eq ?_
    intro page
    rw [claimEndPage, ← ho, ← hl]
    exact mem_fetchPages wf
  refine ⟨e.waitTokens + e.waiters, ?_⟩
  simp only [beginRetry, h, live, hv, hr, Bool.false_eq_true, if_false, Bool.not_true, taken]
  rfl

lemma beginRetry_again (h : e.findFetch claim = some a) (live : e.stale = false)
    (hv : a.verifying = true) (hr : a.retrying = true) :
    e.beginRetry claim = .ok (e, e.retryPinsReady claim.offset claim.length) := by
  simp only [beginRetry, h, live, hv, hr, Bool.false_eq_true, if_false, if_true, Bool.not_true]

lemma firstMissing_spec {bitmap pages}
    (h : firstMissing bitmap pages = some page) : page ∈ pages ∧ bitmap page = .missing := by
  induction pages with
  | nil => cases h
  | cons p pages ih =>
    rw [firstMissing] at h
    split at h
    · exact ⟨mem_cons_of_mem _ (ih h).1, (ih h).2⟩
    · cases h
      exact ⟨mem_cons_self, ‹_›⟩
    · cases h

lemma blockCeil_dvd (x : Nat) : e.blockSize ∣ e.blockCeil x ∨ e.blockCeil x = uint64Max := by
  unfold blockCeil
  split
  · exact .inr rfl
  · exact .inl (Dvd.intro_left _ rfl)

lemma claimLimit_dvd (hsize : e.size ≤ uint64Max) (start requestEnd expansion : Nat) :
    e.blockSize ∣ e.claimLimit start requestEnd expansion ∨
      e.claimLimit start requestEnd expansion = e.size := by
  unfold claimLimit
  simp only
  rcases min_choice e.size (max (e.blockCeil requestEnd) (e.blockCeil
    (if start > uint64Max - max expansion e.blockSize then uint64Max
      else start + max expansion e.blockSize))) with h | h
  · exact .inr h
  · rw [h]
    rcases max_choice (e.blockCeil requestEnd) (e.blockCeil
      (if start > uint64Max - max expansion e.blockSize then uint64Max
        else start + max expansion e.blockSize)) with k | k
    all_goals
      rw [k] at h ⊢
      rcases blockCeil_dvd (e := e) _ with d | d
      · exact .inl d
      · refine .inr ?_
        rw [d] at h ⊢
        omega

lemma claimEnd_spec (start limit : Nat) {s : Nat} (hs : e.blockSize ∣ s) :
    let stop := e.claimEnd start (stepped s limit e.blockSize) limit
    stop ≤ limit ∧ (e.blockSize ∣ stop ∨ stop = limit) ∧
      ∀ b, e.blockSize ∣ b → s ≤ b → b < stop →
        e.blockBlocked b = false ∧ (b = start ∨ e.blockAllClean b = false) := by
  induction n : limit - s using Nat.strong_induction_on generalizing s with
  | _ n ih =>
    by_cases hlt : s < limit
    · rw [stepped_of_lt e.block_pos hlt, claimEnd]
      split
      · exact ⟨by omega, .inl hs, fun b _ h1 h2 => absurd h2 (by omega)⟩
      · have free : e.blockBlocked s = false ∧ (s = start ∨ e.blockAllClean s = false) := by
          rename_i hc
          simpa [or_iff_not_imp_left] using hc
        have hb := e.block_pos
        obtain ⟨h1, h2, h3⟩ := ih (limit - (s + e.blockSize)) (by omega)
          (Dvd.dvd.add hs (dvd_refl _)) rfl
        refine ⟨h1, h2, ?_⟩
        intro b hd hsb hlt
        rcases eq_or_lt_of_le hsb with rfl | hsb
        · exact free
        · exact h3 b hd (add_le_of_dvd_of_lt hs hd hsb) hlt
    · rw [stepped_of_le (by omega), claimEnd]
      exact ⟨le_refl _, .inr rfl, fun b _ h1 h2 => absurd h2 (by omega)⟩

lemma blockBlocked_eq_false (inside : r * e.blockSize < e.size)
    (h : e.blockBlocked (r * e.blockSize) = false) :
    e.regionPins r = 0 ∧ ∀ page < e.pageCount, e.pageBlock page = r →
      e.bitmap page = .clean ∨ e.bitmap page = .missing := by
  have region : r * e.blockSize / e.blockSize = r :=
    Nat.mul_div_cancel _ e.block_pos
  simp only [blockBlocked, region, Bool.or_eq_false_iff, Bool.and_eq_false_iff,
    decide_eq_false_iff_not] at h
  obtain ⟨⟨pinned, pending⟩, bad⟩ := h
  refine ⟨?_, ?_⟩
  · rcases pinned with k | k
    · exact absurd (lt_regionCount.2 inside) k
    · simpa using k
  · intro page hp hr
    have mem := (mem_blockPages (Dvd.intro_left r rfl) inside).2 ⟨hp, by rw [hr, region]⟩
    have notPending : e.bitmap page ≠ .readPending := fun hs =>
      absurd (Bitmap.anyState_iff.2 ⟨page, mem.1, mem.2, hs⟩) (by simp [pending])
    have notBad : e.bitmap page ≠ .bad := fun hs =>
      absurd (Bitmap.anyState_iff.2 ⟨page, mem.1, mem.2, hs⟩) (by simp [bad])
    cases hs : e.bitmap page <;> simp_all

lemma blockAllClean_eq_false (inside : r * e.blockSize < e.size)
    (h : e.blockAllClean (r * e.blockSize) = false) :
    ∃ page < e.pageCount, e.pageBlock page = r ∧ e.bitmap page ≠ .clean := by
  rw [blockAllClean, ← Bool.not_eq_true, Bitmap.allState_iff] at h
  push Not at h
  obtain ⟨page, h1, h2, h3⟩ := h
  have mem := (mem_blockPages (Dvd.intro_left r rfl) inside).1 ⟨h1, h2⟩
  rw [Nat.mul_div_cancel _ e.block_pos] at mem
  exact ⟨page, mem.1, mem.2, h3⟩

structure Claimed (e e' : CacheEntry) (a : ActiveFetch) : Prop where
  live : e.stale = false
  readable : e.dirty = false ∧ e.exported = false
  fresh : a.published = 0 ∧ a.verifying = false ∧ a.retrying = false
  id_ge : e.nextClaimId ≤ a.id
  wf : a.Wf e'
  eq : e' = { e with
    bitmap := e.mapRegions (a.rangeHas e.blockSize) (fun _ _ => .readPending)
    activeClaims := e.activeClaims ++ [a]
    nextClaimId := a.id + 1 }
  free : ∀ r, a.rangeHas e.blockSize r = true → e.regionPins r = 0
  pages : ∀ page < e.pageCount,
    a.rangeHas e.blockSize (e.pageBlock page) = true →
      e.bitmap page = .clean ∨ e.bitmap page = .missing
  hole : ∀ r, a.rangeHas e.blockSize r = true →
    ∃ page < e.pageCount, e.pageBlock page = r ∧ e.bitmap page = .missing
  prior : ∀ page < e.pageCount,
    a.rangeHas e.blockSize (e.pageBlock page) = true →
      ∀ s, priorState a page s = e.bitmap page

lemma claimed_newFetch (live : e.stale = false) (readable : e.dirty = false ∧ e.exported = false)
    (hd : e.blockSize ∣ start) (hlt : start < stop) (hle : stop ≤ e.size)
    (hs : e.blockSize ∣ stop ∨ stop = e.size)
    (free : ∀ r, start ≤ r * e.blockSize → r * e.blockSize < stop →
      e.blockBlocked (r * e.blockSize) = false ∧ ∃ page < e.pageCount, e.pageBlock page = r ∧
      e.bitmap page ≠ .clean) :
    Claimed e { e with
      bitmap := e.bitmap.fill (e.blockFirstPage start) (e.claimEndPage stop) .readPending
      activeClaims := e.activeClaims ++ [e.newFetch start stop]
      nextClaimId := (e.newFetch start stop).id + 1 } (e.newFetch start stop) := by
  have stop_eq : start + (stop - start) = stop := by omega
  have first : e.blockFirstPage start = start / kCacheBitmapUnit := by
    rw [blockFirstPage, Nat.div_mul_cancel hd]
  have range {r : Nat} : (e.newFetch start stop).rangeHas e.blockSize r = true ↔
      start ≤ r * e.blockSize ∧ r * e.blockSize < stop := by
    rw [rangeHas_iff, newFetch, stop_eq]
  have pages {page : Nat} : e.blockFirstPage start ≤ page ∧ page < e.claimEndPage stop ↔
      page < e.pageCount ∧
        (e.newFetch start stop).rangeHas e.blockSize
          (e.pageBlock page) = true := by
    rw [first, claimEndPage, mem_rangePages hd hlt hs, range]
  have nonempty : e.blockFirstPage start ≤ e.claimEndPage stop := by
    have count : start / kCacheBitmapUnit < e.pageCount :=
      lt_pageCount.2 (lt_of_le_of_lt (div_mul_le_self _ _) (by omega))
    have last : start / kCacheBitmapUnit ≤ (stop - 1) / kCacheBitmapUnit :=
      Nat.div_le_div_right (by omega)
    rw [first, claimEndPage]
    omega
  refine ⟨live, readable, ⟨rfl, rfl, rfl⟩, ?_, ?_, ?_, ?_, ?_, ?_, ?_⟩
  · change e.nextClaimId ≤ if e.nextClaimId = 0 then 1 else e.nextClaimId
    split <;> omega
  · refine ⟨hd, Nat.sub_pos_of_lt hlt, by rwa [newFetch, stop_eq], by rwa [newFetch, stop_eq],
      Nat.zero_le _, .inr (dvd_zero _), Bool.noConfusion, Bool.noConfusion, rfl,
        lt_succ_self _, ?_, ?_⟩
    · change start / kCacheBitmapUnit + _ =
        min e.pageCount ((start + (stop - start) - 1) / kCacheBitmapUnit + 1)
      rw [newFetch, length_map, length_range', ← first, stop_eq, ← claimEndPage]
      omega
    · intro s hs
      rw [newFetch, mem_map] at hs
      obtain ⟨page, hm, rfl⟩ := hs
      obtain ⟨hp, hr⟩ := pages.1 (mem_range'_iff.1 hm)
      obtain ⟨h1, h2⟩ := range.1 hr
      exact (blockBlocked_eq_false (by omega) (free _ h1 h2).1).2 page hp rfl
  · rw [fill_eq (fun page => pages)]
  · intro r hr
    obtain ⟨h1, h2⟩ := range.1 hr
    exact (blockBlocked_eq_false (by omega) (free r h1 h2).1).1
  · intro page hp hr
    obtain ⟨h1, h2⟩ := range.1 hr
    exact (blockBlocked_eq_false (by omega) (free _ h1 h2).1).2 page hp rfl
  · intro r hr
    obtain ⟨h1, h2⟩ := range.1 hr
    obtain ⟨blocked, page, hp, hb, hc⟩ := free r h1 h2
    rcases (blockBlocked_eq_false (by omega) blocked).2 page hp hb with k | k
    · exact absurd k hc
    · exact ⟨page, hp, hb, k⟩
  · intro page hp hr s
    obtain ⟨h1, h2⟩ := pages.2 ⟨hp, hr⟩
    rw [priorState, newFetch, ← first, getD_eq_getElem?_getD, getElem?_map,
      getElem?_range' (by omega), one_mul, Nat.add_sub_cancel' h1]
    rfl

lemma claimFetch_some (hsize : e.size ≤ uint64Max) {e'} {wantedOffset wantedLength expansion}
    (h : e.claimFetch wantedOffset wantedLength expansion = .ok (e', some claim)) :
    ∃ a, a.claim = claim ∧ Claimed e e' a := by
  have unit : 0 < kCacheBitmapUnit := by decide
  unfold claimFetch at h
  split at h
  · cases h
  split at h
  · cases h
  rename_i live wanted
  simp only [not_or, Bool.not_eq_true] at live wanted
  simp only at h
  split at h
  · cases h
  rename_i missing found
  split at h
  · cases h
  rename_i taken
  obtain ⟨rfl, claimed⟩ := Prod.mk.inj (Except.ok.inj h)
  refine ⟨_, Option.some.inj claimed, ?_⟩
  obtain ⟨mem, hole⟩ := firstMissing_spec found
  have inFile : missing * kCacheBitmapUnit < e.size := by
    rw [mem_range'_iff, Nat.lt_succ_iff, le_div_iff_mul_le unit] at mem
    omega
  have hd : e.blockSize ∣ missing * kCacheBitmapUnit / e.blockSize *
      e.blockSize := Dvd.intro_left _ rfl
  obtain ⟨hle, hstop, hfree⟩ := claimEnd_spec (e := e)
    (missing * kCacheBitmapUnit / e.blockSize * e.blockSize)
    (e.claimLimit (missing * kCacheBitmapUnit / e.blockSize * e.blockSize)
      (wantedOffset + min wantedLength (e.size - wantedOffset)) expansion) hd
  have limit_le : e.claimLimit (missing * kCacheBitmapUnit / e.blockSize *
      e.blockSize) (wantedOffset + min wantedLength (e.size - wantedOffset)) expansion ≤
      e.size := min_le_left _ _
  refine claimed_newFetch live wanted.2.2 hd (not_le.1 taken) (hle.trans limit_le) ?_ ?_
  · rcases hstop with k | k
    · exact .inl k
    · rw [k]
      exact claimLimit_dvd hsize _ _ _
  · intro r h1 h2
    obtain ⟨blocked, incomplete⟩ := hfree _ (Dvd.intro_left r rfl) h1 h2
    refine ⟨blocked, ?_⟩
    rcases incomplete with k | k
    · -- the first block holds the missing page the claim starts from
      exact ⟨missing, lt_pageCount.2 inFile, eq_of_mul_eq_mul_right e.block_pos k.symm,
        by rw [hole]; decide⟩
    · exact blockAllClean_eq_false (by omega) k

end CacheEntry

end Ngs3fs.Cache
