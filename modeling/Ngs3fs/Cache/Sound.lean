import Ngs3fs.Cache.Fence

/-!
# Soundness of the sparse file

A page that the bitmap calls clean holds the bytes of the object. The invariant follows the owner
of a fetch: the bytes between its publication and its last write are the object's, and until it has
written anything the pages it took over still hold what they held. A block has one owner at a time,
so a write or a punch in it disturbs nobody else. -/

namespace Ngs3fs.Cache
open Loop CacheEntry Machine Function List

def PageHolds (obj data : Nat → UInt8) (size page : Nat) : Prop :=
  ∀ i, page * kCacheBitmapUnit ≤ i → i < page * kCacheBitmapUnit + kCacheBitmapUnit → i < size →
    data i = obj i

def Sys.CleanHolds (s : Sys) (obj : Nat → UInt8) : Prop :=
  ∀ page < s.pageCount, s.bitmap page = .clean →
    PageHolds obj s.data s.size page

/-- Owners write the bytes of the object, publish what they have written, finish when everything is
written, and roll back before they write. -/
def Sparse (obj : Nat → UInt8) (s : Sys) : Action → Prop
  | .claimFetch _ _ _ => True
  | .write claim length content => ∀ a, s.findFetch claim = some a →
    ∀ i, a.offset + s.written a.id ≤ i → i < a.offset + s.written a.id + length → content i = obj i
  | .publishClean claim _ length _ => ∀ a, s.findFetch claim = some a → length ≤ s.written a.id
  | .finishFetch claim _ => ∀ a, s.findFetch claim = some a → s.written a.id = a.length
  | .failFetch _ _ => True
  | .rollbackFetch claim => ∀ a, s.findFetch claim = some a → s.written a.id = 0
  | .markBad _ => True
  | .pinClean _ _ => True
  | .unpin _ _ => True
  | .evictOneRegion _ => True
  | _ => False

/-- Its unpublished bytes are the object's, and before the first byte the pages it took over are as
they were. -/
structure OwnerHolds (obj : Nat → UInt8) (s : Sys) (a : ActiveFetch) : Prop where
  published : a.published ≤ s.written a.id
  fits : s.written a.id ≤ a.length
  bytes : ∀ i, a.offset + a.published ≤ i → i < a.offset + s.written a.id → s.data i = obj i
  prior : s.written a.id = 0 → ∀ page < s.pageCount,
    a.tailHas s.blockSize (s.pageBlock page) = true →
    priorState a page .missing = .clean → PageHolds obj s.data s.size page

structure Sound (obj : Nat → UInt8) (s : Sys) : Prop where
  clean : s.CleanHolds obj
  owner : ∀ a ∈ s.activeClaims, OwnerHolds obj s a

section
variable {s s' : Sys} {obj : Nat → UInt8} {a : ActiveFetch}

lemma PageHolds.mono {data data' size page} (config : CacheConfig)
    (h : PageHolds obj data size page)
    (kept : ∀ i, i / config.blockSize = config.pageBlock page → data i = obj i →
      data' i = obj i) : PageHolds obj data' size page := by
  intro i lo hi inside
  exact kept i (config.div_eq_pageBlock lo hi) (h i lo hi inside)

lemma OwnerHolds.mono (h : OwnerHolds obj s a) (wf : a.Wf s.entry)
    (config : s'.config = s.config) (size : s'.size = s.size)
    (written : s'.written a.id = s.written a.id)
    (kept : ∀ i, a.tailHas s.blockSize (i / s.blockSize) = true →
      s.data i = obj i → s'.data i = obj i) : OwnerHolds obj s' a := by
  have count : s'.pageCount = s.pageCount := by
    rw [CacheEntry.pageCount, size]; rfl
  have fits := h.fits
  refine ⟨by rw [written]; exact h.published, by rw [written]; exact fits, ?_, ?_⟩
  · intro i lo hi
    rw [written] at hi
    exact kept i (wf.tailHas_of_inTail ⟨lo, by omega⟩) (h.bytes i lo hi)
  · rw [written, count, config, size]
    intro zero page hp tail prior
    refine (h.prior zero page hp tail prior).mono s.config ?_
    intro i hi
    exact kept i (by rwa [hi])

lemma Sound.update (sound : Sound obj s) (inv : Inv s) (P : Nat → Bool)
    (config : s'.config = s.config) (size : s'.size = s.size)
    (data : ∀ i, P (i / s.blockSize) = false → s'.data i = s.data i)
    (clean : ∀ page < s.pageCount, s'.bitmap page = .clean →
      P (s.pageBlock page) = false ∧ s.bitmap page = .clean)
    (claims : ∀ a ∈ s'.activeClaims, a ∈ s.activeClaims ∧
      (∀ r, a.tailHas s.blockSize r = true → P r = false) ∧
      s'.written a.id = s.written a.id) : Sound obj s' := by
  have count : s'.pageCount = s.pageCount := by
    rw [CacheEntry.pageCount, size]; rfl
  constructor
  · intro page hp hc
    rw [count] at hp
    rw [size]
    obtain ⟨outside, old⟩ := clean page hp hc
    refine (sound.clean page hp old).mono s.config ?_
    intro i hi same
    rw [data i (by rwa [hi]), same]
  · intro a ha
    obtain ⟨old, apart, written⟩ := claims a ha
    refine (sound.owner a old).mono (inv.claims.wf a old) config size written ?_
    intro i hi same
    rw [data i (apart _ hi), same]

lemma Sound.keep (sound : Sound obj s) (inv : Inv s) (config : s'.config = s.config)
    (size : s'.size = s.size) (data : s'.data = s.data)
    (clean : ∀ page < s.pageCount, s'.bitmap page = .clean →
      s.bitmap page = .clean) (claims : s'.activeClaims = s.activeClaims)
    (written : s'.written = s.written) : Sound obj s' := by
  refine sound.update inv (fun _ => false) config size (fun i _ => by rw [data])
    (fun page hp h => ⟨rfl, clean page hp h⟩) ?_
  intro a ha
  rw [claims] at ha
  exact ⟨ha, fun _ _ => rfl, by rw [written]⟩

end

section
variable {s s' : Sys} {obj : Nat → UInt8} {a : ActiveFetch} {claim : CacheFetchClaim}

lemma Sound.newClaim (sound : Sound obj s) (inv : Inv s) {e'}
    (claimed : Claimed s.entry e' a) {retryReady} :
    Sound obj { s.withEntry e' with
      written := Function.update s.written a.id 0, retryReady } := by
  obtain rfl := claimed.eq
  constructor
  · intro page hp hc
    refine sound.clean page hp ?_
    simp only [Sys.withEntry, mapRegions] at hc
    split at hc
    · cases hc
    · exact hc
  · intro b hb
    rcases mem_append.1 hb with old | new
    · have other : b.id ≠ a.id := by
        have := (inv.claims.wf b old).id_lt
        have := claimed.id_ge
        omega
      exact (sound.owner b old).mono (inv.claims.wf b old) rfl rfl (Function.update_of_ne other ..)
        fun _ _ h => h
    · obtain rfl := List.mem_singleton.1 new
      have none : Function.update s.written b.id 0 b.id = 0 := Function.update_self ..
      refine ⟨claimed.fresh.1.le.trans (Nat.zero_le _), none.le.trans (Nat.zero_le _),
        fun i lo hi => ?_, fun _ page hp tail prior => ?_⟩
      · change i < b.offset + Function.update s.written b.id 0 b.id at hi
        omega
      · have range := ActiveFetch.rangeHas_of_tailHas tail
        rw [claimed.prior page hp range] at prior
        exact sound.clean page hp prior

lemma Sound.write (sound : Sound obj s) (inv : Inv s) {length content}
    (found : s.findFetch claim = some a) (fits : s.written a.id + length ≤ a.length)
    (object : ∀ i, a.offset + s.written a.id ≤ i → i < a.offset + s.written a.id + length →
      content i = obj i) :
    Sound obj { s.withOps [.write (a.offset + s.written a.id) length content] with
      written := Function.update s.written a.id (s.written a.id + length) } := by
  have ha := (findFetch_fields found).1
  have holds := sound.owner a ha
  have put {i : Nat} (lo : a.offset + s.written a.id ≤ i)
      (hi : i < a.offset + s.written a.id + length) :
      (FileOp.write (a.offset + s.written a.id) length content).apply s.data i = obj i :=
    (if_pos ⟨lo, hi⟩).trans (object i lo hi)
  -- so no byte of the object is lost anywhere
  have kept {i : Nat} (h : s.data i = obj i) :
      (FileOp.write (a.offset + s.written a.id) length content).apply s.data i = obj i := by
    by_cases k : a.offset + s.written a.id ≤ i ∧ i < a.offset + s.written a.id + length
    · exact put k.1 k.2
    · exact (if_neg k).trans h
  constructor
  · intro page hp hc
    exact (sound.clean page hp hc).mono s.config fun i _ => kept
  · intro b hb
    by_cases same : b.id = a.id
    · obtain rfl := inj_on_of_nodup_map inv.claims.ids hb ha same
      have := holds.published
      constructor
      all_goals dsimp only
      all_goals rw [update_self]
      · omega
      · exact fits
      · intro i lo hi
        by_cases k : i < b.offset + s.written b.id
        · exact kept (holds.bytes i lo k)
        · exact put (by omega) (by omega)
      · intro zero page hp tail prior
        exact (holds.prior (by omega) page hp tail prior).mono s.config fun i _ => kept
    · exact (sound.owner b hb).mono (inv.claims.wf b hb) rfl rfl (update_of_ne same ..)
        fun i _ => kept

lemma Sound.publish (sound : Sound obj s) (inv : Inv s) {q waitTokens}
    (found : s.findFetch claim = some a) (lo : a.published ≤ q)
    (dvd : q = a.length ∨ s.blockSize ∣ q) (wrote : q ≤ s.written a.id) :
    Sound obj (s.withEntry { s.entry with
      bitmap := s.mapRegions (s.newlyPublished a q) (settle .clean)
      activeClaims := modifyFirst (ActiveFetch.isFor claim)
        (fun a => { a with published := q }) s.activeClaims
      waitTokens }) := by
  have ha := (findFetch_fields found).1
  have wf := inv.claims.wf a ha
  have holds := sound.owner a ha
  -- the blocks before the new boundary end before it, or at the end of the file
  have covered {r i : Nat} (h : s.newlyPublished a q r = true)
      (hi : i < r * s.blockSize + s.blockSize)
      (inside : i < s.size) :
      a.offset + a.published ≤ r * s.blockSize ∧ i < a.offset + q := by
    rw [newlyPublished, Bool.and_eq_true, ActiveFetch.tailHas_iff, Bool.not_eq_true',
      ← Bool.not_eq_true, ActiveFetch.tailHas_iff] at h
    change _ ∧ ¬ (a.offset + q ≤ _ ∧ _ < a.offset + a.length) at h
    have start : r * s.blockSize < a.offset + q := by omega
    refine ⟨h.1.1, ?_⟩
    have aligned (hd : s.blockSize ∣ a.offset + q) : i < a.offset + q := by
      have := add_le_of_dvd_of_lt (Dvd.intro_left r rfl) hd start
      omega
    rcases dvd with full | hd
    · rcases wf.stop with hd | last
      · exact aligned (by rwa [full])
      · omega
    · exact aligned (Dvd.dvd.add wf.offset_dvd hd)
  constructor
  · intro page hp hc
    change s.mapRegions _ _ page = .clean at hc
    rw [mapRegions] at hc
    split at hc
    · rename_i moved
      intro i h1 h2 inside
      have bounds := s.pageBlock_bounds page
      obtain ⟨k1, k2⟩ := covered moved.2 (i := i) (by omega) inside
      exact holds.bytes i (by omega) (by omega)
    · exact sound.clean page hp hc
  · intro b hb
    rcases mem_cons.1 ((modifyFirst_perm found).subset hb) with rfl | old
    · refine ⟨wrote, holds.fits, fun i h1 h2 => ?_, fun zero page hp tail prior => ?_⟩
      · exact holds.bytes i (le_trans (Nat.add_le_add_left lo _) h1) h2
      · refine holds.prior zero page hp ?_ prior
        rw [ActiveFetch.tailHas_iff] at tail ⊢
        exact ⟨le_trans (Nat.add_le_add_left lo _) tail.1, tail.2⟩
    · have old := mem_of_mem_eraseP old
      exact (sound.owner b old).mono (inv.claims.wf b old) rfl rfl rfl fun i _ h => h

lemma tail_rest (inv : Inv s) (found : s.findFetch claim = some a) {b r}
    (hb : b ∈ s.activeClaims.eraseP (ActiveFetch.isFor claim))
    (tail : b.tailHas s.blockSize r = true) :
    a.tailHas s.blockSize r = false := by
  by_contra own
  exact owner_rest inv.claims (claims_perm found)
    (ActiveFetch.owns_of_tailHas (Bool.not_eq_false _ ▸ own)) hb (ActiveFetch.owns_of_tailHas tail)

section
variable (sound : Sound obj s) (inv : Inv s) {regionPins : Nat → Nat}
  {pinnedRegions waitTokens : Nat} {ended : List CacheFetchClaim}
include sound inv

lemma Sound.finish {ops} (found : s.findFetch claim = some a)
    (punches : ∀ op ∈ ops, ∃ r, a.tailHas s.blockSize r = true ∧
      op = .punch (r * s.blockSize) s.blockSize) :
    Sound obj { s.withOps ops with
      entry := { s.entry with
        bitmap := s.mapRegions (a.tailHas s.blockSize) (settle .missing)
        regionPins, pinnedRegions, waitTokens
        activeClaims := s.activeClaims.eraseP (ActiveFetch.isFor claim) }
      ended } := by
  have ha := (findFetch_fields found).1
  refine sound.update inv (a.tailHas s.blockSize) rfl rfl ?_ ?_ ?_
  · intro i outside
    refine FileOp.applyAll_of_not_touches ?_
    intro op hop touches
    obtain ⟨r, tail, rfl⟩ := punches op hop
    rw [s.div_eq_iff.2 touches, tail] at outside
    cases outside
  · intro page hp hc
    change s.mapRegions _ _ page = .clean at hc
    rw [mapRegions] at hc
    by_cases tail : a.tailHas s.blockSize
        (s.pageBlock page) = true
    · rw [if_pos ⟨hp, tail⟩] at hc
      rcases inv.pages.tail a ha page hp tail with h | h <;> rw [h] at hc <;> cases hc
    · rw [if_neg fun h => tail h.2] at hc
      exact ⟨by simpa using tail, hc⟩
  · exact fun b hb => ⟨mem_of_mem_eraseP hb, fun r => tail_rest inv found hb, rfl⟩

lemma Sound.rollback (found : s.findFetch claim = some a) (unwritten : s.written a.id = 0) :
    Sound obj { s.withEntry { s.entry with
        bitmap := s.mapRegions (a.tailHas s.blockSize) (priorState a)
        regionPins, pinnedRegions, waitTokens
        activeClaims := s.activeClaims.eraseP (ActiveFetch.isFor claim) } with
      ended } := by
  constructor
  · intro page hp hc
    change s.mapRegions _ _ page = .clean at hc
    rw [mapRegions] at hc
    split at hc
    · rename_i tail
      exact (sound.owner a (findFetch_fields found).1).prior unwritten page hp tail.2 hc
    · exact sound.clean page hp hc
  · intro b hb
    have old := mem_of_mem_eraseP hb
    exact (sound.owner b old).mono (inv.claims.wf b old) rfl rfl rfl fun i _ h => h

lemma Sound.evict {r clockHand referenced} (hr : r < s.regionCount)
    (evictable : s.evictable r = true) :
    Sound obj { s.withOps [.punch (r * s.blockSize) s.blockSize] with
      entry := { s.entry with
        bitmap := s.mapRegions (· == r) (fun _ s => if s = .clean then .missing else s)
        referenced, clockHand, waitTokens } } := by
  have inside := lt_regionCount.1 hr
  obtain ⟨unpinned, -, pages⟩ := evictable_iff inside evictable
  have unowned := unowned_of_unpinned inv inside unpinned pages
  refine sound.update inv (· == r) rfl rfl ?_ ?_ ?_
  · intro i outside
    refine @FileOp.apply_of_not_touches (.punch ..) _ _ ?_
    intro touches
    rw [s.div_eq_iff.2 touches, beq_self_eq_true] at outside
    cases outside
  · intro page hp hc
    dsimp only [mapRegions] at hc
    by_cases here : (s.pageBlock page == r) = true
    · rw [if_pos ⟨hp, here⟩] at hc
      split at hc
      · cases hc
      · exact absurd hc ‹_›
    · rw [if_neg fun h => here h.2] at hc
      exact ⟨by simpa using here, hc⟩
  · refine fun b hb => ⟨hb, fun k tail => ?_, rfl⟩
    rw [beq_eq_false_iff_ne]
    rintro rfl
    exact unowned.1 b hb (ActiveFetch.owns_of_tailHas tail)

lemma Sound.effect {act} (sparse : Sparse obj s act) (h : Effect s act s') : Sound obj s' := by
  cases h with
  | idle h =>
    obtain ⟨⟨_, _, _, _, _, _, rfl⟩, -, -⟩ := h
    exact sound.keep inv rfl rfl rfl (fun _ _ => id) rfl rfl
  | claim h => exact sound.newClaim inv h
  | write found _ fits => exact sound.write inv found fits (sparse _ found)
  | publish found lo hi dvd last =>
    refine sound.publish inv found lo dvd ?_
    rcases last with h | h
    · rw [h]
      exact (sound.owner _ (findFetch_fields found).1).published
    · exact le_trans h (sparse _ found)
  | finish _ found punches =>
    refine sound.finish inv found ?_
    intro op hop
    obtain ⟨r, tail, -, eq⟩ := punches op hop
    exact ⟨r, tail, eq⟩
  | rollback found => exact sound.rollback inv found (sparse _ found)
  | @bad claim a waitTokens found live =>
    refine sound.keep inv rfl rfl rfl ?_ rfl rfl
    intro page hp hc
    change s.mapRegions (a.owns s.blockSize) (fun _ _ => .bad) page = _ at hc
    rw [mapRegions] at hc
    split at hc
    · cases hc
    · exact hc
  | pin | pinNothing | unpin | unpinNothing | dropManifest | retryPart =>
    exact sound.keep inv rfl rfl rfl (fun _ _ => id) rfl rfl
  | evict _ inside evictable => exact sound.evict inv inside evictable
  | _ => exact sparse.elim

lemma sound_step {act} (sparse : Sparse obj s act) (h : step s act = some s') : Sound obj s' := by
  rcases step_effects inv h with h | ⟨claim, valid, io, t, rfl, -⟩
  · exact sound.effect inv sparse h
  · exact sparse.elim

end

/-- Nothing of its tail is clean, and nothing else has changed. -/
structure FailsClean (s t : Sys) (a : ActiveFetch) : Prop where
  tail : ∀ page < s.pageCount, a.inTail (page * kCacheBitmapUnit) → t.bitmap page ≠ .clean
  pages : ∀ page < s.pageCount, ¬ a.inTail (page * kCacheBitmapUnit) →
    t.bitmap page = s.bitmap page
  bytes : ∀ i < s.size, ¬ a.inTail i → t.data i = s.data i

lemma Inv.failFetch (inv : Inv s) (found : s.findFetch claim = some a) (io : Nat → Bool) :
    FailsClean s (s.finishFetch claim io) a := by
  have ha := (findFetch_fields found).1
  have wf := inv.claims.wf a ha
  obtain ⟨tokens, eq, punches⟩ := finishFetch_eq wf found
  have bitmap : (s.finishFetch claim io).bitmap =
      s.mapRegions (a.tailHas s.blockSize) (settle .missing) := by
    simp only [Sys.finishFetch, eq]
  refine ⟨?_, ?_, ?_⟩
  · intro page hp tail hc
    rw [wf.inTail_iff hp] at tail
    rw [bitmap, mapRegions, if_pos ⟨hp, tail⟩] at hc
    rcases inv.pages.tail a ha page hp tail with h | h <;> rw [h] at hc <;> cases hc
  · intro page hp tail
    rw [wf.inTail_iff hp] at tail
    rw [bitmap, mapRegions, if_neg fun h => tail h.2]
  · intro i inside outside
    refine FileOp.applyAll_of_not_touches ?_
    intro op hop touches
    obtain ⟨r, tail, -, rfl⟩ := punches op (mem_of_mem_filter hop)
    rw [ActiveFetch.tailHas_iff] at tail
    refine outside ⟨le_trans tail.1 touches.1, ?_⟩
    rcases wf.stop with dvd | last
    · exact lt_of_lt_of_le touches.2 (add_le_of_dvd_of_lt (Dvd.intro_left r rfl) dvd tail.2)
    · rwa [last]

/-- In every run of a sparse file every clean page holds the bytes of the object, and failing a
fetch leaves no page of its unpublished tail clean and changes nothing else. -/
theorem run_sound {acts : List Action} (fresh : s.Fresh) (clean : s.CleanHolds obj)
    (sparse : Machine.Along step (Sparse obj) s acts) (run : run step s acts = some s') :
    s'.CleanHolds obj ∧ ∀ claim a io, s'.findFetch claim = some a →
      ∃ t, step s' (.failFetch claim io) = some t ∧ FailsClean s' t a := by
  have start : Inv s ∧ Sound obj s := by
    refine ⟨fresh.inv, clean, ?_⟩
    rw [fresh.claims]
    exact nofun
  have stop : Inv s' ∧ Sound obj s' := run_inv_along (I := fun s => Inv s ∧ Sound obj s)
    (fun _ _ _ both sparse h => ⟨inv_step both.1 h, sound_step both.2 both.1 sparse h⟩)
    start sparse run
  refine ⟨stop.2.clean, ?_⟩
  intro claim a io found
  exact ⟨_, rfl, stop.1.failFetch found io⟩

def halfFetched (obj : Nat → UInt8) : List Action :=
  [.claimFetch 0 1 0, .write ⟨0, 1, 1, 65536⟩ 65536 obj,
    .publishClean ⟨0, 1, 1, 65536⟩ 0 65536 true,
    .finishFetch ⟨0, 1, 1, 65536⟩ (fun _ => true), .claimFetch 65536 1 0,
    .write ⟨65536, 1, 2, 34464⟩ 10 obj]

theorem run_sound_halfFetched : ∃ s',
    run step (Sys.empty twoPages 100000) (halfFetched fun _ => 7) = some s' ∧
    s'.bitmap 0 = .clean ∧ s'.CleanHolds (fun _ => 7) ∧
    ∀ claim a io, s'.findFetch claim = some a →
      ∃ t, step s' (.failFetch claim io) = some t ∧ FailsClean s' t a := by
  have fresh : (Sys.empty twoPages 100000).Fresh := Sys.empty_fresh (by decide)
  refine ⟨_, rfl, by decide, @run_sound _ _ (fun _ => 7) (halfFetched fun _ => 7) fresh ?_ ?_ rfl⟩
  · intro page _ clean
    cases clean
  · refine .cons rfl trivial (.cons rfl (fun _ _ _ _ _ => rfl) (.cons rfl ?_ (.cons rfl ?_
      (.cons rfl trivial (.cons rfl (fun _ _ _ _ _ => rfl) trivial)))))
    all_goals
      intro a found
      cases found
      decide

/-- In every run, a region under eviction has no other owner, no pins and no clean page. -/
theorem run_evicts_alone {acts ev r} (fresh : s.Fresh) (run : run step s acts = some s')
    (mem : ev ∈ s'.evictions) (holds : ev.holds s'.blockSize r = true) :
    s'.owners r = 1 ∧ s'.regionPins r = 0 ∧ ∀ page < s'.pageCount,
      s'.pageBlock page = r → s'.bitmap page ≠ .clean := by
  have inv := fresh.run_inv run
  refine ⟨le_antisymm (inv.claims.owner r) ?_, inv.pins.evict_free ev mem r holds, ?_⟩
  · exact Nat.le_add_left_of_le (countP_pos_iff.2 ⟨ev, mem, holds⟩)
  · rintro page inside rfl
    rw [inv.pages.evict ev mem page inside holds]
    split <;> decide

theorem run_evicts_alone_halfFetched :
    (final step (Sys.empty twoPages 100000)
      (halfFetched (fun _ => 7) ++ [.claimLiveRegion])).owners 0 = 1 :=
  (@run_evicts_alone _ _ _ ⟨0, 65536, [0, 1], false⟩ 0 (Sys.empty_fresh (by decide))
    (run_final (by decide +kernel)) (by decide +kernel) (by decide +kernel)).1

end

end Ngs3fs.Cache
