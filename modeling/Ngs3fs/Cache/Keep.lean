import Ngs3fs.Cache.Account

/-!
# Every step keeps the invariant

One lemma for each group of the invariant and each kind of effect. Ownership is a count, so a fetch
that is found splits the claims into itself and the rest (`claims_perm`), and what it owns nobody
else owns (`owner_rest`, `owner_evict`). Pages move only inside the owned regions
(`PageInv.update`), or in a region nobody owns (`unowned_of_unpinned`). -/

namespace Ngs3fs.Cache
open Loop CacheEntry ActiveFetch List Nat

variable {s s' : Sys} {act : Action}

lemma CacheEntry.exists_page {e : CacheEntry} {r} (inside : r * e.blockSize < e.size) :
    ∃ page < e.pageCount, e.pageBlock page = r := by
  have start : r * e.blockSize / kCacheBitmapUnit * kCacheBitmapUnit =
      r * e.blockSize :=
    Nat.div_mul_cancel (Dvd.dvd.mul_left e.unit_dvd r)
  refine ⟨r * e.blockSize / kCacheBitmapUnit, ?_, ?_⟩
  · rwa [lt_pageCount, start]
  · rw [CacheConfig.pageBlock, start, Nat.mul_div_cancel _ e.block_pos]

lemma CacheEntry.exists_page_of_meets {e : CacheEntry} {offset length r}
    (meets : Meets e.blockSize offset length r) (inside : offset + length ≤ e.size) :
    ∃ page < e.pageCount, e.pageBlock page = r ∧
      offset < page * kCacheBitmapUnit + kCacheBitmapUnit ∧
      page * kCacheBitmapUnit < offset + length := by
  have unit : 0 < kCacheBitmapUnit := by decide
  obtain ⟨pos, h1, h2⟩ := meets
  -- the first byte of both
  have lo := div_mul_le_self (max offset (r * e.blockSize)) kCacheBitmapUnit
  have hi : max offset (r * e.blockSize) < max offset (r * e.blockSize) /
      kCacheBitmapUnit * kCacheBitmapUnit + kCacheBitmapUnit := lt_div_mul_add unit
  have boundary : r * e.blockSize ≤ max offset (r * e.blockSize) / kCacheBitmapUnit *
      kCacheBitmapUnit := by
    by_contra hlt
    have := add_le_of_dvd_of_lt (Dvd.intro_left _ rfl)
      (Dvd.dvd.mul_left e.unit_dvd r) (not_le.1 hlt)
    omega
  refine ⟨max offset (r * e.blockSize) / kCacheBitmapUnit, ?_, ?_, ?_, ?_⟩
  · rw [lt_pageCount]
    omega
  · rw [e.pageBlock_eq_iff]
    have := e.block_pos
    omega
  all_goals omega

lemma claims_perm {claim a} (found : s.findFetch claim = some a) :
    s.activeClaims.Perm (a :: s.activeClaims.eraseP (isFor claim)) :=
  perm_of_find? found

section
variable {a : ActiveFetch} {rest : List ActiveFetch}

lemma owners_cons (perm : s.activeClaims.Perm (a :: rest)) (r : Nat) :
    s.owners r = (if a.owns s.blockSize r = true then 1 else 0) +
      rest.countP (fun a => a.owns s.blockSize r) +
      s.evictions.countP (Eviction.holds s.blockSize r) := by
  rw [Sys.owners, perm.countP_eq, countP_cons]
  omega

variable {r : Nat}

lemma owner_rest (inv : ClaimInv s) (perm : s.activeClaims.Perm (a :: rest))
    (own : a.owns s.blockSize r = true) {b} (hb : b ∈ rest) :
    ¬ b.owns s.blockSize r = true := by
  have count := inv.owner r
  rw [owners_cons perm, if_pos own] at count
  have zero : rest.countP (fun a => a.owns s.blockSize r) = 0 := by omega
  exact countP_eq_zero.1 zero b hb

lemma id_rest (inv : ClaimInv s) (perm : s.activeClaims.Perm (a :: rest)) {b}
    (hb : b ∈ rest) : b.id ≠ a.id := by
  have ids := (perm.map ActiveFetch.id).nodup_iff.1 inv.ids
  rw [map_cons, nodup_cons] at ids
  intro same
  exact ids.1 (same ▸ mem_map_of_mem hb)

lemma owner_evict (inv : ClaimInv s) (ha : a ∈ s.activeClaims)
    (own : a.owns s.blockSize r = true) {ev} (hev : ev ∈ s.evictions) :
    ¬ ev.holds s.blockSize r = true := by
  have count := inv.owner r
  have one : 0 < s.activeClaims.countP (fun a => a.owns s.blockSize r) :=
    countP_pos_iff.2 ⟨a, ha, own⟩
  rw [Sys.owners] at count
  have zero : s.evictions.countP (Eviction.holds s.blockSize r) = 0 := by omega
  exact countP_eq_zero.1 zero ev hev

lemma evict_unique (inv : ClaimInv s) {ev ev' evs} (perm : s.evictions.Perm (ev :: evs))
    (holds : ev.holds s.blockSize r = true) (hev' : ev' ∈ evs) :
    ¬ ev'.holds s.blockSize r = true := by
  have count := inv.owner r
  rw [Sys.owners, perm.countP_eq, countP_cons, if_pos holds] at count
  have zero : evs.countP (Eviction.holds s.blockSize r) = 0 := by omega
  exact countP_eq_zero.1 zero ev' hev'

lemma regionPins_pos (inv : PinInv s) (ha : a ∈ s.activeClaims) (hv : a.verifying = true)
    (range : a.rangeHas s.blockSize r = true) : 0 < s.regionPins r := by
  have one : 0 < s.fetchPins r :=
    countP_pos_iff.2 ⟨a, ha, by rw [hv, range]; rfl⟩
  rw [inv.count r]
  omega

lemma unowned_of_unpinned (inv : Inv s) (inside : r * s.blockSize < s.size)
    (unpinned : s.regionPins r = 0)
    (pages : ∀ page < s.pageCount, s.pageBlock page = r →
      s.bitmap page = .clean ∨ s.bitmap page = .missing) :
    (∀ a ∈ s.activeClaims, ¬ a.owns s.blockSize r = true) ∧
      ∀ ev ∈ s.evictions, ¬ ev.holds s.blockSize r = true := by
  refine ⟨fun a ha own => ?_, fun ev hev holds => ?_⟩
  · unfold owns at own
    split at own
    · rename_i hv
      have := regionPins_pos inv.pins ha hv own
      omega
    · obtain ⟨page, hp, rfl⟩ := CacheEntry.exists_page inside
      rcases inv.pages.tail a ha page hp own with h | h <;>
        rcases pages page hp rfl with k | k <;> rw [h] at k <;> cases k
  · have wf := inv.pages.evict_wf ev hev
    obtain ⟨page, hm⟩ := exists_mem_of_ne_nil _ wf.marked
    obtain ⟨hp, hh⟩ := wf.pages page hm
    have region : s.pageBlock page = r := by
      simp only [Eviction.holds, beq_iff_eq] at holds hh
      exact eq_of_mul_eq_mul_right s.block_pos (hh.symm.trans holds)
    have pending := inv.pages.evict ev hev page hp hh
    rw [if_pos hm] at pending
    rcases pages page hp region with k | k <;> rw [pending] at k <;> cases k

end

section
variable {a a' : ActiveFetch} {rest claims : List ActiveFetch} {bitmap : Bitmap}
  {regionPins : Nat → Nat} {pinnedRegions waitTokens : Nat} {data : Nat → UInt8}
  {written : Nat → Nat} {retryReady : Nat → Bool} {ended : List CacheFetchClaim}
  {ops : List FileOp}

section
variable (inv : ClaimInv s) (perm : s.activeClaims.Perm (a :: rest))
include inv perm

lemma ClaimInv.replace (perm' : claims.Perm (a' :: rest)) (id : a'.id = a.id) (wf : a'.Wf s.entry)
    (owner : ∀ r, (if a'.owns s.blockSize r = true then 1 else 0) +
      rest.countP (fun a => a.owns s.blockSize r) +
      s.evictions.countP (Eviction.holds s.blockSize r) ≤ 1) :
    ClaimInv { s with
      bitmap, regionPins, pinnedRegions, waitTokens, activeClaims := claims
      written, retryReady, ops } := by
  refine ⟨inv.sized, ?_, ?_, ?_, fun r => (owners_cons perm' r).trans_le (owner r)⟩
  · intro b hb
    rcases mem_cons.1 (perm'.mem_iff.1 hb) with rfl | hb
    · exact wf.congr rfl rfl rfl (le_refl _)
    · exact (inv.wf b (perm.mem_iff.2 (mem_cons_of_mem _ hb))).congr rfl rfl rfl (le_refl _)
  · have ids := (perm.map ActiveFetch.id).nodup_iff.1 inv.ids
    refine (perm'.map ActiveFetch.id).nodup_iff.2 ?_
    rwa [map_cons, id]
  · intro c hc
    obtain ⟨lt, ne⟩ := inv.ended c hc
    refine ⟨lt, fun b hb => ?_⟩
    rcases mem_cons.1 (perm'.mem_iff.1 hb) with rfl | hb
    · rw [id]
      exact ne a (perm.mem_iff.2 mem_cons_self)
    · exact ne b (perm.mem_iff.2 (mem_cons_of_mem _ hb))

lemma ClaimInv.remove {claim} (hid : a.id = claim.id) :
    ClaimInv { s with
      bitmap, regionPins, pinnedRegions, waitTokens, activeClaims := rest
      ended := claim :: s.ended, data, ops } := by
  have ids := (perm.map ActiveFetch.id).nodup_iff.1 inv.ids
  rw [map_cons, nodup_cons] at ids
  have before {b : ActiveFetch} (hb : b ∈ rest) : b ∈ s.activeClaims :=
    perm.mem_iff.2 (mem_cons_of_mem _ hb)
  refine ⟨inv.sized, fun b hb => (inv.wf b (before hb)).congr rfl rfl rfl (le_refl _), ids.2,
    ?_, fun r => ?_⟩
  · intro c hc
    rcases mem_cons.1 hc with rfl | hc
    · refine ⟨hid ▸ (inv.wf a (perm.mem_iff.2 mem_cons_self)).id_lt, fun b hb heq => ?_⟩
      exact ids.1 (mem_map.2 ⟨b, hb, heq.trans hid.symm⟩)
    · obtain ⟨lt, ne⟩ := inv.ended c hc
      exact ⟨lt, fun b hb => ne b (before hb)⟩
  · have count := inv.owner r
    rw [owners_cons perm] at count
    simp only [Sys.owners]
    omega

lemma owners_replace (r : Nat)
    (less : a'.owns s.blockSize r = true → a.owns s.blockSize r = true) :
    (if a'.owns s.blockSize r = true then 1 else 0) +
      rest.countP (fun a => a.owns s.blockSize r) +
      s.evictions.countP (Eviction.holds s.blockSize r) ≤ 1 := by
  have count := inv.owner r
  rw [owners_cons perm] at count
  by_cases own : a'.owns s.blockSize r = true
  · rw [if_pos (less own)] at count
    rw [if_pos own]
    exact count
  · rw [if_neg own]
    omega

end

/-- The fetch becomes `as`: itself changed, or nothing. -/
lemma PageInv.update (inv : Inv s) (as : List ActiveFetch) (P : Nat → Bool)
    (f : Nat → CachePageState → CachePageState) (perm : s.activeClaims.Perm (a :: rest))
    (perm' : claims.Perm (as ++ rest)) (moved : bitmap = s.mapRegions P f)
    (owned : ∀ r, P r = true → a.owns s.blockSize r = true)
    (tail : ∀ b ∈ as, ∀ page < s.pageCount,
      b.tailHas s.blockSize (s.pageBlock page) = true →
      s.mapRegions P f page = .readPending ∨ s.mapRegions P f page = .bad)
    (pending : ∀ page < s.pageCount, s.mapRegions P f page = .readPending →
      P (s.pageBlock page) = true ∨
        a.tailHas s.blockSize (s.pageBlock page) = true →
      ∃ b ∈ as,
        b.tailHas s.blockSize (s.pageBlock page) = true) :
    PageInv { s with
      bitmap, regionPins, pinnedRegions, waitTokens, activeClaims := claims
      written, retryReady, ended, data, ops } := by
  have ha : a ∈ s.activeClaims := perm.mem_iff.2 mem_cons_self
  have same {page : Nat} (h : P (s.pageBlock page) ≠ true) :
      bitmap page = s.bitmap page := by
    rw [moved]
    exact if_neg fun k => h k.2
  refine ⟨fun ev hev => (inv.pages.evict_wf ev hev).congr rfl rfl, ?_, ?_, ?_⟩
  all_goals dsimp only
  · intro b hb page hp htail
    rcases mem_append.1 (perm'.mem_iff.1 hb) with hb | hb
    · rw [moved]
      exact tail b hb page hp htail
    · rw [same fun h => owner_rest inv.claims perm (owned _ h) hb
        (owns_of_tailHas htail)]
      exact inv.pages.tail b (perm.mem_iff.2 (mem_cons_of_mem _ hb)) page hp htail
  · intro ev hev page hp holds
    rw [same fun h => owner_evict inv.claims ha (owned _ h) hev holds]
    exact inv.pages.evict ev hev page hp holds
  · intro page hp hpend
    have mem {b : ActiveFetch} (hb : b ∈ as) : b ∈ claims :=
      perm'.mem_iff.2 (mem_append_left _ hb)
    by_cases h : P (s.pageBlock page) = true
    · obtain ⟨b, hb, ht⟩ := pending page hp (moved ▸ hpend) (.inl h)
      exact .inl ⟨b, mem hb, ht⟩
    · have old := hpend
      rw [same h] at old
      rcases inv.pages.pending page hp old with ⟨b, hb, ht⟩ | hev
      · rcases mem_cons.1 (perm.mem_iff.1 hb) with rfl | hb
        · obtain ⟨c, hc, htc⟩ := pending page hp (moved ▸ hpend) (.inr ht)
          exact .inl ⟨c, mem hc, htc⟩
        · exact .inl ⟨b, perm'.mem_iff.2 (mem_append_right _ hb), ht⟩
      · exact .inr hev

end

section
variable {e : CacheEntry} {a : ActiveFetch} {r : Nat}

section
variable (inv : PageInv s) {offset length : Nat} (meets : Meets s.blockSize offset length r)
  (inside : offset + length ≤ s.size) (clean : s.rangeAllState offset length .clean = true)
include inv meets inside clean

lemma tail_not_clean (ha : a ∈ s.activeClaims) (tail : a.tailHas s.blockSize r = true) : False := by
  obtain ⟨page, hp, rfl, h1, h2⟩ := exists_page_of_meets meets inside
  have hc := (rangeAllState_iff meets.1).1 clean page h1 h2
  rcases inv.tail a ha page hp tail with h | h <;> rw [hc] at h <;> cases h

lemma evict_not_clean {ev} (hev : ev ∈ s.evictions) (holds : ev.holds s.blockSize r = true) :
    False := by
  obtain ⟨page, hp, rfl, h1, h2⟩ := exists_page_of_meets meets inside
  have hc := (rangeAllState_iff meets.1).1 clean page h1 h2
  have he := inv.evict ev hev page hp holds
  rw [hc] at he
  split at he <;> cases he

end

lemma rangeHas_iff_meets (wf : a.Wf e) :
    a.rangeHas e.blockSize r = true ↔ Meets e.blockSize a.offset a.length r := by
  rw [rangeHas_iff, Meets]
  constructor
  · rintro ⟨h1, h2⟩
    have := e.block_pos
    omega
  · rintro ⟨-, h1, h2⟩
    refine ⟨?_, h2⟩
    by_contra hlt
    have := add_le_of_dvd_of_lt (Dvd.intro_left _ rfl) wf.offset_dvd (not_le.1 hlt)
    omega

lemma fetchPins_eq (wf : ∀ a ∈ s.activeClaims, a.Wf s.entry) (r : Nat) :
    s.fetchPins r = s.verifyingFetches r := by
  refine countP_congr fun a mem => ?_
  rw [Bool.and_eq_true, Bool.and_eq_true, rangeHas_iff_meets (wf a mem), decide_eq_true_eq]

lemma Inv.accounted (inv : Inv s) : Accounted s := by
  refine ⟨inv.claims.sized, fun a mem => ?_, inv.pins.inside, ⟨fun r => ?_, inv.pins.sum⟩,
    inv.parts⟩
  · have wf := inv.claims.wf a mem
    exact ⟨wf.length_pos, wf.inside⟩
  · rw [inv.pins.count, fetchPins_eq inv.claims.wf]
    rfl

structure Unpinned (s : Sys) : Prop where
  tail : ∀ a ∈ s.activeClaims, a.verifying = false → ∀ r,
    a.tailHas s.blockSize r = true → s.regionPins r = 0
  evict : ∀ ev ∈ s.evictions, ∀ r, ev.holds s.blockSize r = true →
    s.regionPins r = 0

/-- What the accounts leave open. -/
structure Kept (s : Sys) : Prop where
  claims : ClaimInv s
  pages : PageInv s
  unpinned : Unpinned s

lemma Accounted.inv (acc : Accounted s) (kept : Kept s) : Inv s := by
  refine ⟨kept.claims, kept.pages, ⟨acc.inside, fun r => ?_, acc.counted.sum, kept.unpinned.tail,
    kept.unpinned.evict⟩, acc.parts⟩
  rw [fetchPins_eq kept.claims.wf]
  exact acc.counted.count r

lemma Inv.unpinned (inv : Inv s) : Unpinned s := ⟨inv.pins.tail_free, inv.pins.evict_free⟩

lemma Unpinned.less (free : Unpinned s) (config : s'.config = s.config)
    (claims : s'.activeClaims ⊆ s.activeClaims) (evictions : s'.evictions ⊆ s.evictions)
    (pins : ∀ r, s'.regionPins r ≤ s.regionPins r) : Unpinned s' := by
  refine ⟨fun a mem idle r tail => ?_, fun ev mem r holds => ?_⟩
  · rw [config] at tail
    exact le_zero.1 (free.tail a (claims mem) idle r tail ▸ pins r)
  · rw [config] at holds
    exact le_zero.1 (free.evict ev (evictions mem) r holds ▸ pins r)

lemma Unpinned.cons {rest} (free : Unpinned s) (config : s'.config = s.config)
    (perm : s'.activeClaims.Perm (a :: rest)) (old : rest ⊆ s.activeClaims)
    (evictions : s'.evictions = s.evictions) (pins : s'.regionPins = s.regionPins)
    (tail : a.verifying = false → ∀ r, a.tailHas s.blockSize r = true →
      s.regionPins r = 0) : Unpinned s' := by
  refine ⟨fun b mem idle r htail => ?_, fun ev mem r holds => ?_⟩
  · rw [config] at htail
    rw [pins]
    rcases mem_cons.1 (perm.mem_iff.1 mem) with rfl | mem
    · exact tail idle r htail
    · exact free.tail b (old mem) idle r htail
  · rw [config] at holds
    rw [pins]
    exact free.evict ev (evictions ▸ mem) r holds

/-- A range that is clean is nobody's. -/
lemma Unpinned.pin (inv : Inv s) (config : s'.config = s.config)
    {first last offset length} (inside : offset + length ≤ s.size)
    (clean : s.rangeAllState offset length .clean = true)
    (claims : ∀ a ∈ s'.activeClaims, a.verifying = false → a ∈ s.activeClaims)
    (evictions : s'.evictions = s.evictions)
    (pins : s'.regionPins = (s.pinRegions first last).regionPins)
    (meets : ∀ r, first ≤ r ∧ r < last ↔ Meets s.blockSize offset length r) :
    Unpinned s' := by
  refine ⟨fun a mem idle r tail => ?_, fun ev mem r holds => ?_⟩
  · rw [config] at tail
    have mem := claims a mem idle
    rw [pins, pinRegions_regionPins, inv.pins.tail_free a mem idle r tail, if_neg]
    exact fun pinned => tail_not_clean inv.pages ((meets r).1 pinned) inside clean mem tail
  · rw [config] at holds
    rw [evictions] at mem
    rw [pins, pinRegions_regionPins, inv.pins.evict_free ev mem r holds, if_neg]
    exact fun pinned => evict_not_clean inv.pages ((meets r).1 pinned) inside clean mem holds

lemma unpinRegions_le (e : CacheEntry) (first last r : Nat) :
    (e.unpinRegions first last).regionPins r ≤ e.regionPins r := by
  rw [unpinRegions_regionPins]
  exact sub_le ..

lemma releasePins_le (e : CacheEntry) (a : ActiveFetch) (r : Nat) :
    (e.releasePins a).regionPins r ≤ e.regionPins r := by
  unfold releasePins
  split
  · exact unpinRegions_le ..
  · exact le_refl _

end

section
variable {a : ActiveFetch} {claim : CacheFetchClaim}

lemma Inv.idle (inv : Inv s) {e'} (h : Idle s.entry e') : Kept (s.withEntry e') := by
  obtain ⟨⟨_, _, _, _, _, _, rfl⟩, -, -⟩ := h
  exact ⟨inv.claims.congr, inv.pages.congr, ⟨inv.pins.tail_free, inv.pins.evict_free⟩⟩

variable {q : Nat}

lemma ActiveFetch.Wf.publish {e} (wf : a.Wf e) (lo : a.published ≤ q) (hi : q ≤ a.length)
    (dvd : q = a.length ∨ e.blockSize ∣ q) : ({ a with published := q }).Wf e := by
  refine { wf with published_le := hi, published_dvd := dvd, verifying := ?_ }
  intro hv
  rcases wf.verifying hv with h | h
  · exact .inl h
  · refine .inr ?_
    change q = a.length
    omega

lemma tailHas_publish {b r} (lo : a.published ≤ q)
    (h : ({ a with published := q }).tailHas b r = true) : a.tailHas b r = true := by
  rw [tailHas_iff] at h ⊢
  change a.offset + q ≤ _ ∧ _ at h
  exact ⟨by omega, h.2⟩

lemma owns_publish {b r} (lo : a.published ≤ q)
    (h : ({ a with published := q }).owns b r = true) : a.owns b r = true := by
  unfold owns at h ⊢
  split at h
  · rename_i hv
    rw [if_pos hv]
    exact h
  · rename_i hv
    rw [if_neg hv]
    exact tailHas_publish lo h

variable {waitTokens : Nat}

lemma Inv.publish (inv : Inv s) (found : s.findFetch claim = some a) (lo : a.published ≤ q)
    (hi : q ≤ a.length) (dvd : q = a.length ∨ s.blockSize ∣ q) :
    Kept (s.withEntry { s.entry with
      bitmap := s.mapRegions (s.newlyPublished a q) (settle .clean)
      activeClaims := modifyFirst (isFor claim)
        (fun a => { a with published := q }) s.activeClaims
      waitTokens }) := by
  have perm := claims_perm found
  have perm' := modifyFirst_perm (f := fun a => { a with published := q }) found
  have mem := (findFetch_fields found).1
  refine ⟨?_, ?_, inv.unpinned.cons rfl perm' eraseP_subset rfl rfl fun idle r tail =>
    inv.pins.tail_free a mem idle r (tailHas_publish lo tail)⟩
  · exact inv.claims.replace perm perm' rfl ((inv.claims.wf a mem).publish lo hi dvd)
      fun r => owners_replace inv.claims perm r (owns_publish lo)
  · refine PageInv.update inv [{ a with published := q }] _ _ perm perm' rfl ?_ ?_ ?_
    · intro r h
      rw [newlyPublished, Bool.and_eq_true] at h
      exact owns_of_tailHas h.1
    · intro b hb page hp ht
      rw [mem_singleton] at hb
      subst hb
      have kept : ¬ (page < s.pageCount ∧ s.newlyPublished a q
          (s.pageBlock page) = true) := by
        simp [newlyPublished, ht]
      rw [mapRegions, if_neg kept]
      exact inv.pages.tail a mem page hp (tailHas_publish lo ht)
    · intro page hp hpend htail
      refine ⟨_, mem_singleton_self _, ?_⟩
      by_contra published
      have moved : page < s.pageCount ∧ s.newlyPublished a q
          (s.pageBlock page) = true := by
        refine ⟨hp, ?_⟩
        rcases htail with h | h
        · exact h
        · rw [newlyPublished, h, Bool.true_and, Bool.eq_false_iff.2 published]
          rfl
      rw [mapRegions, if_pos moved, settle] at hpend
      split at hpend
      · cases hpend
      · exact absurd hpend ‹_›

/-- Whatever becomes of the pending pages of its tail. -/
lemma Inv.end (inv : Inv s) (found : s.findFetch claim = some a) {f data ops}
    (settled : ∀ page < s.pageCount,
      a.tailHas s.blockSize (s.pageBlock page) = true →
      f page (s.bitmap page) ≠ .readPending) :
    Kept { s with
      bitmap := s.mapRegions (a.tailHas s.blockSize) f
      regionPins := (s.releasePins a).regionPins
      pinnedRegions := (s.releasePins a).pinnedRegions
      activeClaims := s.activeClaims.eraseP (isFor claim)
      waitTokens
      ended := claim :: s.ended, data, ops } := by
  have perm := claims_perm found
  obtain ⟨-, hid, -, -, -⟩ := findFetch_fields found
  refine ⟨inv.claims.remove perm hid, ?_,
    inv.unpinned.less rfl eraseP_subset (fun _ => id) (releasePins_le _ a)⟩
  refine PageInv.update inv [] _ _ perm (.refl _) rfl (fun r => owns_of_tailHas)
    nofun ?_
  intro page hp hpend htail
  rw [or_self] at htail
  rw [mapRegions, if_pos ⟨hp, htail⟩] at hpend
  exact absurd hpend (settled page hp htail)

lemma priorState_ne_pending {e} (wf : a.Wf e) (page : Nat) {state} :
    priorState a page state ≠ .readPending := by
  unfold priorState
  rw [getD_eq_getElem?_getD]
  cases h : a.priorStates[page - a.offset / kCacheBitmapUnit]? with
  | none => exact nofun
  | some prior =>
    rcases wf.prior prior (mem_of_getElem? h) with rfl | rfl <;> exact nofun

section
variable (inv : Inv s) (found : s.findFetch claim = some a)
include inv found

lemma Inv.bad :
    Kept (s.withEntry { s.entry with
      bitmap := s.mapRegions (a.owns s.blockSize) (fun _ _ => .bad)
      waitTokens }) := by
  have perm := claims_perm found
  refine ⟨inv.claims.congr, ?_, ⟨inv.pins.tail_free, inv.pins.evict_free⟩⟩
  refine PageInv.update inv [a] _ _ perm perm rfl (fun r => id) ?_ ?_
  · intro b hb page hp ht
    rw [mem_singleton] at hb
    subst hb
    rw [mapRegions, if_pos ⟨hp, owns_of_tailHas ht⟩]
    exact .inr rfl
  · intro page hp hpend htail
    have own : a.owns s.blockSize (s.pageBlock page) = true := by
      rcases htail with h | h
      · exact h
      · exact owns_of_tailHas h
    rw [mapRegions, if_pos ⟨hp, own⟩] at hpend
    cases hpend

lemma Inv.retry (hv : a.verifying = true) {written retryReady} {ops} :
    Kept { s with entry := s.retried claim a waitTokens, written, retryReady, ops } := by
  have perm := claims_perm found
  have perm' := modifyFirst_perm (f := fun a => { a with published := 0, retrying := true }) found
  have wf := inv.claims.wf a (findFetch_fields found).1
  have wf' : ({ a with published := 0, retrying := true } : ActiveFetch).Wf s.entry :=
    { wf with
        published_le := zero_le _
        published_dvd := .inr (dvd_zero _)
        verifying := fun _ => .inl rfl
        retrying := fun _ => hv }
  have owns (r : Nat) : a.owns s.blockSize r =
      a.rangeHas s.blockSize r := if_pos hv
  refine ⟨?_, ?_, inv.unpinned.cons rfl perm' eraseP_subset rfl rfl fun idle => ?_⟩
  · refine inv.claims.replace perm perm' rfl wf' fun r => owners_replace inv.claims perm r ?_
    intro h
    have range := rangeHas_of_owns h
    rw [owns]
    exact range
  · refine PageInv.update inv [{ a with published := 0, retrying := true }]
      (a.rangeHas s.blockSize) (fun _ _ => .readPending) perm perm' rfl ?_ ?_ ?_
    · intro r h
      rw [owns]
      exact h
    · intro b hb page hp ht
      rw [mem_singleton] at hb
      subst hb
      have range := rangeHas_of_tailHas ht
      rw [mapRegions, if_pos ⟨hp, range⟩]
      exact .inl rfl
    · intro page hp hpend htail
      have range : a.rangeHas s.blockSize
          (s.pageBlock page) = true := by
        rcases htail with h | h
        · exact h
        · exact rangeHas_of_tailHas h
      refine ⟨_, mem_singleton_self _, ?_⟩
      rw [rangeHas_iff] at range
      rw [tailHas_iff]
      exact ⟨range.1, range.2⟩
  · cases hv.symm.trans idle

lemma Inv.verify (full : a.published = a.length)
    (clean : s.rangeAllState a.offset a.length .clean = true)
    (alone : ∀ b ∈ s.activeClaims.eraseP (isFor claim),
      b.offset < a.offset + a.length → b.offset + b.length ≤ a.offset) :
    Kept (s.withEntry ((s.pinRegions (a.offset / s.blockSize)
      ((a.offset + a.length - 1) / s.blockSize + 1)).modifyFetch claim
        (fun a => { a with verifying := true }))) := by
  have perm := claims_perm found
  have perm' := modifyFirst_perm (f := fun a => { a with verifying := true }) found
  have ha := (findFetch_fields found).1
  have wf := inv.claims.wf a ha
  have wf' : ({ a with verifying := true } : ActiveFetch).Wf s.entry :=
    { wf with verifying := fun _ => .inr full, retrying := fun _ => rfl }
  refine ⟨?_, ?_, .pin inv rfl wf.inside clean (fun b hb idle => ?_) rfl rfl
    (mem_spanRegions wf.length_pos)⟩
  · refine inv.claims.replace perm perm' rfl wf' fun r => ?_
    have count := inv.claims.owner r
    rw [owners_cons perm] at count
    show (if a.rangeHas s.blockSize r = true then 1 else 0) + _ + _ ≤ 1
    by_cases range : a.rangeHas s.blockSize r = true
    · have h1 : (s.activeClaims.eraseP (isFor claim)).countP
          (fun a => a.owns s.blockSize r) = 0 := by
        refine countP_eq_zero.2 fun b hb own => ?_
        have apart := alone b hb
        have other := rangeHas_of_owns own
        rw [rangeHas_iff] at range other
        omega
      have h2 : s.evictions.countP (Eviction.holds s.blockSize r) = 0 :=
        countP_eq_zero.2 fun ev hev holds =>
          evict_not_clean inv.pages ((rangeHas_iff_meets wf).1 range) wf.inside clean hev holds
      rw [if_pos range, h1, h2]
    · rw [if_neg range]
      omega
  · refine PageInv.update inv [{ a with verifying := true }] (fun _ => false) (fun _ s => s) perm
      perm' ?_ nofun ?_ ?_
    · funext page
      simp [mapRegions, pinRegions]
    · intro b hb page hp ht
      rw [mem_singleton] at hb
      subst hb
      rw [mapRegions, if_neg (by simp)]
      exact inv.pages.tail a ha page hp ht
    · intro page hp hpend htail
      rcases htail with h | h
      · cases h
      · exact ⟨_, mem_singleton_self _, h⟩
  · rcases mem_cons.1 (perm'.mem_iff.1 hb) with rfl | hb
    · cases idle
    · exact mem_of_mem_eraseP hb

end

lemma Inv.newClaim (inv : Inv s) {e'} (claimed : Claimed s.entry e' a) {written retryReady} :
    Kept { s.withEntry e' with written, retryReady } := by
  have wf := claimed.wf
  have eq := claimed.eq
  subst eq
  have perm : (s.activeClaims ++ [a]).Perm (a :: s.activeClaims) :=
    perm_append_singleton a s.activeClaims
  have unowned {r : Nat} (range : a.rangeHas s.blockSize r = true) :
      (∀ b ∈ s.activeClaims, ¬ b.owns s.blockSize r = true) ∧
        ∀ ev ∈ s.evictions, ¬ ev.holds s.blockSize r = true := by
    have inside : a.offset + a.length ≤ s.size := wf.inside
    refine unowned_of_unpinned inv ?_ (claimed.free r range) ?_
    · rw [rangeHas_iff] at range
      omega
    · rintro page hp rfl
      exact claimed.pages page hp range
  have tail_eq (r : Nat) : a.tailHas s.blockSize r =
      a.rangeHas s.blockSize r := by
    rw [tailHas, rangeHas, claimed.fresh.1, add_zero]
  have owns_eq (r : Nat) : a.owns s.blockSize r =
      a.rangeHas s.blockSize r := by
    rw [owns, claimed.fresh.2.1, ← tail_eq]
    rfl
  have same {page : Nat}
      (h : a.rangeHas s.blockSize (s.pageBlock page) ≠ true) :
      s.mapRegions (a.rangeHas s.blockSize) (fun _ _ => .readPending) page =
        s.bitmap page := if_neg fun k => h k.2
  refine ⟨⟨inv.claims.sized, ?_, ?_, ?_, fun r => ?_⟩,
    ⟨fun ev hev => (inv.pages.evict_wf ev hev).congr rfl rfl, ?_, ?_, ?_⟩,
    inv.unpinned.cons rfl perm (fun _ => id) rfl rfl fun _ r tail =>
      claimed.free r ((tail_eq r).symm.trans tail)⟩
  all_goals dsimp only [Sys.withEntry]
  · intro b hb
    rcases mem_cons.1 (perm.mem_iff.1 hb) with rfl | hb
    · exact wf
    · exact (inv.claims.wf b hb).congr rfl rfl rfl (le_trans claimed.id_ge (le_succ _))
  · refine (perm.map ActiveFetch.id).nodup_iff.2 ?_
    rw [map_cons, nodup_cons]
    refine ⟨?_, inv.claims.ids⟩
    intro hm
    obtain ⟨b, hb, hid⟩ := mem_map.1 hm
    have := (inv.claims.wf b hb).id_lt
    have := claimed.id_ge
    omega
  · intro c hc
    obtain ⟨lt, ne⟩ := inv.claims.ended c hc
    have := claimed.id_ge
    refine ⟨by omega, fun b hb => ?_⟩
    rcases mem_cons.1 (perm.mem_iff.1 hb) with rfl | hb
    · omega
    · exact ne b hb
  · have old := inv.claims.owner r
    simp only [Sys.owners, countP_append, countP_singleton, owns_eq] at old ⊢
    split
    · rename_i range
      rw [countP_eq_zero.2 (unowned range).1, countP_eq_zero.2 (unowned range).2]
    · omega
  · intro b hb page hp ht
    rcases mem_cons.1 (perm.mem_iff.1 hb) with rfl | hb
    · rw [mapRegions, if_pos ⟨hp, by rwa [← tail_eq]⟩]
      exact .inl rfl
    · rw [same fun range => (unowned range).1 b hb (owns_of_tailHas ht)]
      exact inv.pages.tail b hb page hp ht
  · intro ev hev page hp holds
    rw [same fun range => (unowned range).2 ev hev holds]
    exact inv.pages.evict ev hev page hp holds
  · intro page hp hpend
    by_cases range : a.rangeHas s.blockSize
        (s.pageBlock page) = true
    · exact .inl ⟨a, perm.mem_iff.2 mem_cons_self, by rwa [tail_eq]⟩
    · rw [same range] at hpend
      rcases inv.pages.pending page hp hpend with ⟨b, hb, ht⟩ | h
      · exact .inl ⟨b, perm.mem_iff.2 (mem_cons_of_mem _ hb), ht⟩
      · exact .inr h

end

section

lemma dropped {taken} [Decidable taken] {state : CachePageState} :
    (if taken then (if state = .clean then .missing else state) else state) = state ∨
    state = .clean ∧
      (if taken then (if state = .clean then .missing else state) else state) = .missing := by
  by_cases h : taken ∧ state = .clean
  · exact .inr ⟨h.2, by rw [if_pos h.1, if_pos h.2]⟩
  · refine .inl ?_
    split
    · rename_i htaken
      exact if_neg fun hclean => h ⟨htaken, hclean⟩
    · rfl

lemma PageInv.drop (inv : PageInv s) {bitmap referenced}
    {regionPins pinnedRegions clockHand checksumOps waitTokens} {checksumStates checks data} {ops}
    (moved : ∀ page < s.pageCount, bitmap page = s.bitmap page ∨
      s.bitmap page = .clean ∧ bitmap page = .missing) :
    PageInv { s with
      bitmap, referenced, regionPins, pinnedRegions, clockHand, checksumStates, checksumOps
      waitTokens
      checks, data, ops } := by
  refine ⟨fun ev hev => (inv.evict_wf ev hev).congr rfl rfl, ?_, ?_, ?_⟩
  all_goals dsimp only
  · intro a ha page hp ht
    have old := inv.tail a ha page hp ht
    rcases moved page hp with h | h
    · rwa [h]
    · rw [h.1] at old
      rcases old with k | k <;> cases k
  · intro ev hev page hp holds
    have old := inv.evict ev hev page hp holds
    rcases moved page hp with h | h
    · rw [h, old]
    · rw [h.1] at old
      split at old <;> cases old
  · intro page hp hpend
    rcases moved page hp with h | h
    · rw [h] at hpend
      exact inv.pending page hp hpend
    · rw [h.2] at hpend
      cases hpend

lemma Inv.evictStart (inv : Inv s) {r clockHand referenced}
    (hr : r < s.regionCount) (evictable : s.evictable r = true) :
    Kept { s.withEntry { s.entry with
        bitmap := s.mapRegions (· == r) (fun _ s => if s = .clean then .readPending else s)
        referenced, clockHand } with
      evictions := ⟨r * s.blockSize, s.blockSize, s.cleanPages r,
        false⟩ :: s.evictions } := by
  have inside := lt_regionCount.1 hr
  obtain ⟨unpinned, marked, pages⟩ := evictable_iff inside evictable
  have unowned := unowned_of_unpinned inv inside unpinned pages
  have holds_iff {k : Nat} : Eviction.holds s.blockSize k
      ⟨r * s.blockSize, s.blockSize, s.cleanPages r, false⟩ = true ↔
      k = r := by
    rw [Eviction.holds, beq_iff_eq]
    constructor
    · intro h
      exact (eq_of_mul_eq_mul_right s.block_pos h).symm
    · rintro rfl
      rfl
  have same {page : Nat} (h : s.pageBlock page ≠ r) :
      s.mapRegions (· == r) (fun _ s => if s = .clean then .readPending else s) page =
        s.bitmap page := if_neg (by simp [h])
  refine ⟨{ inv.claims with wf := ?_, owner := fun k => ?_ }, ⟨?_, ?_, ?_, ?_⟩,
    ⟨inv.pins.tail_free, ?_⟩⟩
  all_goals dsimp only [Sys.withEntry]
  · exact fun a ha => (inv.claims.wf a ha).congr rfl rfl rfl (le_refl _)
  · have old := inv.claims.owner k
    simp only [Sys.owners, countP_cons] at old ⊢
    by_cases hk : k = r
    · subst hk
      rw [countP_eq_zero.2 unowned.1, countP_eq_zero.2 unowned.2, if_pos (holds_iff.2 rfl)]
    · rw [if_neg (fun h => hk (holds_iff.1 h))]
      omega
  · intro ev hev
    rcases mem_cons.1 hev with rfl | hev
    · refine ⟨⟨r, rfl, rfl, inside⟩, marked, List.Nodup.filter _ nodup_range', fun page hm => ?_⟩
      obtain ⟨h1, h2, -⟩ := (mem_cleanPages inside).1 hm
      exact ⟨h1, holds_iff.2 h2⟩
    · exact (inv.pages.evict_wf ev hev).congr rfl rfl
  · intro a ha page hp ht
    have hne : s.pageBlock page ≠ r := by
      rintro rfl
      exact unowned.1 a ha (owns_of_tailHas ht)
    rw [same hne]
    exact inv.pages.tail a ha page hp ht
  · intro ev hev page hp holds
    rcases mem_cons.1 hev with rfl | old
    · have hb := holds_iff.1 holds
      rw [mapRegions, if_pos ⟨hp, by simpa using hb⟩]
      simp only [mem_cleanPages inside]
      rcases pages page hp hb with h | h
      · rw [if_pos h, if_pos ⟨hp, hb, h⟩]
      · rw [h, if_neg (by decide), if_neg (by rintro ⟨-, -, k⟩; cases k)]
    · have hne : s.pageBlock page ≠ r := by
        rintro rfl
        exact unowned.2 ev old holds
      rw [same hne]
      exact inv.pages.evict ev old page hp holds
  · intro page hp hpend
    by_cases hb : s.pageBlock page = r
    · refine .inr ⟨_, mem_cons_self, ?_⟩
      rw [mapRegions, if_pos ⟨hp, by simpa using hb⟩] at hpend
      rw [mem_cleanPages inside]
      rcases pages page hp hb with h | h
      · exact ⟨hp, hb, h⟩
      · rw [h, if_neg (by decide)] at hpend
        cases hpend
    · rw [same hb] at hpend
      rcases inv.pages.pending page hp hpend with h | ⟨ev, hev, h⟩
      · exact .inl h
      · exact .inr ⟨ev, mem_cons_of_mem _ hev, h⟩
  · intro ev hev k holds
    rcases mem_cons.1 hev with rfl | hev
    · rw [holds_iff.1 holds]
      exact unpinned
    · exact inv.pins.evict_free ev hev k holds

variable {ev : Eviction}

lemma Inv.evictPunch (inv : Inv s) (mem : ev ∈ s.evictions) {data} {ops} :
    Kept { s with
      evictions := { ev with punched := true } :: s.evictions.erase ev, data, ops } := by
  have perm : s.evictions.Perm (ev :: s.evictions.erase ev) := perm_cons_erase mem
  -- no group looks at the flag
  have back {P : Eviction → Prop} (flag : P ev → P { ev with punched := true })
      (h : ∀ ev ∈ s.evictions, P ev) :
      ∀ ev' ∈ { ev with punched := true } :: s.evictions.erase ev, P ev' := by
    intro ev' hev'
    rcases mem_cons.1 hev' with rfl | hev'
    · exact flag (h ev mem)
    · exact h ev' (mem_of_mem_erase hev')
  have claims := inv.claims
  have pages := inv.pages
  refine ⟨{ claims with owner := fun r => ?_ },
    ⟨back (fun h => { h with }) pages.evict_wf, pages.tail,
      back id pages.evict, ?_⟩, ⟨inv.pins.tail_free, back id inv.pins.evict_free⟩⟩
  · have count := claims.owner r
    rw [Sys.owners, perm.countP_eq, countP_cons] at count
    rw [Sys.owners, countP_cons]
    exact count
  · intro page hp hpend
    rcases pages.pending page hp hpend with h | ⟨ev', hev', h⟩
    · exact .inl h
    · rcases mem_cons.1 (perm.subset hev') with rfl | hev'
      · exact .inr ⟨_, mem_cons_self, h⟩
      · exact .inr ⟨ev', mem_cons_of_mem _ hev', h⟩

lemma Inv.evictFinish (inv : Inv s) (mem : ev ∈ s.evictions) {state}
    (settled : state ≠ .readPending) {waitTokens} :
    Kept { s.withEntry { s.entry with
        bitmap := setPages s.bitmap ev.cleanPages state, waitTokens } with
      evictions := s.evictions.erase ev } := by
  have perm : s.evictions.Perm (ev :: s.evictions.erase ev) := perm_cons_erase mem
  have holds {page : Nat} (h : page ∈ ev.cleanPages) := ((inv.pages.evict_wf ev mem).pages page h).2
  have claims := inv.claims
  have pages := inv.pages
  refine ⟨{ claims with
      wf := fun a ha => (claims.wf a ha).congr rfl rfl rfl (le_refl _)
      owner := fun r => ?_ },
    ⟨fun ev' hev' => (pages.evict_wf ev' (mem_of_mem_erase hev')).congr rfl rfl, ?_, ?_, ?_⟩,
    inv.unpinned.less rfl (fun _ => id) erase_subset fun _ => le_refl _⟩
  all_goals dsimp only [Sys.withEntry]
  · have owner := claims.owner r
    rw [Sys.owners, perm.countP_eq, countP_cons] at owner
    simp only [Sys.owners]
    omega
  · intro a ha page hp ht
    rw [setPages_apply, if_neg fun h =>
      owner_evict claims ha (owns_of_tailHas ht) mem (holds h)]
    exact pages.tail a ha page hp ht
  · intro ev' hev' page hp holds'
    rw [setPages_apply, if_neg fun h => evict_unique claims perm (holds h) hev' holds']
    exact pages.evict ev' (mem_of_mem_erase hev') page hp holds'
  · intro page hp hpend
    rw [setPages_apply] at hpend
    split at hpend
    · exact absurd hpend settled
    · rename_i other
      rcases pages.pending page hp hpend with h | ⟨ev', hev', h⟩
      · exact .inl h
      · rcases mem_cons.1 (perm.subset hev') with rfl | hev'
        · exact absurd h other
        · exact .inr ⟨ev', hev', h⟩

end

lemma Inv.kept (inv : Inv s) (h : Effect s act s') : Kept s' := by
  cases h with
  | idle h => exact inv.idle h
  | claim h => exact inv.newClaim h
  | write | retryAgain | hash | writePart | truncate | pinNothing | unpinNothing | loadManifest
  | skipManifest | installManifest | dropManifest | retryPart =>
    exact ⟨inv.claims.congr, inv.pages.congr, ⟨inv.pins.tail_free, inv.pins.evict_free⟩⟩
  | publish found lo hi dvd => exact inv.publish found lo hi dvd
  | finish _ found =>
    refine inv.end found ?_
    intro page _ _
    unfold settle
    split
    · exact nofun
    · assumption
  | @rollback claim a _ found =>
    refine inv.end found ?_
    intro page _ _
    exact priorState_ne_pending (inv.claims.wf a (findFetch_fields found).1) page
  | bad found => exact inv.bad found
  | verify found _ _ full _ _ clean alone => exact inv.verify found full clean alone
  | retry found _ hv => exact inv.retry found hv
  | pin _ pos inside clean =>
    exact ⟨inv.claims.congr, inv.pages.congr, .pin inv rfl inside clean (fun _ mem _ => mem) rfl rfl
      fun r => mem_regions pos inside⟩
  | unpin | finishPart =>
    exact ⟨inv.claims.congr, inv.pages.congr,
      inv.unpinned.less rfl (fun _ => id) (fun _ => id) (unpinRegions_le _ _ _)⟩
  | @check _ _ _ i part available hp hs clean =>
    have mem := mem_of_getElem? hp
    have inside := inv.parts.tiled.inside part mem
    exact ⟨inv.claims.congr, inv.pages.congr, .pin inv rfl inside clean (fun _ mem _ => mem) rfl rfl
      fun r => mem_regions (inv.parts.tiled.pos part mem) inside⟩
  | abandonPart =>
    refine ⟨inv.claims.congr, inv.pages.drop fun page _ => ?_,
      inv.unpinned.less rfl (fun _ => id) (fun _ => id) (unpinRegions_le _ _ _)⟩
    rw [Bitmap.replace_apply]
    exact dropped
  | evict =>
    exact ⟨inv.claims.congr, inv.pages.drop fun page _ => dropped,
      ⟨inv.pins.tail_free, inv.pins.evict_free⟩⟩
  | evictStart _ inside evictable => exact inv.evictStart inside evictable
  | evictPunch mem => exact inv.evictPunch mem
  | @evictFinish ev _ mem =>
    refine inv.evictFinish mem ?_
    split <;> exact nofun

theorem Inv.effect (inv : Inv s) (h : Effect s act s') : Inv s' :=
  (inv.accounted.effect h).inv (inv.kept h)

theorem step_effects (inv : Inv s) (h : step s act = some s') :
    Effect s act s' ∨ ∃ claim valid io t, act = .finishRetry claim valid io ∧
      t = s.withEntry (retryVerdictEntry s.entry claim valid) ∧
      Effect s (retryVerdict claim valid) t ∧ Inv t ∧ Effect t (.finishFetch claim io) s' := by
  rcases step_cases inv h with h | ⟨claim, valid, io, t, rfl, eq, verdict, rfl⟩
  · exact .inl h
  · have mid := inv.effect verdict
    exact .inr ⟨claim, valid, io, t, rfl, eq, verdict, mid,
      finishFetch_effect mid claim io (.inl rfl)⟩

theorem inv_step (inv : Inv s) (h : step s act = some s') : Inv s' := by
  rcases step_effects inv h with h | ⟨_, _, _, t, -, -, -, mid, h⟩
  · exact inv.effect h
  · exact mid.effect h

/-- As the constructor leaves it: nobody uses it, and no page is pending. -/
structure Sys.Fresh (s : Sys) : Prop where
  sized : s.Sized
  claims : s.activeClaims = []
  pages : ∀ page < s.pageCount, s.bitmap page ≠ .readPending
  regionPins : ∀ r, s.regionPins r = 0
  pinnedRegions : s.pinnedRegions = 0
  parts : s.checksumParts = []
  states : s.checksumStates = []
  manifest : s.checksumManifest = .unknown
  checksumOps : s.checksumOps = 0
  pins : s.pins = []
  checks : s.checks = []
  evictions : s.evictions = []
  ended : s.ended = []

theorem Sys.Fresh.inv (h : s.Fresh) : Inv s := by
  refine ⟨⟨h.sized, ?_, ?_, ?_, ?_⟩, ⟨?_, ?_, ?_, ?_⟩, ⟨?_, ?_, ?_, ?_, ?_⟩,
    ⟨?_, ?_, ?_, ?_, ?_, ?_, ?_, ?_⟩⟩
  · rw [h.claims]; exact nofun
  · rw [h.claims]; exact nodup_nil
  · rw [h.ended]; exact nofun
  · intro r
    rw [Sys.owners, h.claims, h.evictions]
    exact zero_le 1
  · rw [h.evictions]; exact nofun
  · rw [h.claims]; exact nofun
  · rw [h.evictions]; exact nofun
  · intro page hp pending
    exact absurd pending (h.pages page hp)
  · rw [h.pins]; exact nofun
  · intro r
    unfold Sys.replyPins Sys.checkPins Sys.fetchPins
    rw [h.regionPins, h.pins, h.checks, h.claims]
    rfl
  · rw [h.pinnedRegions]
    exact (Finset.sum_eq_zero fun r _ => h.regionPins r).symm
  · rw [h.claims]; exact nofun
  · rw [h.evictions]; exact nofun
  · rw [h.parts]
    exact ⟨nofun, nofun, List.Pairwise.nil⟩
  · rw [h.states, h.parts]; rfl
  · exact fun _ => h.parts
  · rw [h.checks]; exact nofun
  · rw [h.checks]; exact nodup_nil
  · rw [h.states]; exact nofun
  · rw [h.checksumOps, h.checks, h.manifest]; rfl
  · rw [h.claims]; exact nofun

def Sys.empty (config : CacheConfig) (size : Nat) : Sys where
  entry :=
    { config, size, writtenEnd := 0, epoch := 1, bitmap := fun _ => .missing
      referenced := fun _ => false
      regionPins := fun _ => 0, activeClaims := [], checksumParts := [], checksumStates := []
      nextClaimId := 1, clockHand := 0, checksumOps := 0, pinnedRegions := 0
      checksumManifest := .unknown, evictionDisabled := false, detached := false, stale := false
      dirty := false, exported := false, waiters := 0, waitTokens := 0 }
  data := fun _ => 0
  written := fun _ => 0
  retryReady := fun _ => false
  pins := []
  checks := []
  partReady := fun _ => false
  hashing := fun _ => ⟨0, fun _ => 0⟩
  verifiedOver := fun _ _ => 0
  evictions := []
  ended := []
  ops := []

lemma Sys.empty_fresh {config size} (h : size ≤ uint64Max) : (Sys.empty config size).Fresh :=
  ⟨⟨h, nofun⟩, rfl, fun _ _ => nofun, fun _ => rfl, rfl, rfl, rfl, rfl, rfl, rfl, rfl, rfl, rfl⟩

theorem Sys.Fresh.run_inv (h : s.Fresh) {acts} (run : Machine.run step s acts = some s') : Inv s' :=
  Machine.run_inv (fun _ _ _ => inv_step) h.inv run

end Ngs3fs.Cache
