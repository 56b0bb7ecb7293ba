import Ngs3fs.Cache.Effect

/-!
# What the pins of an entry count

`region_pins_`, `pinned_regions_` and `checksum_ops_` are moved by replies, part verifiers,
whole-fetch verifications and the manifest loader, with subtractions that stop at zero. `Accounted`
says what they count: a pin that was clipped, lost or released twice would break it. Unlike
`PinInv` it says nothing of the pages, so that it survives the unchecked `pin` of a region that is
being fetched. -/

namespace Ngs3fs.Cache
open Loop CacheEntry List Nat

variable {s s' : Sys}

section
variable {claim : CacheChecksumClaim}

lemma check_inside (inv : PartInv s) (mem : claim ∈ s.checks) :
    0 < claim.size ∧ claim.offset + claim.size ≤ s.size := by
  obtain ⟨part, hp, ho, hs⟩ := (inv.checks claim mem).part
  have pos := inv.tiled.pos part (mem_of_getElem? hp)
  have inside := inv.tiled.inside part (mem_of_getElem? hp)
  omega

lemma check_unique (inv : PartInv s) {c} (mem : claim ∈ s.checks)
    (hc : c ∈ s.checks) (same : c.part = claim.part) : c = claim :=
  inj_on_of_nodup_map inv.distinct hc mem same

section
variable (inv : PartInv s) {bitmap : Bitmap} {regionPins : Nat → Nat}
  {pinnedRegions waitTokens : Nat} {pins : List (Nat × Nat)} {partReady : Nat → Bool}
  {hashing : Nat → Hashed} {verifiedOver : Nat → Nat → UInt8} {ops : List FileOp}
include inv

lemma PartInv.check {i part} (available : s.checksumManifest = .available)
    (hp : s.checksumParts[i]? = some part)
    (hs : s.checksumStates[i]? = some .unverified) :
    PartInv { s with
      regionPins, pinnedRegions
      checksumStates := s.checksumStates.set i .verifying
      checksumOps := s.checksumOps + 1
      checks := s.verifyClaim i part :: s.checks
      partReady, hashing, ops } := by
  have other {c : CacheChecksumClaim} (hc : c ∈ s.checks) : c.part ≠ i := by
    rintro rfl
    obtain ⟨state, h1, h2⟩ := (inv.checks c hc).state
    rw [hs] at h1
    cases h1
    cases h2
  refine ⟨inv.tiled, ?_, inv.installed, ?_, ?_, ?_, ?_, inv.exclusive⟩
  all_goals dsimp only
  · rw [length_set]
    exact inv.lengths
  · intro c hc
    rcases mem_cons.1 hc with rfl | hc
    · refine ⟨rfl, ⟨part, hp, rfl, rfl⟩, .verifying, ?_, rfl⟩
      exact getElem?_set_self (List.getElem?_eq_some_iff.1 hs).1
    · refine ⟨(inv.checks c hc).epoch, (inv.checks c hc).part, ?_⟩
      dsimp only
      rw [getElem?_set_ne (other hc).symm]
      exact (inv.checks c hc).state
  · rw [map_cons, nodup_cons]
    refine ⟨?_, inv.distinct⟩
    intro hm
    obtain ⟨c, hc, h⟩ := mem_map.1 hm
    exact other hc h
  · intro j state hj busy
    by_cases hij : i = j
    · exact ⟨_, mem_cons_self, hij⟩
    · rw [getElem?_set_ne hij] at hj
      obtain ⟨c, hc, h⟩ := inv.busy j state hj busy
      exact ⟨c, mem_cons_of_mem _ hc, h⟩
  · have ops := inv.ops
    rw [length_cons]
    rw [available] at ops ⊢
    omega

variable (mem : claim ∈ s.checks)
include mem

lemma PartInv.part_lt : claim.part < s.checksumStates.length := by
  obtain ⟨state, hs, -⟩ := (inv.checks claim mem).state
  exact (List.getElem?_eq_some_iff.1 hs).1

lemma PartInv.retry :
    PartInv { s with
      checksumStates := s.checksumStates.set claim.part .retrying, waitTokens
      partReady, ops } := by
  refine { inv with
      lengths := ?_
      checks := fun c hc => ⟨(inv.checks c hc).epoch, (inv.checks c hc).part, ?_⟩
      busy := ?_ }
  all_goals dsimp only
  · rw [length_set]
    exact inv.lengths
  · by_cases same : claim.part = c.part
    · rw [← same]
      exact ⟨.retrying, getElem?_set_self (inv.part_lt mem), rfl⟩
    · rw [getElem?_set_ne same]
      exact (inv.checks c hc).state
  · intro j state hj busy
    by_cases same : claim.part = j
    · exact ⟨claim, mem, same⟩
    · rw [getElem?_set_ne same] at hj
      exact inv.busy j state hj busy

lemma PartInv.finish {new} (done : new.inProgress = false) :
    PartInv { s with
      bitmap, regionPins, pinnedRegions, waitTokens
      checksumStates := s.checksumStates.set claim.part new
      checksumOps := s.checksumOps - 1
      checks := s.checks.erase claim
      pins, verifiedOver, ops } := by
  have perm := perm_cons_erase mem
  have distinct := (perm.map CacheChecksumClaim.part).nodup_iff.1 inv.distinct
  rw [map_cons, nodup_cons] at distinct
  have other {c : CacheChecksumClaim} (hc : c ∈ s.checks.erase claim) : claim.part ≠ c.part := by
    intro same
    exact distinct.1 (mem_map.2 ⟨c, hc, same.symm⟩)
  refine ⟨inv.tiled, ?_, inv.installed, fun c hc => ?_, distinct.2, ?_, ?_, inv.exclusive⟩
  all_goals dsimp only
  · rw [length_set]
    exact inv.lengths
  · have old := inv.checks c (mem_of_mem_erase hc)
    refine ⟨old.epoch, old.part, ?_⟩
    dsimp only
    rw [getElem?_set_ne (other hc)]
    exact old.state
  · intro j st hj busy
    by_cases same : claim.part = j
    · rw [← same, getElem?_set_self (inv.part_lt mem)] at hj
      rw [← Option.some.inj hj, done] at busy
      cases busy
    · rw [getElem?_set_ne same] at hj
      obtain ⟨c, hc, h⟩ := inv.busy j st hj busy
      rcases mem_cons.1 (perm.mem_iff.1 hc) with rfl | hc
      · exact absurd h same
      · exact ⟨c, hc, h⟩
  · have ops := inv.ops
    have length := perm.length_eq
    rw [length_cons] at length
    omega

end

lemma checkPins_erase (mem : claim ∈ s.checks) (r : Nat) :
    s.checkPins r = (s.checks.erase claim).countP
      (fun c => decide (Meets s.blockSize c.offset c.size r)) +
        if Meets s.blockSize claim.offset claim.size r then 1 else 0 := by
  rw [Sys.checkPins, (perm_cons_erase mem).countP_eq, countP_cons]
  simp only [decide_eq_true_eq]

section
variable (inv : PartInv s)
include inv

lemma checks_eq_nil (h : s.checksumManifest ≠ .available) : s.checks = [] := by
  rw [eq_nil_iff_forall_not_mem]
  intro c hc
  obtain ⟨part, hp, -⟩ := (inv.checks c hc).part
  rw [inv.installed h] at hp
  cases hp

lemma states_eq_nil (h : s.checksumManifest ≠ .available) : s.checksumStates = [] := by
  have lengths := inv.lengths
  rw [inv.installed h, length_nil] at lengths
  exact eq_nil_of_length_eq_zero lengths

lemma PartInv.manifest (idle : s.checksumManifest ≠ .available) {parts states manifest}
    {ops waitTokens} (tiled : Tiled s.size parts) (lengths : states.length = parts.length)
    (installed : manifest ≠ .available → parts = [])
    (waiting : ∀ state ∈ states, state.inProgress = false)
    (hops : ops = if manifest = .loading then 1 else 0)
    (exclusive : (∃ a ∈ s.activeClaims, a.verifying = true) →
      manifest ≠ .loading ∧ manifest ≠ .available) :
    PartInv (s.withEntry { s.entry with
      checksumParts := parts, checksumStates := states, checksumManifest := manifest
      checksumOps := ops, waitTokens }) := by
  have none : s.checks = [] := checks_eq_nil inv idle
  refine ⟨tiled, lengths, installed, ?_, inv.distinct, ?_, ?_, exclusive⟩
  · intro c hc
    change c ∈ s.checks at hc
    rw [none] at hc
    cases hc
  · intro i state hi busy
    rw [waiting state (mem_of_getElem? hi)] at busy
    cases busy
  · change ops = s.checks.length + _
    rw [none, hops, length_nil, zero_add]
    rfl

lemma PartInv.load (unknown : s.checksumManifest = .unknown)
    (none : ∀ a ∈ s.activeClaims, a.verifying = false) :
    PartInv (s.withEntry { s.entry with
      checksumManifest := .loading, checksumOps := s.checksumOps + 1 }) := by
  have idle : s.checksumManifest ≠ .available := by rw [unknown]; exact nofun
  have ops := inv.ops
  rw [checks_eq_nil inv idle, unknown] at ops
  refine inv.manifest idle inv.tiled inv.lengths (fun _ => inv.installed idle)
    (by rw [states_eq_nil inv idle]; exact nofun) ?_ ?_
  · rw [ops]; rfl
  · rintro ⟨a, ha, hv⟩
    rw [none a ha] at hv
    cases hv

lemma PartInv.skip (unknown : s.checksumManifest = .unknown) :
    PartInv (s.withEntry { s.entry with checksumManifest := .unavailable }) := by
  have idle : s.checksumManifest ≠ .available := by rw [unknown]; exact nofun
  have ops := inv.ops
  rw [checks_eq_nil inv idle, unknown] at ops
  exact inv.manifest idle inv.tiled inv.lengths (fun _ => inv.installed idle)
    (by rw [states_eq_nil inv idle]; exact nofun) ops (fun _ => ⟨nofun, nofun⟩)

lemma PartInv.install {parts waitTokens}
    (loading : s.checksumManifest = .loading) (tiled : Tiled s.size parts) :
    PartInv (s.withEntry { s.entry with
      checksumParts := parts
      checksumStates := replicate parts.length .unverified
      checksumManifest := .available
      checksumOps := s.checksumOps - 1
      waitTokens }) := by
  have idle : s.checksumManifest ≠ .available := by rw [loading]; exact nofun
  have ops := inv.ops
  rw [checks_eq_nil inv idle, loading] at ops
  refine inv.manifest idle tiled (length_replicate ..) (fun h => absurd rfl h) ?_ ?_ ?_
  · intro state hs
    rw [eq_of_mem_replicate hs]
    rfl
  · rw [ops]; rfl
  · intro verifying
    exact absurd loading (inv.exclusive verifying).1

lemma PartInv.giveUp {waitTokens} (loading : s.checksumManifest = .loading) :
    PartInv (s.withEntry { s.entry with
      checksumParts := []
      checksumStates := []
      checksumManifest := .unavailable
      checksumOps := s.checksumOps - 1
      waitTokens }) := by
  have idle : s.checksumManifest ≠ .available := by rw [loading]; exact nofun
  have ops := inv.ops
  rw [checks_eq_nil inv idle, loading] at ops
  have tiled := inv.tiled
  rw [inv.installed idle] at tiled
  refine inv.manifest idle tiled rfl (fun _ => rfl) nofun ?_ (fun _ => ⟨nofun, nofun⟩)
  rw [ops]; rfl

end

end

def ActiveFetch.span (a : ActiveFetch) : Nat × Nat × Bool := (a.offset, a.length, a.verifying)

namespace Sys

def verifyingFetches (s : Sys) (r : Nat) : Nat :=
  s.activeClaims.countP fun a =>
    a.verifying && decide (Meets s.blockSize a.offset a.length r)

def holders (s : Sys) (r : Nat) : Nat := s.replyPins r + s.checkPins r + s.verifyingFetches r

end Sys

structure Counted (s : Sys) : Prop where
  count : ∀ r, s.regionPins r = s.holders r
  sum : s.pinnedRegions = ∑ r ∈ Finset.range s.regionCount, s.regionPins r

structure Accounted (s : Sys) : Prop where
  sized : s.Sized
  claims : ∀ a ∈ s.activeClaims, 0 < a.length ∧ a.offset + a.length ≤ s.size
  inside : ∀ p ∈ s.pins, p.1 + p.2 ≤ s.size
  counted : Counted s
  parts : PartInv s

structure SameAccounts (e e' : CacheEntry) : Prop where
  config : e'.config = e.config
  size : e'.size = e.size
  epoch : e'.epoch = e.epoch
  regionPins : e'.regionPins = e.regionPins
  pinnedRegions : e'.pinnedRegions = e.pinnedRegions
  spans : e'.activeClaims.map ActiveFetch.span = e.activeClaims.map ActiveFetch.span
  parts : e'.checksumParts = e.checksumParts
  states : e'.checksumStates = e.checksumStates
  manifest : e'.checksumManifest = e.checksumManifest
  ops : e'.checksumOps = e.checksumOps
  sized : e.Sized → e'.Sized

section
variable {last : Nat}

lemma sum_add_range {N} (first : Nat) (f : Nat → Nat) (h : last ≤ N) :
    ∑ r ∈ Finset.range N, (f r + if first ≤ r ∧ r < last then 1 else 0) =
      ∑ r ∈ Finset.range N, f r + (last - first) := by
  have cells : (Finset.range N).filter (fun r => first ≤ r ∧ r < last) = Finset.Ico first last := by
    ext r
    simp only [Finset.mem_filter, Finset.mem_range, Finset.mem_Ico]
    omega
  rw [Finset.sum_add_distrib, ← Finset.sum_filter, cells, Finset.sum_const, card_Ico, smul_eq_mul,
    mul_one]

variable {e : CacheEntry}

lemma pinRegions_sum {first} (hl : last ≤ e.regionCount)
    (sum : e.pinnedRegions = ∑ r ∈ Finset.range e.regionCount, e.regionPins r) :
    (e.pinRegions first last).pinnedRegions =
      ∑ r ∈ Finset.range e.regionCount, (e.pinRegions first last).regionPins r := by
  simp only [pinRegions_regionPins, sum_add_range first e.regionPins hl, ← sum]
  rfl

lemma unpinRegions_sum {first} (hl : last ≤ e.regionCount)
    (pos : ∀ r, first ≤ r → r < last → 0 < e.regionPins r)
    (sum : e.pinnedRegions = ∑ r ∈ Finset.range e.regionCount, e.regionPins r) :
    (e.unpinRegions first last).pinnedRegions =
      ∑ r ∈ Finset.range e.regionCount, (e.unpinRegions first last).regionPins r := by
  have split := sum_add_range first (e.unpinRegions first last).regionPins hl
  have back (r : Nat) : (e.unpinRegions first last).regionPins r +
      (if first ≤ r ∧ r < last then 1 else 0) = e.regionPins r := by
    rw [unpinRegions_regionPins]
    split
    · have := pos r (by omega) (by omega)
      omega
    · rfl
  simp only [back, ← sum] at split
  have all : (range' first (last - first)).countP (fun r => e.regionPins r != 0) =
      last - first := by
    rw [countP_eq_length.2, length_range']
    intro r hr
    rw [mem_range'_iff] at hr
    have := pos r hr.1 hr.2
    simp only [bne_iff_ne]
    omega
  change e.pinnedRegions - _ = _
  rw [all]
  omega

end

section
variable {e : CacheEntry}

lemma SameAccounts.refl (e : CacheEntry) : SameAccounts e e :=
  ⟨rfl, rfl, rfl, rfl, rfl, rfl, rfl, rfl, rfl, rfl, id⟩

variable {e' : CacheEntry}

lemma SameAccounts.trans {e''} (h : SameAccounts e e') (k : SameAccounts e' e'') :
    SameAccounts e e'' :=
  ⟨k.config.trans h.config, k.size.trans h.size, k.epoch.trans h.epoch,
    k.regionPins.trans h.regionPins, k.pinnedRegions.trans h.pinnedRegions, k.spans.trans h.spans,
    k.parts.trans h.parts, k.states.trans h.states, k.manifest.trans h.manifest, k.ops.trans h.ops,
    fun sized => k.sized (h.sized sized)⟩

lemma countP_span (P : Nat × Nat × Bool → Bool) (as : List ActiveFetch) :
    as.countP (fun a => P a.span) = (as.map ActiveFetch.span).countP P := by
  rw [countP_map]
  rfl

lemma verifyingFetches_eq (s : Sys) (r : Nat) :
    s.verifyingFetches r = (s.activeClaims.map ActiveFetch.span).countP
      fun p => p.2.2 && decide (Meets s.blockSize p.1 p.2.1 r) := by
  rw [← countP_span]
  rfl

lemma exists_span {as bs : List ActiveFetch}
    (spans : as.map ActiveFetch.span = bs.map ActiveFetch.span) {a} (mem : a ∈ as) :
    ∃ b ∈ bs, b.span = a.span := by
  have found : a.span ∈ bs.map ActiveFetch.span := spans ▸ mem_map_of_mem mem
  exact mem_map.1 found

lemma spans_modifyFirst {p f} (same : ∀ a, (f a).span = a.span) (as : List ActiveFetch) :
    (modifyFirst p f as).map ActiveFetch.span = as.map ActiveFetch.span := by
  induction as with
  | nil => rfl
  | cons a as ih =>
    rw [modifyFirst]
    split
    · rw [map_cons, map_cons, same]
    · rw [map_cons, map_cons, ih]

lemma SameAccounts.rest {bitmap referenced} {nextClaimId clockHand waiters waitTokens}
    {evictionDisabled detached stale exported} :
    SameAccounts e { e with
      bitmap, referenced, nextClaimId, clockHand, evictionDisabled, detached, stale, exported
      waiters, waitTokens } :=
  ⟨rfl, rfl, rfl, rfl, rfl, rfl, rfl, rfl, rfl, rfl, id⟩

/-- The write has ended, one way or the other. -/
lemma SameAccounts.clears {evictionDisabled detached stale} :
    SameAccounts e { e with dirty := false, evictionDisabled, detached, stale } :=
  ⟨rfl, rfl, rfl, rfl, rfl, rfl, rfl, rfl, rfl, rfl, fun sized => ⟨sized.1, nofun⟩⟩

lemma Accounted.same (acc : Accounted s) (same : SameAccounts s.entry s'.entry)
    (pins : s'.pins = s.pins) (checks : s'.checks = s.checks) : Accounted s' := by
  have count : s'.regionCount = s.regionCount := by
    rw [regionCount, same.size, same.config]; rfl
  refine ⟨same.sized acc.sized, fun a mem => ?_, ?_, ⟨fun r => ?_, ?_⟩, ?_⟩
  · obtain ⟨b, mem, span⟩ := exists_span same.spans mem
    obtain ⟨offset, length, -⟩ := Prod.mk.inj span |>.imp_right Prod.mk.inj
    rw [same.size, ← offset, ← length]
    exact acc.claims b mem
  · rw [pins, same.size]
    exact acc.inside
  · rw [same.regionPins, acc.counted.count, Sys.holders, Sys.holders, verifyingFetches_eq,
      verifyingFetches_eq, same.spans, Sys.replyPins, Sys.replyPins, Sys.checkPins, Sys.checkPins,
      pins, checks, same.config]
  · rw [same.pinnedRegions, count, same.regionPins]
    exact acc.counted.sum
  · have p := acc.parts
    refine ⟨?_, ?_, ?_, fun c mem => ?_, ?_, ?_, ?_, ?_⟩
    · rw [same.size, same.parts]; exact p.tiled
    · rw [same.states, same.parts]; exact p.lengths
    · rw [same.manifest, same.parts]; exact p.installed
    · exact (p.checks c (checks ▸ mem)).congr same.epoch same.parts same.states
    · rw [checks]; exact p.distinct
    · rw [same.states, checks]; exact p.busy
    · rw [same.ops, checks, same.manifest]; exact p.ops
    · rintro ⟨a, mem, verifying⟩
      obtain ⟨b, mem, span⟩ := exists_span same.spans mem
      have flag : b.verifying = a.verifying := congrArg (·.2.2) span
      rw [same.manifest]
      exact p.exclusive ⟨b, mem, flag.trans verifying⟩

section
variable {first last : Nat} (counted : Counted s) (offset length : Nat)
  (bound : last ≤ s.regionCount)
  (meets : ∀ r, first ≤ r ∧ r < last ↔ Meets s.blockSize offset length r)
  (regions : s'.regionCount = s.regionCount)
include counted offset length bound meets regions

lemma Counted.add (regionPins : s'.regionPins = (s.pinRegions first last).regionPins)
    (pinned : s'.pinnedRegions = (s.pinRegions first last).pinnedRegions)
    (holders : ∀ r, s'.holders r =
      s.holders r + if Meets s.blockSize offset length r then 1 else 0) :
    Counted s' := by
  refine ⟨fun r => ?_, ?_⟩
  · rw [regionPins, pinRegions_regionPins, counted.count, holders]
    simp only [meets]
  · rw [pinned, regions, regionPins]
    exact pinRegions_sum bound counted.sum

lemma Counted.sub (regionPins : s'.regionPins = (s.unpinRegions first last).regionPins)
    (pinned : s'.pinnedRegions = (s.unpinRegions first last).pinnedRegions)
    (holders : ∀ r, s.holders r =
      s'.holders r + if Meets s.blockSize offset length r then 1 else 0) :
    Counted s' := by
  refine ⟨fun r => ?_, ?_⟩
  · rw [regionPins, unpinRegions_regionPins, counted.count, holders]
    simp only [meets, Nat.add_sub_cancel]
  · rw [pinned, regions, regionPins]
    refine unpinRegions_sum bound (fun r lo hi => ?_) counted.sum
    rw [counted.count, holders, if_pos ((meets r).1 ⟨lo, hi⟩)]
    exact succ_pos _

end

variable {offset length : Nat}

lemma mem_spanRegions (pos : 0 < length) (r : Nat) :
    offset / e.blockSize ≤ r ∧ r < (offset + length - 1) / e.blockSize + 1 ↔
      Meets e.blockSize offset length r := by
  rw [Nat.lt_succ_iff, Nat.le_div_iff_mul_le e.block_pos, ← Nat.lt_succ_iff,
    Nat.div_lt_iff_lt_mul e.block_pos, succ_mul, Meets]
  omega

lemma fetchRegions_le (pos : 0 < length) (inside : offset + length ≤ e.size) :
    (offset + length - 1) / e.blockSize + 1 ≤ e.regionCount := by
  rw [succ_le_iff, lt_regionCount]
  have := div_mul_le_self (offset + length - 1) e.blockSize
  omega

lemma Accounted.pin (acc : Accounted s) {referenced} (pos : 0 < length)
    (inside : offset + length ≤ s.size) :
    Accounted { s.withEntry { s.pinRegions (offset / s.blockSize)
        (s.lastRegion (offset + length)) with referenced } with
      pins := (offset, length) :: s.pins } := by
  refine ⟨acc.sized, acc.claims, ?_, ?_, acc.parts.congr id⟩
  · intro p mem
    rcases mem_cons.1 mem with rfl | mem
    · exact inside
    · exact acc.inside p mem
  · refine acc.counted.add offset length (min_le_left _ _) (fun r => mem_regions pos inside) rfl
      rfl rfl fun r => ?_
    change ((offset, length) :: s.pins).countP
      (fun p => decide (Meets s.blockSize p.1 p.2 r)) + s.checkPins r +
        s.verifyingFetches r = _
    rw [countP_cons, Sys.holders, Sys.replyPins]
    simp only [decide_eq_true_eq]
    omega

lemma Accounted.unpin (acc : Accounted s) {waitTokens} (mem : (offset, length) ∈ s.pins)
    (pos : 0 < length) :
    Accounted { s.withEntry { s.unpinRegions (offset / s.blockSize)
        (s.lastRegion (offset + length)) with waitTokens } with
      pins := s.pins.erase (offset, length) } := by
  refine ⟨acc.sized, acc.claims, fun p found => acc.inside p (mem_of_mem_erase found), ?_,
    acc.parts.congr id⟩
  refine acc.counted.sub offset length (min_le_left _ _)
    (fun r => mem_regions pos (acc.inside _ mem)) rfl rfl rfl fun r => ?_
  change s.replyPins r + s.checkPins r + s.verifyingFetches r =
    (s.pins.erase (offset, length)).countP
      (fun p => decide (Meets s.blockSize p.1 p.2 r)) + s.checkPins r +
        s.verifyingFetches r + _
  rw [Sys.replyPins, (perm_cons_erase mem).countP_eq, countP_cons]
  simp only [decide_eq_true_eq]
  omega

lemma Accounted.pinNothing (acc : Accounted s) {pins}
    (inside : ∀ p ∈ pins, p.1 + p.2 ≤ s.size)
    (same : ∀ r, pins.countP (fun p => decide (Meets s.blockSize p.1 p.2 r)) =
      s.replyPins r) : Accounted { s.withEntry s.entry with pins } := by
  refine ⟨acc.sized, acc.claims, inside, ⟨fun r => ?_, acc.counted.sum⟩, acc.parts.congr id⟩
  change s.regionPins r =
    pins.countP (fun p => decide (Meets s.blockSize p.1 p.2 r)) + s.checkPins r +
      s.verifyingFetches r
  rw [same]
  exact acc.counted.count r

variable {r : Nat}

lemma not_meets_empty {b} : ¬ Meets b offset 0 r := fun h => absurd h.1 (lt_irrefl 0)

/-! ### Fetches -/

lemma verifyingFetches_cons {as a} (perm : s.activeClaims.Perm (a :: as)) (r : Nat) :
    s.verifyingFetches r = as.countP (fun a => a.verifying &&
        decide (Meets s.blockSize a.offset a.length r)) +
      if a.verifying = true ∧ Meets s.blockSize a.offset a.length r then 1 else 0 := by
  rw [Sys.verifyingFetches, perm.countP_eq, countP_cons]
  simp only [Bool.and_eq_true, decide_eq_true_eq]

lemma Accounted.newClaim (acc : Accounted s) {a} (claimed : Claimed s.entry e' a)
    {written retryReady} : Accounted { s.withEntry e' with written, retryReady } := by
  have wf := claimed.wf
  have idle : a.verifying = false := claimed.fresh.2.1
  obtain rfl := claimed.eq
  refine ⟨acc.sized, fun b mem => ?_, acc.inside, ⟨fun r => ?_, acc.counted.sum⟩,
    acc.parts.congr ?_⟩
  · rcases mem_append.1 mem with mem | mem
    · exact acc.claims b mem
    · obtain rfl := mem_singleton.1 mem
      exact ⟨wf.length_pos, wf.inside⟩
  · refine (acc.counted.count r).trans (congrArg (s.replyPins r + s.checkPins r + ·) ?_)
    simp only [Sys.verifyingFetches, Sys.withEntry, countP_append, countP_singleton, idle]
    rfl
  · rintro ⟨b, mem, verifying⟩
    rcases mem_append.1 mem with mem | mem
    · exact ⟨b, mem, verifying⟩
    · obtain rfl := mem_singleton.1 mem
      rw [idle] at verifying
      cases verifying

lemma Accounted.verify (acc : Accounted s) {claim a}
    (found : s.findFetch claim = some a) (idle : a.verifying = false)
    (noOps : s.checksumOps = 0) (uninstalled : s.checksumManifest ≠ .available) :
    Accounted (s.withEntry ((s.pinRegions (a.offset / s.blockSize)
      ((a.offset + a.length - 1) / s.blockSize + 1)).modifyFetch claim
        (fun a => { a with verifying := true }))) := by
  obtain ⟨mem, -⟩ := findFetch_fields found
  obtain ⟨pos, inside⟩ := acc.claims a mem
  have perm := perm_of_find? found
  have perm' := modifyFirst_perm (f := fun a : ActiveFetch => { a with verifying := true }) found
  refine ⟨acc.sized, fun b found => ?_, acc.inside, ?_, ?_⟩
  · rcases mem_cons.1 (perm'.mem_iff.1 found) with rfl | found
    · exact ⟨pos, inside⟩
    · exact acc.claims b (perm.mem_iff.2 (mem_cons_of_mem _ found))
  · refine acc.counted.add a.offset a.length (fetchRegions_le pos inside)
      (mem_spanRegions pos) rfl rfl rfl fun r => ?_
    have before := verifyingFetches_cons perm r
    have after : Sys.verifyingFetches (s.withEntry ((s.pinRegions
        (a.offset / s.blockSize)
        ((a.offset + a.length - 1) / s.blockSize + 1)).modifyFetch claim
          (fun a => { a with verifying := true }))) r = _ := verifyingFetches_cons perm' r
    rw [idle, if_neg (fun h => Bool.false_ne_true h.1)] at before
    simp only [true_and] at after
    change s.replyPins r + s.checkPins r + _ = s.replyPins r + s.checkPins r + _ + _
    rw [after, before]
    exact (add_assoc ..).symm
  · have p := acc.parts
    refine { p with
        checks := fun c mem => (p.checks c mem).congr rfl rfl rfl
        exclusive := fun _ => ⟨fun loading => ?_, uninstalled⟩ }
    have ops := p.ops
    rw [noOps, show s.checksumManifest = .loading from loading] at ops
    cases ops

section
variable (acc : Accounted s) (claim : CacheFetchClaim) {bitmap : Bitmap} {waitTokens : Nat}
  {data : Nat → UInt8} {ended : List CacheFetchClaim} {ops : List FileOp}
include acc

lemma Accounted.release {a} (found : s.findFetch claim = some a) :
    Accounted { s with
      bitmap, waitTokens
      regionPins := (s.releasePins a).regionPins
      pinnedRegions := (s.releasePins a).pinnedRegions
      activeClaims := s.activeClaims.eraseP (ActiveFetch.isFor claim)
      data, ended, ops } := by
  obtain ⟨pos, inside⟩ := acc.claims a (findFetch_fields found).1
  have perm := perm_of_find? found
  have left {b : ActiveFetch} (mem : b ∈ s.activeClaims.eraseP (ActiveFetch.isFor claim)) :
      b ∈ s.activeClaims := mem_of_mem_eraseP mem
  refine ⟨acc.sized, fun b mem => acc.claims b (left mem), acc.inside, ?_, acc.parts.congr ?_⟩
  · have before (r : Nat) := verifyingFetches_cons perm r
    unfold releasePins
    cases verifying : a.verifying with
    | false =>
      refine ⟨fun r =>
        (acc.counted.count r).trans (congrArg (s.replyPins r + s.checkPins r + ·) ?_),
        acc.counted.sum⟩
      rw [before r, verifying, if_neg fun h => Bool.false_ne_true h.1]
      rfl
    | true =>
      refine acc.counted.sub a.offset a.length (fetchRegions_le pos inside)
        (mem_spanRegions pos) rfl rfl rfl fun r => ?_
      rw [Sys.holders, before r]
      simp only [verifying, true_and]
      exact (add_assoc ..).symm
  · rintro ⟨b, mem, busy⟩
    exact ⟨b, left mem, busy⟩

end

lemma Accounted.check (acc : Accounted s) {i part} {partReady hashing}
    (available : s.checksumManifest = .available) (hp : s.checksumParts[i]? = some part)
    (hs : s.checksumStates[i]? = some .unverified) :
    Accounted { s.withEntry { s.pinRegions (part.offset / s.blockSize)
        (s.lastRegion (part.offset + part.size)) with
        checksumStates := s.checksumStates.set i .verifying
        checksumOps := s.checksumOps + 1 } with
      checks := s.verifyClaim i part :: s.checks, partReady, hashing } := by
  have mem := mem_of_getElem? hp
  refine { acc with counted := ?_, parts := acc.parts.check available hp hs }
  refine acc.counted.add part.offset part.size (min_le_left _ _)
    (fun r => mem_regions (acc.parts.tiled.pos part mem) (acc.parts.tiled.inside part mem)) rfl
    rfl rfl fun r => ?_
  change s.replyPins r + (s.verifyClaim i part :: s.checks).countP
    (fun c => decide (Meets s.blockSize c.offset c.size r)) + s.verifyingFetches r = _
  rw [countP_cons, Sys.holders, Sys.checkPins]
  simp only [decide_eq_true_eq]
  change s.replyPins r +
    (_ + if Meets s.blockSize part.offset part.size r then 1 else 0) +
    s.verifyingFetches r = _
  omega

lemma Accounted.finish (acc : Accounted s) {claim} (mem : claim ∈ s.checks) {new}
    (done : new.inProgress = false) {bitmap waitTokens} {verifiedOver} :
    Accounted { s.withEntry { s.unpinRegions (claim.offset / s.blockSize)
        (s.lastRegion (claim.offset + claim.size)) with
        bitmap
        checksumStates := s.checksumStates.set claim.part new
        checksumOps := s.checksumOps - 1
        waitTokens } with
      checks := s.checks.erase claim, verifiedOver } := by
  obtain ⟨pos, inside⟩ := check_inside acc.parts mem
  refine { acc with counted := ?_, parts := acc.parts.finish mem done }
  refine acc.counted.sub claim.offset claim.size (min_le_left _ _)
    (fun r => mem_regions pos inside) rfl rfl rfl fun r => ?_
  rw [Sys.holders, checkPins_erase mem r, ← add_assoc, Nat.add_right_comm]
  rfl

lemma Accounted.manifest (acc : Accounted s) {parts} {states manifest ops waitTokens}
    (kept : PartInv (s.withEntry { s.entry with
      checksumParts := parts, checksumStates := states, checksumManifest := manifest
      checksumOps := ops, waitTokens })) :
    Accounted (s.withEntry { s.entry with
      checksumParts := parts, checksumStates := states, checksumManifest := manifest
      checksumOps := ops, waitTokens }) :=
  { acc with counted := ⟨acc.counted.count, acc.counted.sum⟩, parts := kept }

lemma Accounted.retryPart (acc : Accounted s) {claim} (mem : claim ∈ s.checks)
    {waitTokens partReady} :
    Accounted { s.withEntry { s.entry with
        checksumStates := s.checksumStates.set claim.part .retrying
        waitTokens } with partReady } :=
  { acc with counted := ⟨acc.counted.count, acc.counted.sum⟩, parts := acc.parts.retry mem }

lemma Accounted.withEntry (acc : Accounted s) (same : SameAccounts s.entry e') :
    Accounted (s.withEntry e') := acc.same same rfl rfl

lemma Accounted.effect (acc : Accounted s) {act} (h : Effect s act s') : Accounted s' := by
  cases h with
  | idle idle =>
    obtain ⟨⟨referenced, clockHand, waitTokens, evictionDisabled, exported, stale, rfl⟩, -⟩ := idle
    exact acc.withEntry .rest
  | claim claimed => exact acc.newClaim claimed
  | write | hash | writePart | retryAgain | evictPunch | truncate =>
    exact acc.same (.refl _) rfl rfl
  | publish found =>
    refine acc.withEntry ⟨rfl, rfl, rfl, rfl, rfl, ?_, rfl, rfl, rfl, rfl, id⟩
    exact spans_modifyFirst (by intro a; rfl) _
  | verify found live idle complete noOps uninstalled =>
    exact acc.verify found idle noOps uninstalled
  | pin live pos inside => exact acc.pin pos inside
  | pinNothing inside =>
    refine acc.pinNothing (fun p mem => ?_) fun r => ?_
    · rcases mem_cons.1 mem with rfl | mem
      · exact inside
      · exact acc.inside p mem
    · rw [countP_cons, if_neg (by simpa using not_meets_empty)]
      rfl
  | unpin mem pos => exact acc.unpin mem pos
  | unpinNothing mem =>
    refine acc.pinNothing (fun p found => acc.inside p (mem_of_mem_erase found)) fun r => ?_
    rw [Sys.replyPins, (perm_cons_erase mem).countP_eq, countP_cons,
      if_neg (by simpa using not_meets_empty)]
    rfl
  | loadManifest unknown none => exact acc.manifest (acc.parts.load unknown none)
  | skipManifest unknown => exact acc.manifest (acc.parts.skip unknown)
  | installManifest loading tiled => exact acc.manifest (acc.parts.install loading tiled)
  | dropManifest loading => exact acc.manifest (acc.parts.giveUp loading)
  | check available hp hs => exact acc.check available hp hs
  | retryPart mem => exact acc.retryPart mem
  | @finishPart claim valid _ mem => exact acc.finish mem (by cases valid <;> rfl)
  | abandonPart mem => exact acc.finish mem rfl
  | finish _ found | rollback found => exact acc.release _ found
  | bad => exact acc.withEntry .rest
  | retry =>
    refine acc.same ⟨rfl, rfl, rfl, rfl, rfl, ?_, rfl, rfl, rfl, rfl, id⟩ rfl rfl
    exact spans_modifyFirst (by intro a; rfl) _
  | evict | evictStart | evictFinish => exact acc.same .rest rfl rfl

end

end Ngs3fs.Cache
