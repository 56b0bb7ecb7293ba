import Ngs3fs.Cache.Step

/-!
# The invariant of an entry

What holds in every reachable state of an entry, in four groups: who owns which region
(`ClaimInv`), what the bitmap says about owned regions (`PageInv`), what the pin counters count
(`PinInv`), and how the part states relate to the verifiers at work (`PartInv`). Each group has a
`congr` lemma for steps that leave its components alone. -/

namespace Ngs3fs.Cache

def Eviction.holds (blockSize : Nat) (region : Nat) (ev : Eviction) : Bool :=
  ev.offset == region * blockSize

namespace Sys

def owners (s : Sys) (region : Nat) : Nat :=
  s.activeClaims.countP (fun a => a.owns s.blockSize region) +
    s.evictions.countP (Eviction.holds s.blockSize region)

def replyPins (s : Sys) (region : Nat) : Nat :=
  s.pins.countP fun p => decide (Meets s.blockSize p.1 p.2 region)

def fetchPins (s : Sys) (region : Nat) : Nat :=
  s.activeClaims.countP fun a =>
    a.verifying && a.rangeHas s.blockSize region

def checkPins (s : Sys) (region : Nat) : Nat :=
  s.checks.countP fun c => decide (Meets s.blockSize c.offset c.size region)

end Sys

/-- The file of a writer ends where what it has written ends. -/
def CacheEntry.Sized (e : CacheEntry) : Prop :=
  e.size ≤ uint64Max ∧ (e.dirty = true → e.writtenEnd = e.size)

/-- Claims are well formed, told apart by their ids, and own disjoint regions. -/
structure ClaimInv (s : Sys) : Prop where
  sized : s.Sized
  wf : ∀ a ∈ s.activeClaims, a.Wf s.entry
  ids : (s.activeClaims.map ActiveFetch.id).Nodup
  ended : ∀ c ∈ s.ended, c.id < s.nextClaimId ∧
    ∀ a ∈ s.activeClaims, a.id ≠ c.id
  owner : ∀ r, s.owners r ≤ 1

structure Eviction.Wf (e : CacheEntry) (ev : Eviction) : Prop where
  region : ∃ r, ev.offset = r * e.blockSize ∧ ev.length = e.blockSize ∧
    r * e.blockSize < e.size
  marked : ev.cleanPages ≠ []
  nodup : ev.cleanPages.Nodup
  pages : ∀ page ∈ ev.cleanPages, page < e.pageCount ∧
    ev.holds e.blockSize (e.pageBlock page) = true

/-- A tail is pending or bad, an eviction has marked its clean pages pending, and no other page is
pending. -/
structure PageInv (s : Sys) : Prop where
  evict_wf : ∀ ev ∈ s.evictions, ev.Wf s.entry
  tail : ∀ a ∈ s.activeClaims, ∀ page < s.pageCount,
    a.tailHas s.blockSize (s.pageBlock page) = true →
      s.bitmap page = .readPending ∨ s.bitmap page = .bad
  evict : ∀ ev ∈ s.evictions, ∀ page < s.pageCount,
    ev.holds s.blockSize (s.pageBlock page) = true →
      s.bitmap page = if page ∈ ev.cleanPages then .readPending else .missing
  pending : ∀ page < s.pageCount, s.bitmap page = .readPending →
    (∃ a ∈ s.activeClaims,
      a.tailHas s.blockSize (s.pageBlock page) = true) ∨
    ∃ ev ∈ s.evictions, page ∈ ev.cleanPages

/-- The pins count the replies, part verifiers and verified fetches of each region, and a region
someone fills or punches is not pinned. -/
structure PinInv (s : Sys) : Prop where
  inside : ∀ p ∈ s.pins, p.1 + p.2 ≤ s.size
  count : ∀ r, s.regionPins r = s.replyPins r + s.checkPins r + s.fetchPins r
  sum : s.pinnedRegions = ∑ r ∈ Finset.range s.regionCount, s.regionPins r
  tail_free : ∀ a ∈ s.activeClaims, a.verifying = false → ∀ r,
    a.tailHas s.blockSize r = true → s.regionPins r = 0
  evict_free : ∀ ev ∈ s.evictions, ∀ r, ev.holds s.blockSize r = true →
    s.regionPins r = 0

structure CheckWf (e : CacheEntry) (c : CacheChecksumClaim) : Prop where
  epoch : c.epoch = e.epoch
  part : ∃ part, e.checksumParts[c.part]? = some part ∧ part.offset = c.offset ∧ part.size = c.size
  state : ∃ state, e.checksumStates[c.part]? = some state ∧ state.inProgress = true

/-- Part states, the verifiers at work, and the counter of checksum operations. -/
structure PartInv (s : Sys) : Prop where
  tiled : Tiled s.size s.checksumParts
  lengths : s.checksumStates.length = s.checksumParts.length
  installed : s.checksumManifest ≠ .available → s.checksumParts = []
  checks : ∀ c ∈ s.checks, CheckWf s.entry c
  distinct : (s.checks.map CacheChecksumClaim.part).Nodup
  busy : ∀ i, ∀ state, s.checksumStates[i]? = some state → state.inProgress = true →
    ∃ c ∈ s.checks, c.part = i
  ops : s.checksumOps =
    s.checks.length + if s.checksumManifest = .loading then 1 else 0
  exclusive : (∃ a ∈ s.activeClaims, a.verifying = true) →
    s.checksumManifest ≠ .loading ∧ s.checksumManifest ≠ .available

structure Inv (s : Sys) : Prop where
  claims : ClaimInv s
  pages : PageInv s
  pins : PinInv s
  parts : PartInv s

section
variable {s : Sys}

lemma ActiveFetch.Wf.congr {e e'} {a : ActiveFetch} (wf : a.Wf e)
    (config : e'.config = e.config) (size : e'.size = e.size) (epoch : e'.epoch = e.epoch)
    (next : e.nextClaimId ≤ e'.nextClaimId) : a.Wf e' := by
  have count : e'.pageCount = e.pageCount := by rw [CacheEntry.pageCount, size]; rfl
  constructor
  · rw [config]; exact wf.offset_dvd
  · exact wf.length_pos
  · rw [size]; exact wf.inside
  · rw [config, size]; exact wf.stop
  · exact wf.published_le
  · rw [config]; exact wf.published_dvd
  · exact wf.verifying
  · exact wf.retrying
  · rw [epoch]; exact wf.epoch
  · exact lt_of_lt_of_le wf.id_lt next
  · rw [count]; exact wf.prior_length
  · exact wf.prior

lemma Eviction.Wf.congr {e e'} {ev : Eviction} (wf : ev.Wf e)
    (config : e'.config = e.config) (size : e'.size = e.size) : ev.Wf e' := by
  have count : e'.pageCount = e.pageCount := by rw [CacheEntry.pageCount, size]; rfl
  constructor
  · rw [config, size]; exact wf.region
  · exact wf.marked
  · exact wf.nodup
  · rw [count, config]; exact wf.pages

lemma CheckWf.congr {e e' c} (wf : CheckWf e c)
    (epoch : e'.epoch = e.epoch) (parts : e'.checksumParts = e.checksumParts)
    (states : e'.checksumStates = e.checksumStates) : CheckWf e' c := by
  constructor
  · rw [epoch]; exact wf.epoch
  · rw [parts]; exact wf.part
  · rw [states]; exact wf.state

variable {bitmap : Bitmap} {referenced : Nat → Bool} {regionPins : Nat → Nat}
  {activeClaims : List ActiveFetch} {checksumParts : List CacheChecksumPart}
  {checksumStates : List PartState} {checksumManifest : ManifestState}
  {nextClaimId clockHand checksumOps pinnedRegions waiters waitTokens : Nat}
  {evictionDisabled detached stale dirty exported : Bool}
  {data : Nat → UInt8} {written : Nat → Nat} {retryReady partReady : Nat → Bool}
  {pins : List (Nat × Nat)} {checks : List CacheChecksumClaim} {hashing : Nat → Hashed}
  {verifiedOver : Nat → Nat → UInt8} {evictions : List Eviction} {ended : List CacheFetchClaim}
  {ops : List FileOp}

lemma ClaimInv.congr (h : ClaimInv s) :
    ClaimInv { s with
      bitmap, referenced, regionPins, checksumParts, checksumStates, clockHand, checksumOps
      pinnedRegions, checksumManifest, evictionDisabled, detached, stale, exported, waiters
      waitTokens
      data, written, retryReady, pins, checks, partReady, hashing, verifiedOver, ops } :=
  { h with wf := fun a ha => (h.wf a ha).congr rfl rfl rfl (le_refl _) }

lemma PageInv.congr (h : PageInv s) :
    PageInv { s with
      referenced, regionPins, checksumParts, checksumStates, nextClaimId, clockHand, checksumOps
      pinnedRegions, checksumManifest, evictionDisabled, detached, stale, dirty, exported, waiters
      waitTokens
      data, written, retryReady, pins, checks, partReady, hashing, verifiedOver, ended, ops } :=
  { h with evict_wf := fun ev hev => (h.evict_wf ev hev).congr rfl rfl }

lemma PinInv.congr (h : PinInv s) :
    PinInv { s with
      bitmap, referenced, checksumParts, checksumStates, nextClaimId, clockHand, checksumOps
      checksumManifest, evictionDisabled, detached, stale, dirty, exported, waiters, waitTokens
      data, written, retryReady, partReady, hashing, verifiedOver, ended, ops } :=
  { h with }

lemma PartInv.congr (h : PartInv s) (claims : (∃ a ∈ activeClaims, a.verifying = true) →
      ∃ a ∈ s.activeClaims, a.verifying = true) :
    PartInv { s with
      bitmap, referenced, regionPins, activeClaims, nextClaimId, clockHand, pinnedRegions
      evictionDisabled, detached, stale, dirty, exported, waiters, waitTokens
      data, written, retryReady, pins, partReady, hashing, verifiedOver, evictions, ended, ops } :=
  { h with
      checks := fun c hc => (h.checks c hc).congr rfl rfl rfl
      exclusive := fun verifying => h.exclusive (claims verifying) }

end

end Ngs3fs.Cache
