import Ngs3fs.Cache.Ready
import Ngs3fs.Cache.Write

/-!
# Pin accounting

Every call of an entry keeps its accounts (`Accounted`), the unchecked `pin` and the calls of a
writer included. -/

namespace Ngs3fs.Cache
open Loop CacheEntry Machine List

/-- In `Verifying` or `Retrying` state. -/
def Sys.busyParts (s : Sys) (r : Nat) : Nat :=
  (s.checksumParts.zip s.checksumStates).countP fun p =>
    p.2.inProgress && decide (Meets s.blockSize p.1.offset p.1.size r)

section
variable {s s' : Sys} {e e' : CacheEntry} {offset length r : Nat}

section
variable (acc : Accounted s) (claim : CacheFetchClaim) {bitmap : Bitmap} {waitTokens : Nat}
  {data : Nat → UInt8} {ended : List CacheFetchClaim} {ops : List FileOp}
include acc

lemma Accounted.endFetch :
    Accounted { s with
      entry := { endFetch { s.entry with bitmap } claim with waitTokens }
      data, ended, ops } := by
  cases found : s.findFetch claim with
  | none =>
    have none : findFetch { s.entry with bitmap } claim = none := found
    rw [CacheEntry.endFetch, none]
    exact acc.same .rest rfl rfl
  | some a =>
    rw [endFetch_eq found]
    exact acc.release claim found

end

/-! ### Calls that leave the accounts alone -/

lemma publishClean_same (claim : CacheFetchClaim) (published length : Nat) (final : Bool) :
    SameAccounts e (e.publishClean claim published length final) := by
  unfold publishClean
  split
  · exact .refl e
  split
  · exact .refl e
  · refine ⟨rfl, rfl, rfl, rfl, rfl, ?_, rfl, rfl, rfl, rfl, id⟩
    exact spans_modifyFirst (by intro a; rfl) _

lemma markBad_same (claim : CacheFetchClaim) : SameAccounts e (e.markBad claim) := by
  unfold markBad
  split
  · exact .rest
  split
  all_goals exact .rest

lemma beginRetry_same {claim ready}
    (h : e.beginRetry claim = .ok (e', ready)) : SameAccounts e e' := by
  unfold beginRetry at h
  split at h
  · cases h
  split at h
  · cases h
  split at h
  · cases h
  obtain ⟨rfl, -⟩ := Prod.mk.inj (Except.ok.inj h)
  split
  · exact .refl e
  · refine ⟨rfl, rfl, rfl, rfl, rfl, ?_, rfl, rfl, rfl, rfl, id⟩
    exact spans_modifyFirst (by intro a; rfl) _

lemma clockScan_same (n : Nat) : SameAccounts e (clockScan n e).1 := by
  obtain ⟨referenced, clockHand, scanned, -⟩ := clockScan_spec (e := e) n
  rw [scanned]
  exact .rest

lemma evictOneRegion_same (io : EvictIo) : SameAccounts e (e.evictOneRegion io).1 := by
  have scanned := clockScan_same (e := e) e.regionCount
  unfold evictOneRegion
  split
  · exact .refl e
  split
  · rename_i scan
    rw [scan] at scanned
    exact scanned
  · rename_i scan
    rw [scan] at scanned
    split
    · exact scanned
    split
    all_goals exact scanned.trans .rest

lemma claimLiveRegion_same : SameAccounts e e.claimLiveRegion.1 := by
  have scanned := clockScan_same (e := e) e.regionCount
  unfold claimLiveRegion
  split
  · exact .refl e
  split
  · rename_i scan
    rw [scan] at scanned
    exact scanned
  · rename_i scan
    rw [scan] at scanned
    exact scanned.trans .rest

lemma finishClaim_same {ev punched} (h : e.finishClaim ev punched = some e') :
    SameAccounts e e' := by
  obtain ⟨bitmap, -, rfl⟩ := Option.map_eq_some_iff.1 h
  exact .rest

/-! ### Steps -/

section
variable (acc : Accounted s) (claim : CacheFetchClaim) {data : Nat → UInt8}
  {ended : List CacheFetchClaim} {ops : List FileOp}
include acc

lemma Accounted.finishFetch :
    Accounted { s with entry := (s.entry.finishFetch claim).1, data, ended, ops } := by
  unfold CacheEntry.finishFetch
  split
  · exact acc.same .rest rfl rfl
  · exact acc.endFetch claim

lemma Accounted.rollbackFetch :
    Accounted { s with entry := s.rollbackFetch claim, data, ended, ops } := by
  unfold CacheEntry.rollbackFetch
  split
  · exact acc.same (.refl _) rfl rfl
  · exact acc.endFetch claim

end

/-- Where the effect is only known under the other invariants, the code itself says what becomes of
the pins. -/
lemma Accounted.step (acc : Accounted s) {act} (h : Cache.step s act = some s') : Accounted s' := by
  cases act with
  | claimFetch => exact acc.effect (claimFetch_effect acc.sized.1 h)
  | write => exact acc.effect (write_effect h)
  | publishClean =>
    cases h
    exact acc.withEntry (publishClean_same _ _ _ _)
  | finishFetch claim | failFetch claim =>
    cases h
    exact acc.finishFetch claim
  | rollbackFetch claim =>
    cases h
    exact acc.rollbackFetch claim
  | markBad =>
    cases h
    exact acc.withEntry (markBad_same _)
  | pinFetchVerification => exact acc.effect (pinFetchVerification_effect h)
  | beginRetry claim =>
    cases h
    rw [Sys.beginRetry]
    split
    · rename_i ok _
      exact acc.same (beginRetry_same ok) rfl rfl
    · exact acc.same (.refl _) rfl rfl
  | finishRetry claim valid io =>
    cases h
    have verdict : Accounted (s.withEntry (retryVerdictEntry s.entry claim valid)) := by
      cases valid with
      | true => exact acc.withEntry (publishClean_same _ _ _ _)
      | false => exact acc.withEntry (markBad_same _)
    exact verdict.finishFetch claim
  | pinClean => exact acc.effect (pinClean_effect h)
  | unpin => exact acc.effect (unpin_effect h)
  | touch =>
    cases h
    rw [touch]
    split
    · exact acc.withEntry (.refl _)
    · exact acc.withEntry .rest
  | disableEviction =>
    cases h
    exact acc.withEntry .rest
  | beginChecksumManifest => exact acc.effect (beginChecksumManifest_effect h)
  | finishChecksumManifest => exact acc.effect (finishChecksumManifest_effect h)
  | checksumManifestUnavailable => exact acc.effect (checksumManifestUnavailable_effect h)
  | claimChecksum => exact acc.effect (claimChecksum_effect h)
  | hashPart | writePart | punchClaim | truncate =>
    simp only [Cache.step] at h
    split at h
    · cases h
      exact acc.same (.refl _) rfl rfl
    · cases h
  | checksumMismatch => exact acc.effect (checksumMismatch_effect h)
  | beginChecksumRetry => exact acc.effect (beginChecksumRetry_effect acc.parts h)
  | finishChecksum => exact acc.effect (finishChecksum_effect acc.parts h)
  | abandonChecksum => exact acc.effect (abandonChecksum_effect acc.parts h)
  | evictOneRegion io =>
    cases h
    exact acc.same (evictOneRegion_same io) rfl rfl
  | claimLiveRegion =>
    have same := claimLiveRegion_same (e := s.entry)
    simp only [Cache.step] at h
    split at h
    · rename_i eq
      rw [eq] at same
      cases h
      exact acc.withEntry same
    · rename_i eq
      rw [eq] at same
      cases h
      exact acc.same same rfl rfl
  | finishClaim =>
    simp only [Cache.step] at h
    split at h
    · obtain ⟨e', ends, rfl⟩ := Option.map_eq_some_iff.1 h
      exact acc.same (finishClaim_same ends) rfl rfl
    · cases h
  | retireGeneration =>
    cases h
    refine acc.withEntry ?_
    simp only [retireGeneration]
    split
    · exact .refl _
    · exact .rest
  | tryExport verify =>
    cases h
    refine acc.withEntry ?_
    unfold tryExport
    split
    · exact .refl _
    split
    · exact .refl _
    · exact .rest

/-! ### The writer -/

lemma not_meets_beyond (inside : offset + length ≤ e.size) (beyond : ¬ r < e.regionCount) :
    ¬ Meets e.blockSize offset length r := by
  intro meets
  have past := meets.2.2
  rw [lt_regionCount] at beyond
  omega

section
variable (acc : Accounted s)
include acc

lemma Accounted.holders_beyond (beyond : ¬ r < s.regionCount) : s.holders r = 0 := by
  have replies : s.replyPins r = 0 := countP_eq_zero.2 fun p mem meets =>
    not_meets_beyond (acc.inside p mem) beyond (of_decide_eq_true meets)
  have checks : s.checkPins r = 0 := countP_eq_zero.2 fun c mem meets =>
    not_meets_beyond (check_inside acc.parts mem).2 beyond (of_decide_eq_true meets)
  have fetches : s.verifyingFetches r = 0 := countP_eq_zero.2 fun a mem meets =>
    not_meets_beyond (acc.claims a mem).2 beyond
      (of_decide_eq_true (Bool.and_eq_true_iff.1 meets).2)
  rw [Sys.holders, replies, checks, fetches]

lemma Accounted.grow {size} (grows : s.size ≤ size) (bound : size ≤ uint64Max)
    {referenced bitmap} :
    Accounted (s.withEntry { s.entry with
      size, referenced, bitmap
      writtenEnd := size
      regionPins := fun r => if r < s.regionCount then s.regionPins r else 0 }) := by
  have same : (fun r => if r < s.regionCount then s.regionPins r else 0) =
      s.regionPins := by
    funext r
    split
    · rfl
    · rename_i beyond
      rw [acc.counted.count, acc.holders_beyond beyond]
  have p := acc.parts
  rw [same]
  refine ⟨⟨bound, fun _ => rfl⟩, fun a mem => ?_, fun q mem => (acc.inside q mem).trans grows,
    ⟨acc.counted.count, ?_⟩, ?_⟩
  · obtain ⟨pos, inside⟩ := acc.claims a mem
    exact ⟨pos, inside.trans grows⟩
  · have more : s.regionCount ≤ regionCount { s.entry with size } := by
      refine le_of_forall_lt fun r inFile => ?_
      rw [lt_regionCount] at inFile ⊢
      exact inFile.trans_le grows
    change s.pinnedRegions = _
    rw [acc.counted.sum]
    refine Finset.sum_subset (Finset.range_subset_range.2 more) fun r _ beyond => ?_
    rw [Finset.mem_range] at beyond
    exact (acc.counted.count r).trans (acc.holders_beyond beyond)
  · exact { p with
        tiled := ⟨p.tiled.pos, fun part mem => (p.tiled.inside part mem).trans grows, p.tiled.order⟩
        checks := fun c mem => (p.checks c mem).congr rfl rfl rfl }

/-- What passes the checks of `publish_dirty` lets the file grow. -/
lemma Accounted.grows {writtenEnd} (live : ¬ (s.stale || !s.dirty) = true)
    (sequential : ¬ (offset ≠ s.writtenEnd ∨ length = 0 ∨ writtenEnd ≠ offset + length)) :
    s.size ≤ writtenEnd := by
  rw [Bool.or_eq_true, not_or, Bool.not_eq_true', Bool.not_eq_false] at live
  have ends := acc.sized.2 live.2
  omega

lemma Accounted.publishDirty {writtenEnd} (bound : writtenEnd ≤ uint64Max) :
    Accounted (s.attempt (s.publishDirty offset length writtenEnd)) := by
  unfold CacheEntry.publishDirty
  split
  · exact acc.withEntry (.refl _)
  · split
    · exact acc.withEntry (.refl _)
    · exact acc.grow (acc.grows ‹_› ‹_›) bound

lemma Accounted.pinAny (inside : offset + length ≤ s.size)
    (h : entryStep s (.pin offset length) = some s') : Accounted s' := by
  rw [entryStep, if_pos inside, CacheEntry.pin] at h
  split at h
  · rename_i ok
    split at ok
    · cases ok
    split at ok
    · obtain rfl := Except.ok.inj ok
      cases h
      rename_i empty
      obtain rfl := empty
      refine acc.pinNothing (fun p mem => ?_) fun r => ?_
      · rcases mem_cons.1 mem with rfl | mem
        · exact inside
        · exact acc.inside p mem
      · rw [countP_cons_of_neg (by simpa using not_meets_empty)]
        rfl
    · dsimp only at ok
      split at ok
      · cases ok
      · obtain rfl := Except.ok.inj ok
        cases h
        exact acc.pin (pos_of_ne_zero ‹_›) inside
  · cases h
    exact acc.withEntry (.refl _)

lemma Accounted.entryStep {act} (h : entryStep s act = some s') : Accounted s' := by
  cases act with
  | use act => exact acc.step h
  | pin offset length =>
    have inside : offset + length ≤ s.size := by
      by_contra outside
      rw [Cache.entryStep, if_neg outside] at h
      cases h
    exact acc.pinAny inside h
  | beginWrite =>
    obtain ⟨ends, ⟨⟩⟩ := Option.ite_none_right_eq_some.1 h
    unfold beginWrite
    split
    · exact acc.withEntry (.refl _)
    · exact acc.withEntry ⟨rfl, rfl, rfl, rfl, rfl, rfl, rfl, rfl, rfl, rfl,
        fun sized => ⟨sized.1, fun _ => ends⟩⟩
  | publishDirty offset length writtenEnd =>
    simp only [Cache.entryStep] at h
    split at h
    · cases h
      exact acc.publishDirty ‹_›
    · cases h
  | commitWrite | discardWrite =>
    cases h
    exact acc.withEntry .clears
  | detach preserve =>
    cases h
    unfold detach
    split
    all_goals exact acc.withEntry .rest

end

lemma Sys.Fresh.accounted (fresh : s.Fresh) : Accounted s := by
  refine ⟨fresh.sized, ?_, ?_, ⟨fun r => ?_, fresh.inv.pins.sum⟩, fresh.inv.parts⟩
  · rw [fresh.claims]
    exact forall_mem_nil _
  · rw [fresh.pins]
    exact forall_mem_nil _
  · rw [fresh.regionPins, Sys.holders, Sys.replyPins, Sys.checkPins, Sys.verifyingFetches,
        fresh.pins, fresh.checks, fresh.claims]
    rfl

lemma Sys.Fresh.run_accounted (fresh : s.Fresh) {acts}
    (run : run Cache.entryStep s acts = some s') : Accounted s' :=
  Machine.run_inv (fun _ _ _ acc h => acc.entryStep h) fresh.accounted run

/-! ### Verifiers and parts -/

lemma Accounted.checks_length (acc : Accounted s) :
    s.checks.length = s.checksumStates.countP PartState.inProgress := by
  have all : s.checks.countP (fun _ => true) = s.checks.length :=
    countP_eq_length.2 fun _ _ => rfl
  rw [← all]
  refine le_antisymm (countP_le_of_nodup_index acc.parts.distinct fun c mem _ => ?_)
    (countP_le_of_index CacheChecksumClaim.part fun i state found busy => ?_)
  · exact (acc.parts.checks c mem).state
  · obtain ⟨c, mem, part⟩ := acc.parts.busy i state found busy
    exact ⟨c, mem, rfl, part⟩

lemma Accounted.checkPins_eq (acc : Accounted s) (r : Nat) : s.checkPins r = s.busyParts r := by
  refine le_antisymm (countP_le_of_nodup_index acc.parts.distinct fun c mem meets => ?_)
    (countP_le_of_index CacheChecksumClaim.part fun i p found busy => ?_)
  · obtain ⟨part, hp, offset, size⟩ := (acc.parts.checks c mem).part
    obtain ⟨state, hs, busy⟩ := (acc.parts.checks c mem).state
    refine ⟨(part, state), getElem?_zip_eq_some.2 ⟨hp, hs⟩, ?_⟩
    rw [offset, size, busy]
    exact meets
  · obtain ⟨hp, hs⟩ := getElem?_zip_eq_some.1 found
    obtain ⟨busy, meets⟩ := Bool.and_eq_true_iff.1 busy
    obtain ⟨c, mem, rfl⟩ := acc.parts.busy i p.2 hs busy
    obtain ⟨part, hp', offset, size⟩ := (acc.parts.checks c mem).part
    obtain rfl := Option.some.inj (hp.symm.trans hp')
    refine ⟨c, mem, ?_, rfl⟩
    rw [← offset, ← size]
    exact meets

lemma Accounted.not_both (acc : Accounted s) {a} (mem : a ∈ s.activeClaims)
    (verifying : a.verifying = true) :
    ∀ state ∈ s.checksumStates, state.inProgress = false := by
  obtain ⟨-, unavailable⟩ := acc.parts.exclusive ⟨a, mem, verifying⟩
  have none := acc.parts.lengths
  rw [acc.parts.installed unavailable, length_nil, length_eq_zero_iff] at none
  rw [none]
  exact forall_mem_nil _

/-- **Pin accounting.** In every state that an entry reaches, the pins of a region count the pinned
ranges, the parts in progress and the fetches under verification that meet it; their sum and the
operation counter are kept exactly. -/
theorem pins_accounted (fresh : s.Fresh) {acts : List EntryAction}
    (run : run Cache.entryStep s acts = some s') :
    (∀ r, s'.regionPins r = s'.replyPins r + s'.busyParts r + s'.verifyingFetches r) ∧
    s'.pinnedRegions =
      ∑ r ∈ Finset.range s'.regionCount, s'.regionPins r ∧
    s'.checksumOps = s'.checksumStates.countP PartState.inProgress +
      (if s'.checksumManifest = .loading then 1 else 0) ∧
    (∀ a ∈ s'.activeClaims, a.verifying = true →
      ∀ state ∈ s'.checksumStates, state.inProgress = false) ∧
    (s'.activeClaims = [] → s'.pins = [] →
      (∀ state ∈ s'.checksumStates, state.inProgress = false) →
      s'.checksumManifest ≠ .loading →
      (∀ r, s'.regionPins r = 0) ∧ s'.pinnedRegions = 0 ∧
      s'.checksumOps = 0) := by
  have acc := fresh.run_accounted run
  have pins (r : Nat) : s'.regionPins r =
      s'.replyPins r + s'.busyParts r + s'.verifyingFetches r := by
    rw [acc.counted.count, Sys.holders, acc.checkPins_eq]
  have ops : s'.checksumOps = s'.checksumStates.countP PartState.inProgress +
      (if s'.checksumManifest = .loading then 1 else 0) := by
    rw [acc.parts.ops, acc.checks_length]
  refine ⟨pins, acc.counted.sum, ops, fun a mem => acc.not_both mem,
    fun noClaims noPins noParts idle => ?_⟩
  have noBusy : s'.checksumStates.countP PartState.inProgress = 0 :=
    countP_eq_zero.2 fun state mem busy => by
      rw [noParts state mem] at busy
      cases busy
  have zero (r : Nat) : s'.regionPins r = 0 := by
    have noChecks : s'.checks = [] := by
      rw [← length_eq_zero_iff, acc.checks_length, noBusy]
    rw [acc.counted.count, Sys.holders, Sys.replyPins, Sys.checkPins, Sys.verifyingFetches, noPins,
      noChecks, noClaims]
    rfl
  refine ⟨zero, ?_, ?_⟩
  · rw [acc.counted.sum]
    exact Finset.sum_eq_zero fun r _ => zero r
  · rw [ops, noBusy, if_neg idle]

end

/-- A writer appends twice and commits, and a reader pins what it has written. -/
def pinnedAfterGrowth : List EntryAction :=
  [.beginWrite, .publishDirty 0 40000 40000, .publishDirty 40000 50000 90000, .commitWrite,
    .use (.pinClean 0 90000)]

theorem pins_accounted_growing :
    ∃ s', run entryStep (Sys.empty twoPages 0) pinnedAfterGrowth = some s' ∧
      s'.size = 90000 ∧ s'.pinnedRegions = 2 ∧
      s'.regionPins 1 = s'.replyPins 1 + s'.busyParts 1 + s'.verifyingFetches 1 := by
  have fresh : (Sys.empty twoPages 0).Fresh := Sys.empty_fresh (by decide)
  have ran : run entryStep (Sys.empty twoPages 0) pinnedAfterGrowth = some _ :=
    run_final (by decide +kernel)
  exact ⟨_, ran, by decide +kernel, by decide +kernel, (pins_accounted fresh ran).1 1⟩

end Ngs3fs.Cache
