import Ngs3fs.Cache.Invariant

/-!
# What a step can do

`Effect` lists the effects of a step of the entry, region by region; every invariant is proved from
it, and `step_cases` is the only place that unfolds `step`. A call without effect (a refused pin, a
call with an ended claim) is `idle`: it moves at most reference bits, the clock hand, wake-up
tokens and one-way flags. -/

namespace Ngs3fs.Cache
open Loop CacheEntry Function

def Idle (e e' : CacheEntry) : Prop :=
  (∃ referenced clockHand waitTokens evictionDisabled exported stale,
    e' = { e with referenced, clockHand, waitTokens, evictionDisabled, exported, stale }) ∧
  (e.stale = true → e'.stale = true) ∧ (e.exported = true → e'.exported = true)

inductive Effect (s : Sys) : Action → Sys → Prop where
  | idle {act e'} : Idle s.entry e' → Effect s act (s.withEntry e')
  | claim {offset length expansion e' a} : Claimed s.entry e' a →
    s.claimFetch offset length expansion = .ok (e', some a.claim) →
    Effect s (.claimFetch offset length expansion)
      { s.withEntry e' with
        written := update s.written a.id 0
        retryReady := update s.retryReady a.id false }
  | write {claim length content a} : s.findFetch claim = some a →
    a.published ≤ s.written a.id → s.written a.id + length ≤ a.length →
    (a.retrying = true → s.retryReady a.id = true) →
    Effect s (.write claim length content)
      { s.withOps [.write (a.offset + s.written a.id) length content] with
        written := update s.written a.id (s.written a.id + length) }
  | publish {claim published length final a q waitTokens} : s.findFetch claim = some a →
    a.published ≤ q → q ≤ a.length → (q = a.length ∨ s.blockSize ∣ q) →
    (q = a.published ∨ q ≤ length) →
    (s.stale = false → published ≤ length → final = true → a.length ≤ length → q = a.length) →
    Effect s (.publishClean claim published length final)
      (s.withEntry { s.entry with
        bitmap := s.mapRegions (s.newlyPublished a q) (settle .clean)
        activeClaims := modifyFirst (ActiveFetch.isFor claim)
          (fun a => { a with published := q }) s.activeClaims
        waitTokens })
  | finish {act claim io a waitTokens ops} :
    act = .finishFetch claim io ∨ act = .failFetch claim io → s.findFetch claim = some a →
    (∀ op ∈ ops, ∃ r, a.tailHas s.blockSize r = true ∧
      s.blockPending (r * s.blockSize) = true ∧
      op = .punch (r * s.blockSize) s.blockSize) →
    Effect s act
      { s.withOps ops with
        entry := { s.entry with
          bitmap := s.mapRegions (a.tailHas s.blockSize) (settle .missing)
          regionPins := (s.releasePins a).regionPins
          pinnedRegions := (s.releasePins a).pinnedRegions
          activeClaims := s.activeClaims.eraseP (ActiveFetch.isFor claim)
          waitTokens }
        ended := claim :: s.ended }
  | rollback {claim a waitTokens} : s.findFetch claim = some a →
    Effect s (.rollbackFetch claim)
      { s.withEntry { s.entry with
          bitmap := s.mapRegions (a.tailHas s.blockSize) (priorState a)
          regionPins := (s.releasePins a).regionPins
          pinnedRegions := (s.releasePins a).pinnedRegions
          activeClaims := s.activeClaims.eraseP (ActiveFetch.isFor claim)
          waitTokens } with
        ended := claim :: s.ended }
  | bad {claim a waitTokens} : s.findFetch claim = some a → s.stale = false →
    Effect s (.markBad claim)
      (s.withEntry { s.entry with
        bitmap := s.mapRegions (a.owns s.blockSize) (fun _ _ => .bad)
        waitTokens })
  | verify {claim a} : s.findFetch claim = some a → s.stale = false →
    a.verifying = false → a.published = a.length → s.checksumOps = 0 →
    s.checksumManifest ≠ .available →
    s.rangeAllState a.offset a.length .clean = true →
    (∀ b ∈ s.activeClaims.eraseP (ActiveFetch.isFor claim),
      b.offset < a.offset + a.length → b.offset + b.length ≤ a.offset) →
    Effect s (.pinFetchVerification claim)
      (s.withEntry ((s.pinRegions (a.offset / s.blockSize)
        ((a.offset + a.length - 1) / s.blockSize + 1)).modifyFetch claim
          (fun a => { a with verifying := true })))
  | retry {claim a waitTokens} : s.findFetch claim = some a → s.stale = false →
    a.verifying = true → a.retrying = false →
    Effect s (.beginRetry claim)
      { s.withEntry (s.retried claim a waitTokens) with
        written := update s.written a.id 0
        retryReady := update s.retryReady a.id
          ((s.retried claim a waitTokens).retryPinsReady a.offset a.length) }
  | retryAgain {claim a} : s.findFetch claim = some a → a.retrying = true →
    Effect s (.beginRetry claim)
      { s.withEntry s.entry with
        retryReady := update s.retryReady a.id
          (s.retryReady a.id || s.retryPinsReady a.offset a.length) }
  | pin {offset length referenced} : s.stale = false → 0 < length →
    offset + length ≤ s.size → s.rangeAllState offset length .clean = true →
    s.checksumBlocked offset length = .unverified →
    Effect s (.pinClean offset length)
      { s.withEntry { s.pinRegions (offset / s.blockSize)
          (s.lastRegion (offset + length)) with referenced } with
        pins := (offset, length) :: s.pins }
  | pinNothing {offset} : offset ≤ s.size →
    Effect s (.pinClean offset 0) { s.withEntry s.entry with pins := (offset, 0) :: s.pins }
  | unpin {offset length waitTokens} : (offset, length) ∈ s.pins → 0 < length →
    Effect s (.unpin offset length)
      { s.withEntry { s.unpinRegions (offset / s.blockSize)
          (s.lastRegion (offset + length)) with waitTokens } with
        pins := s.pins.erase (offset, length) }
  | unpinNothing {offset} : (offset, 0) ∈ s.pins →
    Effect s (.unpin offset 0) { s.withEntry s.entry with pins := s.pins.erase (offset, 0) }
  | loadManifest : s.checksumManifest = .unknown →
    (∀ a ∈ s.activeClaims, a.verifying = false) →
    Effect s .beginChecksumManifest
      (s.withEntry { s.entry with
        checksumManifest := .loading, checksumOps := s.checksumOps + 1 })
  | skipManifest : s.checksumManifest = .unknown →
    Effect s .beginChecksumManifest
      (s.withEntry { s.entry with checksumManifest := .unavailable })
  | installManifest {parts waitTokens} : s.checksumManifest = .loading →
    Tiled s.size parts →
    Effect s (.finishChecksumManifest parts)
      (s.withEntry { s.entry with
        checksumParts := parts
        checksumStates := List.replicate parts.length .unverified
        checksumManifest := .available
        checksumOps := s.checksumOps - 1
        waitTokens })
  | dropManifest {act waitTokens} : s.checksumManifest = .loading →
    Effect s act
      (s.withEntry { s.entry with
        checksumParts := []
        checksumStates := []
        checksumManifest := .unavailable
        checksumOps := s.checksumOps - 1
        waitTokens })
  | check {offset length skip i part} : s.checksumManifest = .available →
    s.checksumParts[i]? = some part → s.checksumStates[i]? = some .unverified →
    s.rangeAllState part.offset part.size .clean = true →
    Effect s (.claimChecksum offset length skip)
      { s.withEntry { s.pinRegions (part.offset / s.blockSize)
          (s.lastRegion (part.offset + part.size)) with
          checksumStates := s.checksumStates.set i .verifying
          checksumOps := s.checksumOps + 1 } with
        checks := s.verifyClaim i part :: s.checks
        partReady := update s.partReady i false
        hashing := update s.hashing i ⟨0, fun _ => 0⟩ }
  | hash {claim length} : claim ∈ s.checks →
    (s.hashing claim.part).length + length ≤ claim.size →
    Effect s (.hashPart claim length) (s.hashPart claim length)
  | retryPart {act claim waitTokens ready} : claim ∈ s.checks →
    (ready = true → CacheEntry.retryPinsReady { s.entry with
      checksumStates := s.checksumStates.set claim.part .retrying } claim.offset claim.size =
        true) →
    Effect s act
      { s.withEntry { s.entry with
          checksumStates := s.checksumStates.set claim.part .retrying
          waitTokens } with
        partReady := update s.partReady claim.part (s.partReady claim.part || ready) }
  | writePart {claim position length content} : claim ∈ s.checks →
    s.partReady claim.part = true → position + length ≤ claim.size →
    Effect s (.writePart claim position length content)
      { s.withOps [.write (claim.offset + position) length content] with
        hashing := update s.hashing claim.part ⟨0, fun _ => 0⟩ }
  | finishPart {claim valid waitTokens} : claim ∈ s.checks →
    (valid = true → (s.hashing claim.part).length = claim.size) →
    Effect s (.finishChecksum claim valid)
      { s.withEntry { s.unpinRegions (claim.offset / s.blockSize)
          (s.lastRegion (claim.offset + claim.size)) with
          checksumStates := s.checksumStates.set claim.part (if valid then .verified else .bad)
          checksumOps := s.checksumOps - 1
          waitTokens } with
        checks := s.checks.erase claim
        verifiedOver := if valid then
          update s.verifiedOver claim.part (s.hashing claim.part).bytes
          else s.verifiedOver }
  | abandonPart {claim waitTokens} : claim ∈ s.checks →
    Effect s (.abandonChecksum claim)
      { s.withEntry { s.unpinRegions (claim.offset / s.blockSize)
          (s.lastRegion (claim.offset + claim.size)) with
          bitmap := s.bitmap.replace (claim.offset / kCacheBitmapUnit)
            (min s.pageCount ((claim.offset + claim.size - 1) / kCacheBitmapUnit + 1))
            .clean .missing
          checksumStates := s.checksumStates.set claim.part .unverified
          checksumOps := s.checksumOps - 1
          waitTokens } with
        checks := s.checks.erase claim }
  | evict {io r referenced clockHand waitTokens} : s.evictionRefused = false →
    r < s.regionCount → s.evictable r = true →
    Effect s (.evictOneRegion io)
      { s.withOps [.punch (r * s.blockSize) s.blockSize] with
        entry := { s.entry with
          bitmap := s.mapRegions (· == r) (fun _ s => if s = .clean then .missing else s)
          referenced, clockHand, waitTokens } }
  | evictStart {r referenced clockHand} : s.evictionRefused = false →
    r < s.regionCount → s.evictable r = true →
    Effect s .claimLiveRegion
      { s.withEntry { s.entry with
          bitmap := s.mapRegions (· == r) (fun _ s => if s = .clean then .readPending else s)
          referenced, clockHand } with
        evictions :=
          { offset := r * s.blockSize, length := s.blockSize,
            cleanPages := s.cleanPages r, punched := false } :: s.evictions }
  | evictPunch {ev} : ev ∈ s.evictions → ev.punched = false →
    Effect s (.punchClaim ev)
      { s.withOps [.punch ev.offset ev.length] with
        evictions := { ev with punched := true } :: s.evictions.erase ev }
  | evictFinish {ev waitTokens} : ev ∈ s.evictions →
    Effect s (.finishClaim ev)
      { s.withEntry { s.entry with
          bitmap := setPages s.bitmap ev.cleanPages
            (if ev.punched then .missing else .clean)
          waitTokens } with
        evictions := s.evictions.erase ev }
  | truncate {size} : s.stale = true → s.quiescent = true →
    Effect s (.truncate size) (s.withOps [.truncate size])

section
variable {s s' : Sys}

lemma Idle.refl (e : CacheEntry) : Idle e e :=
  ⟨⟨_, _, _, _, _, _, rfl⟩, id, id⟩

lemma Idle.tokens (e : CacheEntry) (waitTokens : Nat) : Idle e { e with waitTokens } :=
  ⟨⟨_, _, _, _, _, _, rfl⟩, id, id⟩

lemma Idle.clock (e : CacheEntry) (referenced : Nat → Bool) (clockHand : Nat) :
    Idle e { e with referenced, clockHand } :=
  ⟨⟨_, _, _, _, _, _, rfl⟩, id, id⟩

variable {offset length : Nat}

lemma claimFetch_effect (size_le : s.size ≤ uint64Max) {expansion}
    (h : step s (.claimFetch offset length expansion) = some s') :
    Effect s (.claimFetch offset length expansion) s' := by
  simp only [step] at h
  split at h
  · rename_i entry claim hc
    obtain ⟨a, rfl, claimed⟩ := claimFetch_some size_le hc
    cases h
    exact .claim claimed hc
  · cases h
    exact .idle (.refl _)

lemma write_effect {claim content} (h : step s (.write claim length content) = some s') :
    Effect s (.write claim length content) s' := by
  simp only [step] at h
  split at h
  · cases h
  · rename_i a found
    obtain ⟨guard, ⟨⟩⟩ := Option.ite_none_right_eq_some.1 h
    exact .write found guard.1 guard.2.1 guard.2.2

lemma publishClean_effect (inv : Inv s) (claim : CacheFetchClaim) (published length : Nat)
    (final : Bool) :
    Effect s (.publishClean claim published length final)
      (s.withEntry (s.publishClean claim published length final)) := by
  cases found : s.findFetch claim with
  | none =>
    rw [publishClean_of_none found]
    exact .idle (.refl _)
  | some a =>
    have wf := inv.claims.wf a (findFetch_fields found).1
    obtain ⟨q, tokens, h1, h2, h3, h4, h5, eq⟩ := publishClean_eq wf found published length final
    rw [eq]
    exact .publish found h1 h2 h3 h4 h5

lemma Sys.finishFetch_of_none {claim} (h : s.findFetch claim = none)
    (io : Nat → Bool) : s.finishFetch claim io = s.withEntry s.notifyWaiters := by
  simp only [Sys.finishFetch, CacheEntry.finishFetch_of_none h, Sys.endedBy, h, List.filter_nil]
  rfl

lemma finishFetch_effect (inv : Inv s) {act} (claim : CacheFetchClaim) (io : Nat → Bool)
    (hact : act = .finishFetch claim io ∨ act = .failFetch claim io) :
    Effect s act (s.finishFetch claim io) := by
  cases found : s.findFetch claim with
  | none =>
    rw [Sys.finishFetch_of_none found]
    exact .idle (.tokens _ _)
  | some a =>
    have wf := inv.claims.wf a (findFetch_fields found).1
    obtain ⟨tokens, eq, punches⟩ := finishFetch_eq wf found
    simp only [Sys.finishFetch, Sys.endedBy, found, eq]
    refine .finish hact found ?_
    intro op hop
    exact punches op (List.mem_of_mem_filter hop)

lemma rollbackFetch_effect (inv : Inv s) (claim : CacheFetchClaim) : Effect s (.rollbackFetch claim)
      { s.withEntry (s.rollbackFetch claim) with ended := s.endedBy claim } := by
  cases found : s.findFetch claim with
  | none =>
    simp only [Sys.endedBy, found, rollbackFetch_of_none found]
    exact .idle (.refl _)
  | some a =>
    have wf := inv.claims.wf a (findFetch_fields found).1
    obtain ⟨tokens, eq⟩ := rollbackFetch_eq wf found
    simp only [Sys.endedBy, found, eq]
    exact .rollback found

lemma markBad_effect (inv : Inv s) (claim : CacheFetchClaim) :
    Effect s (.markBad claim) (s.withEntry (s.markBad claim)) := by
  cases found : s.findFetch claim with
  | none =>
    rw [markBad_of_none (.inl found)]
    exact .idle (.tokens _ _)
  | some a =>
    cases live : s.stale with
    | true =>
      rw [markBad_of_none (.inr live)]
      exact .idle (.tokens _ _)
    | false =>
      have wf := inv.claims.wf a (findFetch_fields found).1
      obtain ⟨tokens, eq⟩ := markBad_eq wf found live
      rw [eq]
      exact .bad found live

lemma pinFetchVerification_effect {claim} (h : step s (.pinFetchVerification claim) = some s') :
    Effect s (.pinFetchVerification claim) s' := by
  have idle : Effect s (.pinFetchVerification claim) (s.withEntry s.entry) := .idle (.refl _)
  simp only [step] at h
  split at h
  · rename_i entry flag hv
    cases h
    unfold pinFetchVerification at hv
    split at hv
    · cases hv
      exact idle
    rename_i a found
    obtain ⟨-, -, -, ho, hl⟩ := findFetch_fields found
    rw [← ho, ← hl] at hv
    split at hv
    · cases hv
      exact idle
    rename_i live
    split at hv
    · cases hv
      exact idle
    rename_i fresh
    split at hv
    · cases hv
      exact idle
    rename_i complete
    simp only [not_or, not_not, Bool.not_eq_false] at complete
    split at hv
    · cases hv
      exact idle
    rename_i alone
    simp only at hv
    split at hv
    · cases hv
    · obtain ⟨rfl, -⟩ := Prod.mk.inj (Except.ok.inj hv)
      refine .verify found (by simpa using live) (by simpa using fresh) complete.1 complete.2.1
        complete.2.2.1 complete.2.2.2 ?_
      intro b hb
      simp only [List.any_eq_true, Bool.and_eq_true, decide_eq_true_eq, not_exists,
        not_and] at alone
      intro hlt
      exact not_lt.1 (alone b hb hlt)
  · cases h
    exact idle

lemma beginRetry_effect (inv : Inv s) (claim : CacheFetchClaim) :
    Effect s (.beginRetry claim) (s.beginRetry claim) := by
  have idle (h : s.beginRetry claim = s.withEntry s.entry) :
      Effect s (.beginRetry claim) (s.beginRetry claim) := by
    rw [h]
    exact .idle (.refl _)
  cases found : s.findFetch claim with
  | none =>
    apply idle
    simp only [Sys.beginRetry, beginRetry, found]
  | some a =>
    obtain ⟨hm, -, -, ho, hl⟩ := findFetch_fields found
    have wf := inv.claims.wf a hm
    cases live : s.stale with
    | true =>
      apply idle
      simp only [Sys.beginRetry, beginRetry, found, live, if_true]
    | false =>
      cases hv : a.verifying with
      | false =>
        apply idle
        simp [Sys.beginRetry, beginRetry, found, live, hv]
      | true =>
        cases hr : a.retrying with
        | false =>
          obtain ⟨tokens, eq⟩ := beginRetry_first wf found live hv hr
          simp only [Sys.beginRetry, eq, found, hr, Bool.false_and, Bool.false_or,
            Bool.false_eq_true, if_false, ← ho, ← hl]
          exact .retry found live hv hr
        | true =>
          have eq := beginRetry_again found live hv hr
          simp only [Sys.beginRetry, eq, found, hr, Bool.true_and, if_true, ← ho, ← hl]
          exact .retryAgain found hr

lemma pinClean_effect (h : step s (.pinClean offset length) = some s') :
    Effect s (.pinClean offset length) s' := by
  obtain ⟨inside, h⟩ := Option.ite_none_right_eq_some.1 h
  split at h
  · rename_i entry hp
    cases h
    obtain ⟨live, ⟨rfl, rfl⟩ | ⟨pos, clean, unblocked, referenced, rfl⟩⟩ := pinClean_true hp
    · exact .pinNothing inside
    · exact .pin live pos inside clean unblocked
  · cases h
    exact .idle (.refl _)

lemma unpin_effect (h : step s (.unpin offset length) = some s') :
    Effect s (.unpin offset length) s' := by
  obtain ⟨mem, ⟨⟩⟩ := Option.ite_none_right_eq_some.1 h
  by_cases pos : length = 0
  · subst pos
    exact .unpinNothing mem
  · simp only [unpin, if_neg pos]
    exact .unpin mem (Nat.pos_of_ne_zero pos)

lemma beginChecksumManifest_effect (h : step s .beginChecksumManifest = some s') :
    Effect s .beginChecksumManifest s' := by
  have idle : Effect s .beginChecksumManifest (s.withEntry s.entry) := .idle (.refl _)
  simp only [step] at h
  split at h
  · rename_i entry flag hm
    cases h
    unfold beginChecksumManifest at hm
    split at hm
    · cases hm
      exact idle
    split at hm
    · cases hm
    split at hm
    · obtain ⟨rfl, -⟩ := Prod.mk.inj (Except.ok.inj hm)
      split
      · exact .skipManifest ‹_›
      · exact idle
    split at hm
    · cases hm
      exact idle
    rename_i unknown
    split at hm
    · cases hm
      exact idle
    rename_i none
    cases hm
    refine .loadManifest (not_not.1 unknown) ?_
    simpa using none
  · cases h
    exact idle

lemma finishChecksumManifest_effect {parts} (h : step s (.finishChecksumManifest parts) = some s') :
    Effect s (.finishChecksumManifest parts) s' := by
  obtain ⟨loading, ⟨⟩⟩ := Option.ite_none_right_eq_some.1 h
  simp only [finishChecksumManifest, notifyWaiters]
  by_cases valid : (!s.stale && !parts.isEmpty &&
      tileEnd s.size parts 0 == some s.size) = true
  · simp only [valid, if_true]
    simp only [Bool.and_eq_true, beq_iff_eq] at valid
    exact .installManifest loading (tiled_of_tileEnd valid.2).1
  · simp only [valid]
    exact .dropManifest loading

lemma checksumManifestUnavailable_effect (h : step s .checksumManifestUnavailable = some s') :
    Effect s .checksumManifestUnavailable s' := by
  simp only [step] at h
  split at h
  · cases h
    exact .dropManifest ‹_›
  · cases h

lemma claimChecksum_effect {skip} (h : step s (.claimChecksum offset length skip) = some s') :
    Effect s (.claimChecksum offset length skip) s' := by
  simp only [step] at h
  split at h
  · cases h
    exact .idle (.refl _)
  · rename_i entry claim hc
    split at h
    · rename_i verify
      obtain ⟨-, available, -, i, part, h1, h2, h3, rfl, rfl⟩ := claimChecksum_verify hc verify
      cases h
      exact .check available h1 h2 h3
    · cases h
      exact .idle (.refl _)

variable {claim : CacheChecksumClaim}

lemma checksumMismatch_effect (h : step s (.checksumMismatch claim) = some s') :
    Effect s (.checksumMismatch claim) s' := by
  obtain ⟨mem, ⟨⟩⟩ := Option.ite_none_right_eq_some.1 h
  simp only [checksumMismatch]
  split
  · have retry : Effect s (.checksumMismatch claim)
        { s.withEntry { s.entry with
            checksumStates := s.checksumStates.set claim.part .retrying
            waitTokens := s.waitTokens + s.waiters } with
          partReady := update s.partReady claim.part (s.partReady claim.part || false) } :=
      .retryPart mem nofun
    rw [Bool.or_false, update_eq_self] at retry
    exact retry
  · exact .idle (.tokens _ _)

lemma beginChecksumRetry_effect (parts : PartInv s)
    (h : step s (.beginChecksumRetry claim) = some s') :
    Effect s (.beginChecksumRetry claim) s' := by
  obtain ⟨mem, h⟩ := Option.ite_none_right_eq_some.1 h
  obtain ⟨state, hs, busy⟩ := (parts.checks claim mem).state
  have epoch := (parts.checks claim mem).epoch
  by_cases live : s.stale = true
  · have refused : s.beginChecksumRetry claim =
        .error (.systemError .ESTALE "retry retired cache checksum") := by
      simp only [beginChecksumRetry, hs, if_pos (Or.inl live)]
    rw [refused] at h
    cases h
    exact .idle (.refl _)
  · obtain ⟨tokens, eq⟩ := beginChecksumRetry_ok hs busy epoch (by simpa using live)
    rw [eq] at h
    cases h
    exact .retryPart mem id

lemma finishChecksum_effect (parts : PartInv s) {valid}
    (h : step s (.finishChecksum claim valid) = some s') :
    Effect s (.finishChecksum claim valid) s' := by
  obtain ⟨guard, ⟨⟩⟩ := Option.ite_none_right_eq_some.1 h
  obtain ⟨state, hs, busy⟩ := (parts.checks claim guard.1).state
  have epoch := (parts.checks claim guard.1).epoch
  simp only [finishChecksum, hs, epoch, busy, ne_eq, not_true_eq_false, Bool.true_eq_false,
    or_self, if_false]
  exact .finishPart guard.1 guard.2

lemma abandonChecksum_effect (parts : PartInv s) (h : step s (.abandonChecksum claim) = some s') :
    Effect s (.abandonChecksum claim) s' := by
  obtain ⟨mem, ⟨⟩⟩ := Option.ite_none_right_eq_some.1 h
  obtain ⟨state, hs, busy⟩ := (parts.checks claim mem).state
  obtain ⟨part, hp, ho, hsz⟩ := (parts.checks claim mem).part
  have epoch := (parts.checks claim mem).epoch
  have inside := parts.tiled.inside part (List.mem_of_getElem? hp)
  have stop : min s.size (claim.offset + claim.size) = claim.offset + claim.size := by
    omega
  simp only [abandonChecksum, hs, epoch, busy, ne_eq, not_true_eq_false, Bool.true_eq_false,
    or_self, if_false, stop]
  exact .abandonPart mem

lemma evictOneRegion_effect (io : EvictIo) :
    Effect s (.evictOneRegion io) { s.withOps (s.entry.evictOneRegion io).2 with
      entry := (s.entry.evictOneRegion io).1 } := by
  unfold evictOneRegion
  split
  · exact .idle (.refl _)
  rename_i accepted
  have pos : 0 < s.regionCount := by
    simp only [evictionRefused, Bool.or_eq_true, beq_iff_eq, not_or] at accepted
    omega
  obtain ⟨referenced, clockHand, scanned, chosen⟩ := clockScan_spec (e := s.entry)
    s.regionCount
  split
  · rename_i e hscan
    rw [hscan] at scanned
    obtain rfl := scanned
    exact .idle (.clock _ _ _)
  · rename_i e r hscan
    rw [hscan] at scanned chosen
    obtain rfl := scanned
    obtain ⟨inside, evictable⟩ := chosen r rfl pos
    have hr := lt_regionCount.1 inside
    have pages : cleanPages { s.entry with referenced, clockHand } r = s.cleanPages r := rfl
    split
    · exact .idle (.clock _ _ _)
    split
    · have same : setPages (setPages s.bitmap (s.cleanPages r) .missing)
          (s.cleanPages r) .clean = s.bitmap := by
        funext page
        rw [setPages_apply, setPages_apply]
        split
        · rename_i mem
          exact ((mem_cleanPages hr).1 mem).2.2.symm
        · rfl
      simp only [pages, same]
      exact .idle (.clock _ _ _)
    · simp only [pages, setPages_cleanPages hr]
      exact .evict (by simpa using accepted) inside evictable

lemma claimLiveRegion_effect (h : step s .claimLiveRegion = some s') :
    Effect s .claimLiveRegion s' := by
  simp only [step] at h
  by_cases accepted : s.evictionRefused = true
  · simp only [claimLiveRegion, if_pos accepted] at h
    cases h
    exact .idle (.refl _)
  have pos : 0 < s.regionCount := by
    simp only [evictionRefused, Bool.or_eq_true, beq_iff_eq, not_or] at accepted
    omega
  obtain ⟨referenced, clockHand, scanned, chosen⟩ := clockScan_spec (e := s.entry)
    s.regionCount
  rcases hscan : clockScan s.regionCount s.entry with ⟨e, choice⟩
  rw [hscan] at scanned chosen
  obtain rfl := scanned
  cases choice with
  | none =>
    simp only [claimLiveRegion, if_neg accepted, hscan] at h
    cases h
    exact .idle (.clock _ _ _)
  | some r =>
    obtain ⟨inside, evictable⟩ := chosen r rfl pos
    have pages : cleanPages { s.entry with referenced, clockHand } r = s.cleanPages r := rfl
    simp only [claimLiveRegion, if_neg accepted, hscan, pages,
      setPages_cleanPages (lt_regionCount.1 inside)] at h
    cases h
    exact .evictStart (by simpa using accepted) inside evictable

lemma finishClaim_effect (inv : Inv s) {ev}
    (h : step s (.finishClaim ev) = some s') : Effect s (.finishClaim ev) s' := by
  obtain ⟨mem, h⟩ := Option.ite_none_right_eq_some.1 h
  have wf := inv.pages.evict_wf ev mem
  have pending : ∀ page ∈ ev.cleanPages, s.bitmap page = .readPending := by
    intro page hp
    rw [inv.pages.evict ev mem page (wf.pages page hp).1 (wf.pages page hp).2, if_pos hp]
  rw [finishClaim, finishPages_eq wf.nodup pending] at h
  cases h
  exact .evictFinish mem

def retryVerdict (claim : CacheFetchClaim) (valid : Bool) : Action :=
  if valid then .publishClean claim 0 claim.length true else .markBad claim

def retryVerdictEntry (e : CacheEntry) (claim : CacheFetchClaim) (valid : Bool) : CacheEntry :=
  if valid then e.publishClean claim 0 claim.length true else e.markBad claim

lemma findFetch_retryVerdict (inv : Inv s) (claim : CacheFetchClaim) (valid : Bool) :
    ∃ q : ActiveFetch → Nat, (retryVerdictEntry s.entry claim valid).findFetch claim =
      (s.findFetch claim).map fun a => { a with published := q a } := by
  cases valid with
  | true =>
    change ∃ q : ActiveFetch → Nat,
      (s.publishClean claim 0 claim.length true).findFetch claim = _
    cases found : s.findFetch claim with
    | none => exact ⟨ActiveFetch.published, by rw [publishClean_of_none found, found]; rfl⟩
    | some a =>
      have wf := inv.claims.wf a (findFetch_fields found).1
      obtain ⟨q, tokens, -, -, -, -, -, eq⟩ := publishClean_eq wf found 0 claim.length true
      have moved : (modifyFirst (ActiveFetch.isFor claim) (fun a => { a with published := q })
          s.activeClaims).find? (ActiveFetch.isFor claim) =
          (s.findFetch claim).map fun a => { a with published := q } :=
        find?_modifyFirst fun _ => rfl
      rw [eq]
      exact ⟨fun _ => q, moved.trans (by rw [found])⟩
  | false =>
    have same : (s.markBad claim).activeClaims = s.activeClaims := by
      unfold markBad
      split
      · rfl
      · split <;> rfl
    refine ⟨ActiveFetch.published, ?_⟩
    change (s.markBad claim).findFetch claim = (s.findFetch claim).map id
    rw [findFetch, same, ← findFetch, Option.map_id]
    rfl

/-- `finish_retry` has two effects, one after the other. -/
theorem step_cases (inv : Inv s) {act} (h : step s act = some s') :
    Effect s act s' ∨ ∃ claim valid io t, act = .finishRetry claim valid io ∧
      t = s.withEntry (retryVerdictEntry s.entry claim valid) ∧
      Effect s (retryVerdict claim valid) t ∧ s' = t.finishFetch claim io := by
  cases act with
  | claimFetch => exact .inl (claimFetch_effect inv.claims.sized.1 h)
  | write => exact .inl (write_effect h)
  | publishClean =>
    cases h
    exact .inl (publishClean_effect inv _ _ _ _)
  | finishFetch =>
    cases h
    exact .inl (finishFetch_effect inv _ _ (.inl rfl))
  | failFetch =>
    cases h
    exact .inl (finishFetch_effect inv _ _ (.inr rfl))
  | rollbackFetch =>
    cases h
    exact .inl (rollbackFetch_effect inv _)
  | markBad =>
    cases h
    exact .inl (markBad_effect inv _)
  | pinFetchVerification => exact .inl (pinFetchVerification_effect h)
  | beginRetry =>
    cases h
    exact .inl (beginRetry_effect inv _)
  | finishRetry claim valid io =>
    cases h
    refine .inr ⟨claim, valid, io, _, rfl, rfl, ?_, ?_⟩
    · cases valid with
      | true => exact publishClean_effect inv _ _ _ _
      | false => exact markBad_effect inv _
    · have ended : s.endedBy claim =
          (s.withEntry (retryVerdictEntry s.entry claim valid)).endedBy claim := by
        obtain ⟨q, found⟩ := findFetch_retryVerdict inv claim valid
        simp only [Sys.endedBy, Sys.withEntry, found]
        cases s.findFetch claim <;> rfl
      simp only [ended]
      rfl
  | pinClean => exact .inl (pinClean_effect h)
  | unpin => exact .inl (unpin_effect h)
  | touch offset length =>
    cases h
    refine .inl (.idle ?_)
    unfold touch
    split
    · exact .refl _
    · exact ⟨⟨_, _, _, _, _, _, rfl⟩, id, id⟩
  | disableEviction =>
    cases h
    exact .inl (.idle ⟨⟨_, _, _, _, _, _, rfl⟩, id, id⟩)
  | beginChecksumManifest => exact .inl (beginChecksumManifest_effect h)
  | finishChecksumManifest => exact .inl (finishChecksumManifest_effect h)
  | checksumManifestUnavailable => exact .inl (checksumManifestUnavailable_effect h)
  | claimChecksum => exact .inl (claimChecksum_effect h)
  | hashPart claim length =>
    obtain ⟨guard, ⟨⟩⟩ := Option.ite_none_right_eq_some.1 h
    exact .inl (.hash guard.1 guard.2)
  | checksumMismatch => exact .inl (checksumMismatch_effect h)
  | beginChecksumRetry => exact .inl (beginChecksumRetry_effect inv.parts h)
  | writePart claim position length content =>
    obtain ⟨guard, ⟨⟩⟩ := Option.ite_none_right_eq_some.1 h
    exact .inl (.writePart guard.1 guard.2.1 guard.2.2)
  | finishChecksum => exact .inl (finishChecksum_effect inv.parts h)
  | abandonChecksum => exact .inl (abandonChecksum_effect inv.parts h)
  | evictOneRegion io =>
    cases h
    exact .inl (evictOneRegion_effect io)
  | claimLiveRegion => exact .inl (claimLiveRegion_effect h)
  | punchClaim ev =>
    obtain ⟨guard, ⟨⟩⟩ := Option.ite_none_right_eq_some.1 h
    exact .inl (.evictPunch guard.1 guard.2)
  | finishClaim => exact .inl (finishClaim_effect inv h)
  | retireGeneration =>
    cases h
    refine .inl (.idle ?_)
    simp only [retireGeneration]
    split
    · exact .refl _
    · exact ⟨⟨_, _, _, _, _, _, rfl⟩, fun _ => rfl, id⟩
  | truncate size =>
    obtain ⟨guard, ⟨⟩⟩ := Option.ite_none_right_eq_some.1 h
    exact .inl (.truncate guard.1 guard.2)
  | tryExport verify =>
    cases h
    refine .inl (.idle ?_)
    unfold tryExport
    split
    · exact .refl _
    split
    · exact .refl _
    · exact ⟨⟨_, _, _, _, _, _, rfl⟩, id, fun _ => rfl⟩

end

end Ngs3fs.Cache
