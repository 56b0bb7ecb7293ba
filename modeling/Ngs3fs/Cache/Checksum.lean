import Ngs3fs.Cache.Tail

/-!
# Reply pins and part verification

The pins of replies (`pin_clean`, `unpin`) and the verification of manifest parts: the manifest is
loaded once, a part is claimed, hashed by its owner, perhaps fetched again, and finished or
abandoned. The binary search of `checksum_blocked_locked` finds, on the sorted parts of an
installed manifest, the first part that does not end before the range. -/

namespace Ngs3fs.Cache
open Loop Nat List

structure Tiled (size : Nat) (parts : List CacheChecksumPart) : Prop where
  pos : ∀ part ∈ parts, 0 < part.size
  inside : ∀ part ∈ parts, part.offset + part.size ≤ size
  order : parts.Pairwise fun p q => p.offset + p.size ≤ q.offset

namespace CacheEntry

def lastRegion (e : CacheEntry) (stop : Nat) : Nat :=
  min e.regionCount ((stop - 1) / e.blockSize + 1)

def blockedScan (stop : Nat) : List (CacheChecksumPart × PartState) → PartState → PartState
  | [], blocked => blocked
  | (part, state) :: parts, blocked =>
    if stop ≤ part.offset then blocked
    else if state = .bad then .bad
    else blockedScan stop parts (if state = .retrying then .retrying else blocked)

/-- The part state that keeps readers out of a range (`checksum_blocked_locked`); `unverified`,
coded zero, means none. -/
def checksumBlocked (e : CacheEntry) (offset length : Nat) : PartState :=
  if e.stale ∨ e.size ≤ offset ∨ length = 0 then .unverified
  else
    blockedScan (offset + min length (e.size - offset))
      ((e.checksumParts.zip e.checksumStates).dropWhile fun (part, _) =>
        decide (part.offset + part.size ≤ offset)) .unverified

/-- `pin_clean`. -/
def pinClean (e : CacheEntry) (offset length : Nat) : Except CacheError (CacheEntry × Bool) :=
  if e.stale then .ok (e, false)
  else if length = 0 then .ok (e, true)
  else if !e.rangeAllState offset length .clean ||
      e.checksumBlocked offset length != .unverified then .ok (e, false)
  else
    let first := offset / e.blockSize
    let last := e.lastRegion (offset + length)
    if e.pinOverflow first last then .error (.overflowError "cache region pin count overflow")
    else
      let e := e.pinRegions first last
      .ok ({ e with
        referenced := forRange first last e.referenced fun referenced r =>
          Function.update referenced r true }, true)

/-- `unpin`. -/
def unpin (e : CacheEntry) (offset length : Nat) : CacheEntry :=
  if length = 0 then e
  else
    let first := offset / e.blockSize
    let last := e.lastRegion (offset + length)
    let released := (range' first (last - first)).any fun r => e.regionPins r != 0
    notifyWaitersIf released (e.unpinRegions first last)

/-- `touch`. -/
def touch (e : CacheEntry) (offset length : Nat) : CacheEntry :=
  if length = 0 ∨ e.regionCount = 0 then e
  else
    { e with
      referenced := forRange (offset / e.blockSize) (e.lastRegion (offset + length))
        e.referenced fun referenced r => Function.update referenced r true }

/-- Without waiting; the flag makes the caller the loader. -/
def beginChecksumManifest (e : CacheEntry) : Except CacheError (CacheEntry × Bool) :=
  if !e.stale && e.checksumManifest == .loading then .ok (e, false)
  else if e.stale then .error (.systemError .ESTALE "stale cache generation")
  else if e.exported then
    .ok (if e.checksumManifest = .unknown then { e with checksumManifest := .unavailable } else e,
      false)
  else if e.checksumManifest ≠ .unknown then .ok (e, false)
  else if e.activeClaims.any ActiveFetch.verifying then .ok (e, false)
  else .ok ({ e with checksumManifest := .loading, checksumOps := e.checksumOps + 1 }, true)

/-- The end of the parts, if they tile from `offset` (`finish_checksum_manifest`). -/
def tileEnd (size : Nat) : List CacheChecksumPart → Nat → Option Nat
  | [], offset => some offset
  | part :: parts, offset =>
    if part.offset ≠ offset ∨ part.size = 0 ∨ size < offset ∨ size - offset < part.size ∨
        part.value.isEmpty then none
    else tileEnd size parts (offset + part.size)

/-- `finish_checksum_manifest`. -/
def finishChecksumManifest (e : CacheEntry) (parts : List CacheChecksumPart) : CacheEntry :=
  let valid := !e.stale && !parts.isEmpty && tileEnd e.size parts 0 == some e.size
  notifyWaiters
    { e with
      checksumParts := if valid then parts else []
      checksumStates := if valid then replicate parts.length .unverified else []
      checksumManifest := if valid then .available else .unavailable
      checksumOps := e.checksumOps - 1 }

/-- `checksum_manifest_unavailable`. -/
def checksumManifestUnavailable (e : CacheEntry) : CacheEntry :=
  notifyWaiters
    { e with
      checksumParts := []
      checksumStates := []
      checksumManifest := .unavailable
      checksumOps := e.checksumOps - 1 }

def actionClaim (action : CacheChecksumAction) : CacheChecksumClaim :=
  { action, offset := 0, size := 0, epoch := 0, part := 0, algorithm := 0, value := "" }

def verifyClaim (e : CacheEntry) (i : Nat) (part : CacheChecksumPart) : CacheChecksumClaim :=
  { action := .verify, offset := part.offset, size := part.size, epoch := e.epoch, part := i,
    algorithm := part.algorithm, value := part.value }

def claimChecksumFrom (e : CacheEntry) (offset stop : Nat) (skipInProgress : Bool) :
    Nat → List (CacheChecksumPart × PartState) → Except CacheError (CacheEntry × CacheChecksumClaim)
  | _, [] => .ok (e, actionClaim .none)
  | i, (part, state) :: parts =>
    if stop ≤ part.offset ∨ part.offset + part.size ≤ offset then
      claimChecksumFrom e offset stop skipInProgress (i + 1) parts
    else if state = .bad then .ok (e, actionClaim .bad)
    else if state.inProgress then
      if skipInProgress then claimChecksumFrom e offset stop skipInProgress (i + 1) parts
      else .ok (e, actionClaim .wait)
    else if state ≠ .unverified ∨ e.rangeAllState part.offset part.size .clean = false then
      claimChecksumFrom e offset stop skipInProgress (i + 1) parts
    else
      let first := part.offset / e.blockSize
      let last := e.lastRegion (part.offset + part.size)
      if e.pinOverflow first last then .error (.overflowError "cache region pin count overflow")
      else
        .ok ({ e.pinRegions first last with
          checksumStates := e.checksumStates.set i .verifying
          checksumOps := e.checksumOps + 1 }, e.verifyClaim i part)

/-- `claim_checksum`. -/
def claimChecksum (e : CacheEntry) (offset length : Nat) (skipInProgress : Bool) :
    Except CacheError (CacheEntry × CacheChecksumClaim) :=
  if e.stale then .error (.systemError .ESTALE "stale cache generation")
  else if e.checksumManifest ≠ .available ∨ length = 0 ∨ e.exported ∨ e.size ≤ offset then
    .ok (e, actionClaim .none)
  else
    e.claimChecksumFrom offset (offset + min length (e.size - offset)) skipInProgress 0
      (e.checksumParts.zip e.checksumStates)

/-- Takes a part with a wrong digest back from readers. -/
def checksumMismatch (e : CacheEntry) (claim : CacheChecksumClaim) : CacheEntry :=
  notifyWaiters
    (if !e.stale && claim.epoch == e.epoch && e.checksumStates[claim.part]? == some .verifying then
      { e with checksumStates := e.checksumStates.set claim.part .retrying }
    else e)

/-- One turn of waiting (`begin_checksum_retry_locked`). -/
def beginChecksumRetry (e : CacheEntry) (claim : CacheChecksumClaim) :
    Except CacheError (CacheEntry × Bool) :=
  match e.checksumStates[claim.part]? with
  | none => .error (.systemError .ESTALE "retry retired cache checksum")
  | some state =>
    if e.stale ∨ claim.epoch ≠ e.epoch ∨ state.inProgress = false then
      .error (.systemError .ESTALE "retry retired cache checksum")
    else
      let e :=
        if state = .verifying then
          notifyWaiters { e with checksumStates := e.checksumStates.set claim.part .retrying }
        else e
      .ok (e, e.retryPinsReady claim.offset claim.size)

/-- `finish_checksum`. -/
def finishChecksum (e : CacheEntry) (claim : CacheChecksumClaim) (valid : Bool) : CacheEntry :=
  match e.checksumStates[claim.part]? with
  | none => e
  | some state =>
    if claim.epoch ≠ e.epoch ∨ state.inProgress = false then e
    else
      let e := e.unpinRegions (claim.offset / e.blockSize)
        (e.lastRegion (claim.offset + claim.size))
      notifyWaiters
        { e with
          checksumStates := e.checksumStates.set claim.part (if valid then .verified else .bad)
          checksumOps := e.checksumOps - 1 }

/-- Clean pages are dropped so that they are fetched again. -/
def abandonChecksum (e : CacheEntry) (claim : CacheChecksumClaim) : CacheEntry :=
  match e.checksumStates[claim.part]? with
  | none => e
  | some state =>
    if claim.epoch ≠ e.epoch ∨ state.inProgress = false then e
    else
      let stop := min e.size (claim.offset + claim.size)
      let bitmap := e.bitmap.replace (claim.offset / kCacheBitmapUnit)
        (min e.pageCount ((stop - 1) / kCacheBitmapUnit + 1)) .clean .missing
      let e := e.unpinRegions (claim.offset / e.blockSize) (e.lastRegion stop)
      notifyWaiters
        { e with
          bitmap
          checksumStates := e.checksumStates.set claim.part .unverified
          checksumOps := e.checksumOps - 1 }

variable {e e' : CacheEntry}

lemma pinRegions_regionPins (first last r : Nat) : (e.pinRegions first last).regionPins r =
      e.regionPins r + if first ≤ r ∧ r < last then 1 else 0 := by
  change forRange first last e.regionPins _ r = _
  rw [forRange_update first last e.regionPins (fun _ n => n + 1)]
  split <;> rfl

lemma unpinRegions_regionPins (first last r : Nat) : (e.unpinRegions first last).regionPins r =
      e.regionPins r - if first ≤ r ∧ r < last then 1 else 0 := by
  change forRange first last e.regionPins _ r = _
  rw [forRange_update first last e.regionPins (fun _ n => n - 1)]
  split <;> rfl

variable {offset length : Nat}

lemma mem_regions {r} (pos : 0 < length) (inside : offset + length ≤ e.size) :
    offset / e.blockSize ≤ r ∧ r < e.lastRegion (offset + length) ↔
      Meets e.blockSize offset length r := by
  rw [lastRegion, lt_min_iff, lt_regionCount, Nat.lt_succ_iff, le_div_iff_mul_le e.block_pos,
    ← Nat.lt_succ_iff, div_lt_iff_lt_mul e.block_pos, succ_mul, Meets]
  omega

lemma pinClean_true (h : e.pinClean offset length = .ok (e', true)) :
    e.stale = false ∧ (length = 0 ∧ e' = e ∨
      0 < length ∧ e.rangeAllState offset length .clean = true ∧
        e.checksumBlocked offset length = .unverified ∧
        ∃ referenced, e' = { e.pinRegions (offset / e.blockSize)
          (e.lastRegion (offset + length)) with referenced }) := by
  unfold pinClean at h
  split at h
  · cases h
  rename_i live
  refine ⟨by simpa using live, ?_⟩
  split at h
  · cases h
    exact .inl ⟨‹_›, rfl⟩
  rename_i pos
  split at h
  · cases h
  rename_i clean
  simp only [Bool.or_eq_true, Bool.not_eq_true', bne_iff_ne, not_or, Bool.not_eq_false,
    not_not] at clean
  simp only at h
  split at h
  · cases h
  · obtain ⟨rfl, -⟩ := Prod.mk.inj (Except.ok.inj h)
    exact .inr ⟨pos_of_ne_zero pos, clean.1, clean.2, _, rfl⟩

variable {claim : CacheChecksumClaim}

lemma claimChecksumFrom_verify {stop skip i} {parts}
    (h : e.claimChecksumFrom offset stop skip i parts = .ok (e', claim))
    (verify : claim.action = .verify) :
    ∃ k part, parts[k]? = some (part, .unverified) ∧
      e.rangeAllState part.offset part.size .clean = true ∧ claim = e.verifyClaim (i + k) part ∧
      e' = { e.pinRegions (part.offset / e.blockSize)
          (e.lastRegion (part.offset + part.size)) with
        checksumStates := e.checksumStates.set (i + k) .verifying
        checksumOps := e.checksumOps + 1 } := by
  induction parts generalizing i with
  | nil =>
    cases h
    cases verify
  | cons p parts ih =>
    obtain ⟨part, state⟩ := p
    have later (h : e.claimChecksumFrom offset stop skip (i + 1) parts = .ok (e', claim)) :
        ∃ k part', ((part, state) :: parts)[k]? = some (part', .unverified) ∧
          e.rangeAllState part'.offset part'.size .clean = true ∧
          claim = e.verifyClaim (i + k) part' ∧
          e' = { e.pinRegions (part'.offset / e.blockSize)
              (e.lastRegion (part'.offset + part'.size)) with
            checksumStates := e.checksumStates.set (i + k) .verifying
            checksumOps := e.checksumOps + 1 } := by
      obtain ⟨k, part', h1, h2, h3, h4⟩ := ih h
      refine ⟨k + 1, part', h1, h2, ?_, ?_⟩
      · rw [h3, add_right_comm, add_assoc]
      · rw [h4, add_right_comm, add_assoc]
    rw [claimChecksumFrom] at h
    split at h
    · exact later h
    split at h
    · cases h
      cases verify
    split at h
    · split at h
      · exact later h
      · cases h
        cases verify
    split at h
    · exact later h
    rename_i ready
    simp only [not_or, not_not, Bool.not_eq_false] at ready
    simp only at h
    split at h
    · cases h
    · obtain ⟨rfl, rfl⟩ := Prod.mk.inj (Except.ok.inj h)
      refine ⟨0, part, ?_, ready.2, rfl, rfl⟩
      rw [ready.1]
      rfl

lemma claimChecksum_verify {skip} (h : e.claimChecksum offset length skip = .ok (e', claim))
    (verify : claim.action = .verify) :
    e.stale = false ∧ e.checksumManifest = .available ∧ e.exported = false ∧ ∃ i part,
      e.checksumParts[i]? = some part ∧ e.checksumStates[i]? = some .unverified ∧
      e.rangeAllState part.offset part.size .clean = true ∧ claim = e.verifyClaim i part ∧
      e' = { e.pinRegions (part.offset / e.blockSize)
          (e.lastRegion (part.offset + part.size)) with
        checksumStates := e.checksumStates.set i .verifying
        checksumOps := e.checksumOps + 1 } := by
  unfold claimChecksum at h
  split at h
  · cases h
  split at h
  · cases h
    cases verify
  rename_i live wanted
  simp only [not_or, not_not, Bool.not_eq_true] at live wanted
  refine ⟨live, wanted.1, wanted.2.2.1, ?_⟩
  obtain ⟨k, part, h1, h2, h3, h4⟩ := claimChecksumFrom_verify h verify
  rw [getElem?_zip_eq_some] at h1
  rw [zero_add] at h3 h4
  exact ⟨k, part, h1.1, h1.2, h2, h3, h4⟩

lemma beginChecksumRetry_ok {state} (hs : e.checksumStates[claim.part]? = some state)
    (busy : state.inProgress = true) (epoch : claim.epoch = e.epoch) (live : e.stale = false) :
    ∃ waitTokens, e.beginChecksumRetry claim =
      .ok ({ e with checksumStates := e.checksumStates.set claim.part .retrying, waitTokens },
        retryPinsReady { e with checksumStates := e.checksumStates.set claim.part .retrying }
          claim.offset claim.size) := by
  have refused : ¬ (e.stale = true ∨ claim.epoch ≠ e.epoch ∨ state.inProgress = false) := by
    simp [live, epoch, busy]
  cases state with
  | verifying =>
    simp only [beginChecksumRetry, hs, if_neg refused, if_true]
    exact ⟨e.waitTokens + e.waiters, rfl⟩
  | retrying =>
    have same : e.checksumStates.set claim.part .retrying = e.checksumStates := by
      obtain ⟨hi, hv⟩ := List.getElem?_eq_some_iff.1 hs
      rw [← hv]
      exact set_getElem_self hi
    simp only [beginChecksumRetry, hs, if_neg refused, same, reduceCtorEq, if_false]
    exact ⟨e.waitTokens, rfl⟩
  | unverified | verified | bad => cases busy

lemma tiled_of_tileEnd {size start stop parts} (h : tileEnd size parts start = some stop) :
    Tiled size parts ∧ ∀ part ∈ parts, start ≤ part.offset := by
  induction parts generalizing start with
  | nil => exact ⟨⟨nofun, nofun, .nil⟩, nofun⟩
  | cons part parts ih =>
    rw [tileEnd] at h
    split at h
    · cases h
    rename_i ok
    obtain ⟨⟨pos, inside, order⟩, after⟩ := ih h
    refine ⟨⟨forall_mem_cons.2 ⟨by omega, pos⟩, forall_mem_cons.2 ⟨by omega, inside⟩, ?_⟩, ?_⟩
    · refine pairwise_cons.2 ⟨?_, order⟩
      intro q hq
      have := after q hq
      omega
    · refine forall_mem_cons.2 ⟨by omega, fun q hq => ?_⟩
      have := after q hq
      omega

/-! ### What keeps readers out of a range -/

section
open List
variable {stop : Nat} {parts : List (CacheChecksumPart × PartState)}

/-- A part in the state has a byte of the range. -/
def Blocks (e : CacheEntry) (offset length : Nat) (state : PartState) : Prop :=
  ∃ part b, (part, state) ∈ e.checksumParts.zip e.checksumStates ∧ offset ≤ b ∧
    b < offset + length ∧
    part.offset ≤ b ∧ b < part.offset + part.size

lemma pairwise_zip {α β : Type} {R} {l : List α} (order : l.Pairwise R)
    (m : List β) : (l.zip m).Pairwise fun p q => R p.1 q.1 := by
  induction l generalizing m with
  | nil => exact .nil
  | cons a l ih =>
    cases m with
    | nil => exact .nil
    | cons b m =>
      rw [pairwise_cons] at order
      refine .cons (fun p mem => ?_) (ih order.2 m)
      exact order.1 p.1 (of_mem_zip (a := p.1) (b := p.2) mem).1

section
variable (order : parts.Pairwise fun p q => p.1.offset + p.1.size ≤ q.1.offset)
include order

lemma mem_dropWhile_end (pos : ∀ p ∈ parts, 0 < p.1.size) {p} :
    p ∈ parts.dropWhile (fun p => decide (p.1.offset + p.1.size ≤ offset)) ↔
      p ∈ parts ∧ offset < p.1.offset + p.1.size := by
  induction parts with
  | nil => simp
  | cons q parts ih =>
    rw [pairwise_cons] at order
    rw [forall_mem_cons] at pos
    by_cases ends : q.1.offset + q.1.size ≤ offset
    · rw [dropWhile_cons_of_pos (by simpa using ends), ih order.2 pos.2, mem_cons]
      refine and_congr_left fun after => ⟨.inr, ?_⟩
      rintro (rfl | later)
      · omega
      · exact later
    · rw [dropWhile_cons_of_neg (by simpa using ends)]
      refine (and_iff_left_of_imp fun mem => ?_).symm
      obtain rfl | later := mem_cons.1 mem
      · exact Nat.lt_of_not_le ends
      · have := order.1 p later
        omega

/-- The scan sees the parts that begin before `stop`: in an ordered list they come first. -/
lemma blockedScan_spec (blocked : PartState) :
    (∃ p ∈ parts, p.1.offset < stop ∧ p.2 = .bad) ∧ blockedScan stop parts blocked = .bad ∨
      (¬ ∃ p ∈ parts, p.1.offset < stop ∧ p.2 = .bad) ∧
        ((∃ p ∈ parts, p.1.offset < stop ∧ p.2 = .retrying) ∧
            blockedScan stop parts blocked = .retrying ∨
          (¬ ∃ p ∈ parts, p.1.offset < stop ∧ p.2 = .retrying) ∧
            blockedScan stop parts blocked = blocked) := by
  induction parts generalizing blocked with
  | nil => exact .inr ⟨by simp, .inr ⟨by simp, rfl⟩⟩
  | cons q parts ih =>
    obtain ⟨part, state⟩ := q
    rw [pairwise_cons] at order
    rw [exists_mem_cons_iff, exists_mem_cons_iff, blockedScan]
    by_cases past : stop ≤ part.offset
    · have none (s : PartState) : ¬ ((part.offset < stop ∧ state = s) ∨
          ∃ p ∈ parts, p.1.offset < stop ∧ p.2 = s) := by
        rintro (⟨before, -⟩ | ⟨p, mem, before, -⟩)
        · omega
        · have : part.offset + part.size ≤ p.1.offset := order.1 p mem
          omega
      exact .inr ⟨none _, .inr ⟨none _, if_pos past⟩⟩
    · rw [if_neg past]
      cases state with
      | bad => exact .inl ⟨.inl ⟨Nat.lt_of_not_le past, rfl⟩, rfl⟩
      | retrying =>
        have rest := ih order.2 .retrying
        simp only [reduceCtorEq, and_false, false_or, if_false, if_true, and_true,
          Nat.lt_of_not_le past, true_or, true_and, not_true_eq_false, false_and,
            or_false] at rest ⊢
        obtain found | ⟨none, found | found⟩ := rest
        · exact .inl found
        all_goals exact .inr ⟨none, found.2⟩
      | _ => simpa using ih order.2 blocked

end

lemma blocks_iff (tiled : Tiled e.size e.checksumParts) (inside : offset < e.size)
    (pos : 0 < length) {state} :
    e.Blocks offset length state ↔
      ∃ p ∈ (e.checksumParts.zip e.checksumStates).dropWhile fun p =>
          decide (p.1.offset + p.1.size ≤ offset),
        p.1.offset < offset + min length (e.size - offset) ∧ p.2 = state := by
  have sizes : ∀ p ∈ e.checksumParts.zip e.checksumStates, 0 < p.1.size :=
    fun p mem => tiled.pos p.1 (of_mem_zip (a := p.1) (b := p.2) mem).1
  constructor
  · rintro ⟨part, b, mem, starts, ends, lower, upper⟩
    refine ⟨(part, state),
      (mem_dropWhile_end (pairwise_zip tiled.order _) sizes).2 ⟨mem, ?_⟩, ?_, rfl⟩
    · show offset < part.offset + part.size
      omega
    · have : part.offset + part.size ≤ e.size := tiled.inside part (of_mem_zip mem).1
      show part.offset < _
      omega
  · rintro ⟨⟨part, _⟩, mem, before, rfl⟩
    obtain ⟨mem, after⟩ := (mem_dropWhile_end (pairwise_zip tiled.order _) sizes).1 mem
    have : 0 < part.size := sizes _ mem
    dsimp only at before after
    exact ⟨part, max offset part.offset, mem, by omega, by omega, by omega, by omega⟩

lemma checksumBlocked_spec (tiled : Tiled e.size e.checksumParts) (live : e.stale = false)
    (offset length : Nat) :
    e.Blocks offset length .bad ∧ e.checksumBlocked offset length = .bad ∨
      ¬ e.Blocks offset length .bad ∧
        (e.Blocks offset length .retrying ∧ e.checksumBlocked offset length = .retrying ∨
          ¬ e.Blocks offset length .retrying ∧ e.checksumBlocked offset length = .unverified) := by
  by_cases asked : e.size ≤ offset ∨ length = 0
  · have none (state : PartState) : ¬ e.Blocks offset length state := by
      rintro ⟨part, b, mem, starts, ends, lower, upper⟩
      have := tiled.inside part (of_mem_zip mem).1
      omega
    exact .inr ⟨none _, .inr ⟨none _, if_pos (.inr asked)⟩⟩
  · rw [blocks_iff tiled (by omega) (by omega), blocks_iff tiled (by omega) (by omega),
      checksumBlocked,
      if_neg (by simpa [live] using asked)]
    exact blockedScan_spec ((pairwise_zip tiled.order _).sublist (dropWhile_sublist _)) _

end

end CacheEntry

end Ngs3fs.Cache
