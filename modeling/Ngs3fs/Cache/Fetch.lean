import Ngs3fs.Cache.Geometry

/-!
# Fetch claims

The fetch side of `CacheEntry`: `claim_fetch`, `publish_clean`, `finish_fetch`, `rollback_fetch`,
`mark_bad`, the whole-fetch verification `pin_fetch_verification` and its retry. Functions that
touch the data file also return their file operations, in order. The `break` that guards a block
counter against overflow is left out: a file is shorter than `2 ^ 63` bytes. -/

namespace Ngs3fs.Cache
open Loop

namespace ActiveFetch

/-- The lambda given to `find_if`. -/
def isFor (claim : CacheFetchClaim) (a : ActiveFetch) : Bool :=
  a.id == claim.id && a.epoch == claim.epoch && a.offset == claim.offset && a.length == claim.length

def claim (a : ActiveFetch) : CacheFetchClaim := ⟨a.offset, a.epoch, a.id, a.length⟩

end ActiveFetch

def PartState.inProgress (s : PartState) : Bool := s == .verifying || s == .retrying

namespace CacheEntry

/-- One token for every waiter (`notify_waiters_locked`); without one it does nothing. -/
def notifyWaiters (e : CacheEntry) : CacheEntry := { e with waitTokens := e.waitTokens + e.waiters }

def notifyWaitersIf (c : Bool) (e : CacheEntry) : CacheEntry :=
  { e with waitTokens := e.waitTokens + if c then e.waiters else 0 }

def pinRegions (e : CacheEntry) (first last : Nat) : CacheEntry :=
  { e with
    regionPins := forRange first last e.regionPins fun pins r => Function.update pins r (pins r + 1)
    pinnedRegions := e.pinnedRegions + (last - first) }

/-- The subtraction stops at zero. -/
def unpinRegions (e : CacheEntry) (first last : Nat) : CacheEntry :=
  { e with
    regionPins := forRange first last e.regionPins fun pins r => Function.update pins r (pins r - 1)
    pinnedRegions :=
      e.pinnedRegions - (List.range' first (last - first)).countP fun r => e.regionPins r != 0 }

def pinOverflow (e : CacheEntry) (first last : Nat) : Bool :=
  (List.range' first (last - first)).any fun r => e.regionPins r == uint32Max

def findFetch (e : CacheEntry) (claim : CacheFetchClaim) : Option ActiveFetch :=
  e.activeClaims.find? (ActiveFetch.isFor claim)

def modifyFetch (e : CacheEntry) (claim : CacheFetchClaim) (f : ActiveFetch → ActiveFetch) :
    CacheEntry :=
  { e with activeClaims := modifyFirst (ActiveFetch.isFor claim) f e.activeClaims }

/-- A pending or bad page before it ends the search. -/
def firstMissing (bitmap : Bitmap) : List Nat → Option Nat
  | [] => none
  | page :: pages =>
    match bitmap page with
    | .clean => firstMissing bitmap pages
    | .missing => some page
    | _ => none

/-- Saturates at `UINT64_MAX`. -/
def blockCeil (e : CacheEntry) (x : Nat) : Nat :=
  if x > uint64Max - (e.blockSize - 1) then uint64Max
  else (x + e.blockSize - 1) / e.blockSize * e.blockSize

def claimLimit (e : CacheEntry) (start requestEnd expansion : Nat) : Nat :=
  let extent := max expansion e.blockSize
  let expandedEnd := if start > uint64Max - extent then uint64Max else start + extent
  min e.size (max (e.blockCeil requestEnd) (e.blockCeil expandedEnd))

/-- It is pinned, or one of its pages is pending or bad. -/
def blockBlocked (e : CacheEntry) (block : Nat) : Bool :=
  let region := block / e.blockSize
  let first := e.blockFirstPage block
  let last := e.blockLastPage block
  (decide (region < e.regionCount) && e.regionPins region != 0) ||
    e.bitmap.anyState first last .readPending || e.bitmap.anyState first last .bad

def blockAllClean (e : CacheEntry) (block : Nat) : Bool :=
  e.bitmap.allState (e.blockFirstPage block) (e.blockLastPage block) .clean

/-- The block loop of `claim_fetch`. -/
def claimEnd (e : CacheEntry) (start : Nat) : List Nat → Nat → Nat
  | [], stop => stop
  | block :: blocks, stop =>
    if e.blockBlocked block || (block != start && e.blockAllClean block) then block
    else claimEnd e start blocks stop

def claimEndPage (e : CacheEntry) (stop : Nat) : Nat :=
  min e.pageCount ((stop - 1) / kCacheBitmapUnit + 1)

/-- A wrapped counter would give the id 0, which `next_claim_id_` skips. -/
def newFetch (e : CacheEntry) (start stop : Nat) : ActiveFetch where
  id := if e.nextClaimId = 0 then 1 else e.nextClaimId
  epoch := e.epoch
  offset := start
  length := stop - start
  published := 0
  verifying := false
  retrying := false
  priorStates :=
    (List.range' (e.blockFirstPage start)
      (e.claimEndPage stop - e.blockFirstPage start)).map e.bitmap

/-- `none` is the empty claim. -/
def claimFetch (e : CacheEntry) (wantedOffset wantedLength expansion : Nat) :
    Except CacheError (CacheEntry × Option CacheFetchClaim) :=
  if e.stale then .error (.systemError .ESTALE "stale cache generation")
  else if wantedLength = 0 ∨ e.size ≤ wantedOffset ∨ e.dirty ∨ e.exported then .ok (e, none)
  else
    let wantedLength := min wantedLength (e.size - wantedOffset)
    let first := wantedOffset / kCacheBitmapUnit
    let last := (wantedOffset + wantedLength - 1) / kCacheBitmapUnit
    match firstMissing e.bitmap (List.range' first (last + 1 - first)) with
    | none => .ok (e, none)
    | some missing =>
      let start := missing * kCacheBitmapUnit / e.blockSize * e.blockSize
      let limit := e.claimLimit start (wantedOffset + wantedLength) expansion
      let stop := e.claimEnd start (stepped start limit e.blockSize) limit
      if stop ≤ start then .ok (e, none)
      else
        let active := e.newFetch start stop
        .ok ({ e with
          bitmap := e.bitmap.fill (e.blockFirstPage start) (e.claimEndPage stop) .readPending
          activeClaims := e.activeClaims ++ [active]
          nextClaimId := active.id + 1 }, some active.claim)

def blockEnd (e : CacheEntry) (block : Nat) : Nat := min e.size (block + e.blockSize)

/-- A complete block; a short last one only counts in the final call. -/
def publishes (e : CacheEntry) (progress : Nat) (final : Bool) (block : Nat) : Bool :=
  decide (e.blockEnd block ≤ progress) &&
    !(e.blockEnd block == e.size && e.blockEnd block % e.blockSize != 0 && !final)

def replacePending (e : CacheEntry) (blocks : List Nat) (bitmap : Bitmap) (new : CachePageState) :
    Bitmap :=
  blocks.foldl (fun bitmap block =>
    bitmap.replace (e.blockFirstPage block) (e.blockLastPage block) .readPending new) bitmap

def blockPending (e : CacheEntry) (block : Nat) : Bool :=
  e.bitmap.anyState (e.blockFirstPage block) (e.blockLastPage block) .readPending

def tailBlocks (e : CacheEntry) (a : ActiveFetch) : List Nat :=
  stepped (a.offset + a.published) (a.offset + a.length) e.blockSize

def publishedBlocks (e : CacheEntry) (a : ActiveFetch) (length : Nat) (final : Bool) : List Nat :=
  (e.tailBlocks a).takeWhile (e.publishes (a.offset + min length a.length) final)

/-- `publish_clean`. -/
def publishClean (e : CacheEntry) (claim : CacheFetchClaim) (published length : Nat)
    (final : Bool) : CacheEntry :=
  match e.findFetch claim with
  | none => e
  | some a =>
    if e.stale || decide (length < published) || (decide (length = published) && !final) then e
    else
      let blocks := e.publishedBlocks a length final
      let progress := blocks.foldl (fun _ block => e.blockEnd block - a.offset) a.published
      notifyWaitersIf (blocks.any e.blockPending)
        { e.modifyFetch claim (fun a => { a with published := progress }) with
          bitmap := e.replacePending blocks e.bitmap .clean }

/-- `end_fetch_locked`. -/
def endFetch (e : CacheEntry) (claim : CacheFetchClaim) : CacheEntry :=
  match e.findFetch claim with
  | none => e
  | some a =>
    let first := claim.offset / e.blockSize
    let last := (claim.offset + claim.length - 1) / e.blockSize + 1
    let e := if a.verifying then e.unpinRegions first last else e
    { e with activeClaims := e.activeClaims.eraseP (ActiveFetch.isFor claim) }

/-- The pending pages of its unpublished blocks become missing and each such block is punched. -/
def finishFetch (e : CacheEntry) (claim : CacheFetchClaim) : CacheEntry × List FileOp :=
  match e.findFetch claim with
  | none => (e.notifyWaiters, [])
  | some a =>
    let blocks := e.tailBlocks a
    let punches := (blocks.filter e.blockPending).map fun block =>
      FileOp.punch block e.blockSize
    let e := { e with bitmap := e.replacePending blocks e.bitmap .missing }
    ((e.endFetch claim).notifyWaiters, punches)

/-- `fail_fetch`. -/
def failFetch (e : CacheEntry) (claim : CacheFetchClaim) : CacheEntry × List FileOp :=
  e.finishFetch claim

/-- `rollback_fetch`. -/
def rollbackFetch (e : CacheEntry) (claim : CacheFetchClaim) : CacheEntry :=
  match e.findFetch claim with
  | none => e
  | some a =>
    let first := e.blockFirstPage claim.offset
    let index := (a.published + kCacheBitmapUnit - 1) / kCacheBitmapUnit
    let bitmap := forRange index a.priorStates.length e.bitmap fun bitmap i =>
      bitmap.set (first + i) (a.priorStates.getD i .missing)
    (endFetch { e with bitmap } claim).notifyWaiters

/-- Condemns the unpublished pages of a claim, or all of them under verification. -/
def markBad (e : CacheEntry) (claim : CacheFetchClaim) : CacheEntry :=
  match e.findFetch claim with
  | none => e.notifyWaiters
  | some a =>
    if e.stale then e.notifyWaiters
    else
      let skipped :=
        if a.verifying then 0 else (a.published + kCacheBitmapUnit - 1) / kCacheBitmapUnit
      let first := claim.offset / kCacheBitmapUnit + skipped
      notifyWaiters
        { e with bitmap := e.bitmap.fill first (e.claimEndPage (claim.offset + claim.length)) .bad }

/-- `pin_fetch_verification`. -/
def pinFetchVerification (e : CacheEntry) (claim : CacheFetchClaim) :
    Except CacheError (CacheEntry × Bool) :=
  match e.findFetch claim with
  | none => .ok (e, false)
  | some a =>
    if e.stale then .ok (e, false)
    else if a.verifying then .ok (e, true)
    else if a.published ≠ claim.length ∨ e.checksumOps ≠ 0 ∨ e.checksumManifest = .available ∨
        e.rangeAllState claim.offset claim.length .clean = false then .ok (e, false)
    else if (e.activeClaims.eraseP (ActiveFetch.isFor claim)).any (fun item =>
        decide (item.offset < claim.offset + claim.length) &&
        decide (claim.offset < item.offset + item.length)) then .ok (e, false)
    else
      let first := claim.offset / e.blockSize
      let last := (claim.offset + claim.length - 1) / e.blockSize + 1
      if e.pinOverflow first last then
        .error (.overflowError "cache verification pin count overflow")
      else
        .ok ((e.pinRegions first last).modifyFetch claim
          (fun a => { a with verifying := true }), true)

def verificationPins (e : CacheEntry) (region : Nat) : Nat :=
  let start := region * e.blockSize
  let stop := min e.size (start + e.blockSize)
  (e.checksumParts.zip e.checksumStates).countP (fun (part, state) =>
      state.inProgress && decide (part.offset < stop) && decide (start < part.offset + part.size)) +
    e.activeClaims.countP (fun fetch =>
      fetch.verifying && decide (fetch.offset < stop) && decide
        (start < fetch.offset + fetch.length))

/-- No region has a pin beyond those of verifications (`retry_pins_ready_locked`). -/
def retryPinsReady (e : CacheEntry) (offset length : Nat) : Bool :=
  let first := offset / e.blockSize
  let last := (offset + length - 1) / e.blockSize + 1
  (List.range' first (last - first)).all fun region =>
    decide (e.regionPins region ≤ e.verificationPins region)

/-- One turn of waiting (`begin_retry_locked`): the first takes the pages back from readers, and the
flag says whether the replies admitted before have all ended. -/
def beginRetry (e : CacheEntry) (claim : CacheFetchClaim) : Except CacheError (CacheEntry × Bool) :=
  match e.findFetch claim with
  | none => .error (.systemError .ESTALE "retry retired cache fetch")
  | some a =>
    if e.stale then .error (.systemError .ESTALE "retry retired cache fetch")
    else if !a.verifying then .error (.logicError "cache retry without verification pin")
    else
      let e := if a.retrying then e else
        notifyWaiters
          { e.modifyFetch claim (fun a => { a with published := 0, retrying := true }) with
            bitmap := e.bitmap.fill (claim.offset / kCacheBitmapUnit)
              (e.claimEndPage (claim.offset + claim.length))
              .readPending }
      .ok (e, e.retryPinsReady claim.offset claim.length)

/-- `finish_retry`. -/
def finishRetry (e : CacheEntry) (claim : CacheFetchClaim) (valid : Bool) :
    CacheEntry × List FileOp :=
  let e := if valid then e.publishClean claim 0 claim.length true else e.markBad claim
  e.finishFetch claim

end CacheEntry

end Ngs3fs.Cache
