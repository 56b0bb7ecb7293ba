import Ngs3fs.Cache.Checksum
import Ngs3fs.Cache.Evict
import Ngs3fs.Lib.Machine

/-!
# The entry and its users

One cache entry with everything that works on it: fetch owners, replies, part verifiers, both kinds
of eviction and retirement. `Sys` adds the data file and what each user remembers; a step is one
call under the entry's lock, or one access to the data file. `step` refuses what no caller does: a
release of a pin nobody holds, a write after the claim has ended, a reply beyond the end of the
file (`fuse.cpp` clips reads to the size). The unchecked `pin` comes later (`EntryAction`): the
handles that read a recovered write call it, also after `commit_write` has made the entry clean, and
then a region may get a pin while it is being evicted. -/

namespace Ngs3fs.Cache

/-- From the start of the part. -/
structure Hashed where
  length : Nat
  bytes : Nat → UInt8

/-- `written` and `retryReady` are indexed by claim id, `partReady`, `hashing` and `verifiedOver` by
part. -/
structure Sys extends entry : CacheEntry where
  data : Nat → UInt8
  written : Nat → Nat
  retryReady : Nat → Bool
  pins : List (Nat × Nat)
  checks : List CacheChecksumClaim
  partReady : Nat → Bool
  hashing : Nat → Hashed
  verifiedOver : Nat → Nat → UInt8
  evictions : List Eviction
  ended : List CacheFetchClaim
  ops : List FileOp

/-- `io` gives the outcome of the punch of each block. -/
inductive Action where
  | claimFetch (offset length expansion : Nat)
  | write (claim : CacheFetchClaim) (length : Nat) (content : Nat → UInt8)
  | publishClean (claim : CacheFetchClaim) (published length : Nat) (final : Bool)
  | finishFetch (claim : CacheFetchClaim) (io : Nat → Bool)
  | failFetch (claim : CacheFetchClaim) (io : Nat → Bool)
  | rollbackFetch (claim : CacheFetchClaim)
  | markBad (claim : CacheFetchClaim)
  | pinFetchVerification (claim : CacheFetchClaim)
  | beginRetry (claim : CacheFetchClaim)
  | finishRetry (claim : CacheFetchClaim) (valid : Bool) (io : Nat → Bool)
  | pinClean (offset length : Nat)
  | unpin (offset length : Nat)
  | touch (offset length : Nat)
  | disableEviction
  | beginChecksumManifest
  | finishChecksumManifest (parts : List CacheChecksumPart)
  | checksumManifestUnavailable
  | claimChecksum (offset length : Nat) (skipInProgress : Bool)
  | hashPart (claim : CacheChecksumClaim) (length : Nat)
  | checksumMismatch (claim : CacheChecksumClaim)
  | beginChecksumRetry (claim : CacheChecksumClaim)
  | writePart (claim : CacheChecksumClaim) (position length : Nat) (content : Nat → UInt8)
  | finishChecksum (claim : CacheChecksumClaim) (valid : Bool)
  | abandonChecksum (claim : CacheChecksumClaim)
  | evictOneRegion (io : EvictIo)
  | claimLiveRegion
  | punchClaim (ev : Eviction)
  | finishClaim (ev : Eviction)
  | retireGeneration
  | truncate (size : Nat)
  | tryExport (verify : Bool)

def FileOp.succeeds (io : Nat → Bool) : FileOp → Bool
  | .punch offset _ => io offset
  | _ => true

namespace Sys

def withEntry (s : Sys) (entry : CacheEntry) : Sys := { s with entry, ops := [] }

def withOps (s : Sys) (ops : List FileOp) : Sys :=
  { s with data := FileOp.applyAll ops s.data, ops }

def endedBy (s : Sys) (claim : CacheFetchClaim) : List CacheFetchClaim :=
  match s.findFetch claim with
  | none => s.ended
  | some _ => claim :: s.ended

def finishFetch (s : Sys) (claim : CacheFetchClaim) (io : Nat → Bool) : Sys :=
  let (entry, ops) := s.entry.finishFetch claim
  { s.withOps (ops.filter (FileOp.succeeds io)) with entry, ended := s.endedBy claim }

/-- The first turn restarts the owner's count of written bytes. -/
def beginRetry (s : Sys) (claim : CacheFetchClaim) : Sys :=
  match s.entry.beginRetry claim, s.findFetch claim with
  | .ok (entry, ready), some a =>
    { s.withEntry entry with
      written := if a.retrying then s.written else Function.update s.written a.id 0
      retryReady :=
        Function.update s.retryReady a.id ((a.retrying && s.retryReady a.id) || ready) }
  | _, _ => s.withEntry s.entry

def hashPart (s : Sys) (claim : CacheChecksumClaim) (length : Nat) : Sys :=
  let hashed := s.hashing claim.part
  let start := claim.offset + hashed.length
  { s.withEntry s.entry with
    hashing := Function.update s.hashing claim.part
      { length := hashed.length + length
        bytes := fun i => if start ≤ i ∧ i < start + length then s.data i else hashed.bytes i } }

end Sys

open Sys in
/-- One step; `none` where no caller makes it, or where `finish_claim` aborts. -/
def step (s : Sys) : Action → Option Sys
  | .claimFetch offset length expansion =>
    match s.claimFetch offset length expansion with
    | .ok (entry, some claim) =>
      some { s.withEntry entry with
        written := Function.update s.written claim.id 0
        retryReady := Function.update s.retryReady claim.id false }
    | _ => some (s.withEntry s.entry)
  | .write claim length content =>
    match s.findFetch claim with
    | none => none
    | some a =>
      let position := s.written a.id
      -- a retry writes only after its wait for admitted replies is over
      if a.published ≤ position ∧ position + length ≤ a.length ∧
          (a.retrying = true → s.retryReady a.id = true) then
        some { s.withOps [.write (a.offset + position) length content] with
          written := Function.update s.written a.id (position + length) }
      else none
  | .publishClean claim published length final =>
    some (s.withEntry (s.publishClean claim published length final))
  | .finishFetch claim io => some (s.finishFetch claim io)
  | .failFetch claim io => some (s.finishFetch claim io)
  | .rollbackFetch claim =>
    some { s.withEntry (s.rollbackFetch claim) with ended := s.endedBy claim }
  | .markBad claim => some (s.withEntry (s.markBad claim))
  | .pinFetchVerification claim =>
    match s.pinFetchVerification claim with
    | .ok (entry, _) => some (s.withEntry entry)
    | .error _ => some (s.withEntry s.entry)
  | .beginRetry claim => some (s.beginRetry claim)
  | .finishRetry claim valid io =>
    let (entry, ops) := s.finishRetry claim valid
    some { s.withOps (ops.filter (FileOp.succeeds io)) with entry, ended := s.endedBy claim }
  | .pinClean offset length =>
    if offset + length ≤ s.size then
      match s.pinClean offset length with
      | .ok (entry, true) => some { s.withEntry entry with pins := (offset, length) :: s.pins }
      | _ => some (s.withEntry s.entry)
    else none
  | .unpin offset length =>
    if (offset, length) ∈ s.pins then
      some { s.withEntry (s.unpin offset length) with
        pins := s.pins.erase (offset, length) }
    else none
  | .touch offset length => some (s.withEntry (s.touch offset length))
  | .disableEviction => some (s.withEntry { s.entry with evictionDisabled := true })
  | .beginChecksumManifest =>
    match s.beginChecksumManifest with
    | .ok (entry, _) => some (s.withEntry entry)
    | .error _ => some (s.withEntry s.entry)
  | .finishChecksumManifest parts =>
    -- only the caller that `begin_checksum_manifest` made the loader
    if s.checksumManifest = .loading then
      some (s.withEntry (s.finishChecksumManifest parts))
    else none
  | .checksumManifestUnavailable =>
    if s.checksumManifest = .loading then
      some (s.withEntry s.checksumManifestUnavailable)
    else none
  | .claimChecksum offset length skipInProgress =>
    match s.claimChecksum offset length skipInProgress with
    | .error _ => some (s.withEntry s.entry)
    | .ok (entry, claim) =>
      if claim.action = .verify then
        some { s.withEntry entry with
          checks := claim :: s.checks
          partReady := Function.update s.partReady claim.part false
          hashing := Function.update s.hashing claim.part ⟨0, fun _ => 0⟩ }
      else some (s.withEntry s.entry)
  | .hashPart claim length =>
    if claim ∈ s.checks ∧ (s.hashing claim.part).length + length ≤ claim.size then
      some (s.hashPart claim length)
    else none
  | .checksumMismatch claim =>
    if claim ∈ s.checks then some (s.withEntry (s.checksumMismatch claim)) else none
  | .beginChecksumRetry claim =>
    if claim ∈ s.checks then
      match s.beginChecksumRetry claim with
      | .ok (entry, ready) =>
        some { s.withEntry entry with
          partReady := Function.update s.partReady claim.part (s.partReady claim.part || ready) }
      | .error _ => some (s.withEntry s.entry)
    else none
  | .writePart claim position length content =>
    -- what was hashed before the part is written again does not count
    if claim ∈ s.checks ∧ s.partReady claim.part = true ∧ position + length ≤ claim.size then
      some { s.withOps [.write (claim.offset + position) length content] with
        hashing := Function.update s.hashing claim.part ⟨0, fun _ => 0⟩ }
    else none
  | .finishChecksum claim valid =>
    -- a digest is compared once the whole part has been hashed
    if claim ∈ s.checks ∧ (valid = true → (s.hashing claim.part).length = claim.size) then
      some { s.withEntry (s.finishChecksum claim valid) with
        checks := s.checks.erase claim
        verifiedOver := if valid then
          Function.update s.verifiedOver claim.part (s.hashing claim.part).bytes
          else s.verifiedOver }
    else none
  | .abandonChecksum claim =>
    if claim ∈ s.checks then
      some { s.withEntry (s.abandonChecksum claim) with checks := s.checks.erase claim }
    else none
  | .evictOneRegion io =>
    let (entry, ops) := s.entry.evictOneRegion io
    some { s.withOps ops with entry }
  | .claimLiveRegion =>
    match s.entry.claimLiveRegion with
    | (entry, none) => some (s.withEntry entry)
    | (entry, some ev) => some { s.withEntry entry with evictions := ev :: s.evictions }
  | .punchClaim ev =>
    if ev ∈ s.evictions ∧ ev.punched = false then
      some { s.withOps [.punch ev.offset ev.length] with
        evictions := { ev with punched := true } :: s.evictions.erase ev }
    else none
  | .finishClaim ev =>
    if ev ∈ s.evictions then
      (s.finishClaim ev ev.punched).map fun entry =>
        { s.withEntry entry with evictions := s.evictions.erase ev }
    else none
  | .retireGeneration => some (s.withEntry s.retireGeneration.1)
  | .truncate size =>
    -- the cache reuses the files of a generation whose retirement has returned
    if s.stale = true ∧ s.quiescent = true then some (s.withOps [.truncate size])
    else none
  | .tryExport verify => some (s.withEntry (s.tryExport verify).1)

end Ngs3fs.Cache
