import Ngs3fs.Cache.Evict
import Ngs3fs.Lib.Clock

/-!
# Reserving capacity

`LocalCache::reserve_capacity` and `CacheCapacityOperation` make room for a reservation: they evict
regions of the live entries, reclaim live entries of which nothing is left, and open closed entries
that a scan of the metadata tree finds, to do the same with them. The synchronous function starts
again for each eviction; the operation goes round the live entries at most twice, and comes to each
closed entry once. Both run alone here and no system call fails. A cached object has, besides its
entry, the bytes its files occupy; a punch gives them back at once. The scan is the list of the
closed entries it comes to: both pass over other records. -/

namespace Ngs3fs.Cache

/-- What `try_reserve_capacity` looks at: the limits (a maximum of zero is none), the account in the
superblock, the pending reservations, and what the file system has left. -/
structure Room where
  unlimited : Bool
  maximum : Nat
  floor : Nat
  allocated : Nat
  pending : Nat
  available : Nat
  deriving DecidableEq

namespace Room

/-- `maximum_ok` and `free_ok`. -/
def fits (r : Room) (bytes : Nat) : Bool :=
  (r.maximum == 0 || (r.allocated ≤ r.maximum && r.pending ≤ r.maximum - r.allocated &&
    bytes ≤ r.maximum - r.allocated - r.pending)) &&
  (r.floor ≤ r.available && r.pending ≤ r.available - r.floor &&
    bytes ≤ r.available - r.floor - r.pending)

def grants (r : Room) (bytes : Nat) : Bool := r.unlimited || r.fits bytes

/-- `try_reserve_capacity`. -/
def tryReserveCapacity (r : Room) (bytes : Nat) : Option Room :=
  if r.grants bytes then some { r with pending := r.pending + bytes } else none

/-- `add_allocated` subtracts the bytes, and the file system has them. -/
def give (r : Room) (bytes : Nat) : Room :=
  { r with allocated := r.allocated - bytes, available := r.available + bytes }

end Room

/-- A cached object: its entry, the bytes of each region and of its metadata file, and whether
anyone else refers to the entry. -/
structure Cached extends entry : CacheEntry where
  regionBytes : Nat → Nat
  metaBytes : Nat
  held : Bool

namespace Cached

/-- `stx_blocks * 512`. -/
def dataBytes (c : Cached) : Nat := ((List.range c.regionCount).map c.regionBytes).sum

def bytes (c : Cached) : Nat := c.dataBytes + c.metaBytes

def punch (c : Cached) (offset : Nat) : Cached :=
  { c with regionBytes := Function.update c.regionBytes (offset / c.blockSize) 0 }

def apply (c : Cached) : FileOp → Cached
  | .punch offset _ => c.punch offset
  | .write .. => c
  | .truncate _ => c

/-- With the bytes it returns. -/
def evictOneRegion (c : Cached) : Cached × Nat :=
  let (e, ops) := c.entry.evictOneRegion ⟨true, true, true⟩
  let c' := ops.foldl apply { c with entry := e }
  (c', c.dataBytes - c'.dataBytes)

/-- The body of the loop of `claim_live_region`. -/
def claimLiveRegion (c : Cached) : Cached × Option Eviction :=
  let (e, claim) := c.entry.claimLiveRegion
  ({ c with entry := e }, claim)

/-- The phase `PUNCH`; `none` is the `abort` of `finish_claim`. -/
def punched (c : Cached) (ev : Eviction) : Option Cached :=
  ((c.punch ev.offset).finishClaim ev true).map fun e => { c.punch ev.offset with entry := e }

def idle (c : Cached) : Bool :=
  !c.held && !c.stale && !c.detached && !c.evictionDisabled && !c.dirty &&
    !c.exported && c.quiescent

/-- Nothing is cached: it is reclaimed (`start_reclaim_or_cold`, `reclaim_closed_clean`). -/
def reclaimable (c : Cached) : Bool :=
  c.idle && (List.range c.pageCount).all fun page => c.bitmap page == .missing

end Cached

/-- `claim_live_region` with the phases `STAT_BEFORE`, `PUNCH` and `STAT_AFTER`, and
`retry_or_finish`: the entries in turn until the attempts, counted over the whole operation, are
used up. The flag says that the bytes are reserved; `none` is an `abort`. -/
def evictLive (bytes : Nat) : Nat → Nat → Room → List Cached → Option (Room × List Cached × Bool)
  | 0, _, room, entries => some (room, entries, false)
  | attempts + 1, index, room, entries =>
    match entries[index % entries.length]? with
    | none => some (room, entries, false)
    | some c =>
      match c.claimLiveRegion with
      | (claimed, none) =>
        evictLive bytes attempts (index + 1) room (entries.set (index % entries.length) claimed)
      | (claimed, some ev) =>
        match claimed.punched ev with
        | none => none
        | some c' =>
          let room := room.give (claimed.dataBytes - c'.dataBytes)
          let entries := entries.set (index % entries.length) c'
          match room.tryReserveCapacity bytes with
          | some room => some (room, entries, true)
          | none => evictLive bytes attempts (index + 1) room entries

/-- The loop of `start_reclaim_or_cold` with `reclaim_completed`: after each removal the reservation
is tried again. -/
def reclaimClosed (bytes : Nat) : Room → List Cached → List Cached → Room × List Cached × Bool
  | room, kept, [] => (room, kept, false)
  | room, kept, c :: left =>
    if c.reclaimable then
      match (room.give c.bytes).tryReserveCapacity bytes with
      | some room => (room, kept ++ left, true)
      | none => reclaimClosed bytes (room.give c.bytes) kept left
    else reclaimClosed bytes room (kept ++ [c]) left

/-- `scan_cold_batch` with `cold_entry_opened`: a closed entry becomes live, and is the only one
visited until the next. -/
def scanCold (bytes : Nat) :
    Room → List Cached → List Cached → Option (Room × List Cached × List Cached × Bool)
  | room, entries, [] => some (room, entries, [], false)
  | room, entries, c :: cold =>
    match evictLive bytes 2 0 room [c] with
    | none => none
    | some (room, own, true) => some (room, entries ++ own, cold, true)
    | some (room, own, false) =>
      match reclaimClosed bytes room [] own with
      | (room, own, true) => some (room, entries ++ own, cold, true)
      | (room, own, false) => scanCold bytes room (entries ++ own) cold

/-- The live entries in the order of `entries_`, the closed ones in that of the scan, and
`clock_entry_`. -/
structure Store where
  room : Room
  entries : List Cached
  cold : List Cached
  clockEntry : Nat

inductive Outcome where
  | reserved
  | enospc
  | aborted
  deriving DecidableEq

namespace Store

/-- `fetch_add` on `clock_entry_`. -/
def tick (s : Store) :
    Store := if s.entries.isEmpty then s else { s with clockEntry := s.clockEntry + 1 }

/-- A `CacheCapacityOperation` from `start` to its completion. -/
def reserveAsync (s : Store) (bytes : Nat) : Store × Outcome :=
  match s.room.tryReserveCapacity bytes with
  | some room => ({ s with room }, .reserved)
  | none =>
    let s' := s.tick
    let index := s.clockEntry % s.entries.length
    match evictLive bytes (s.entries.length * 2) index s.room s.entries with
    | none => (s', .aborted)
    | some (room, entries, true) => ({ s' with room, entries }, .reserved)
    | some (room, entries, false) =>
      match reclaimClosed bytes room [] entries with
      | (room, entries, true) => ({ s' with room, entries }, .reserved)
      | (room, entries, false) =>
        match scanCold bytes room entries s.cold with
        | none => (s', .aborted)
        | some (room, entries, cold, true) => ({ s' with room, entries, cold }, .reserved)
        | some (room, entries, cold, false) => ({ s' with room, entries, cold }, .enospc)

end Store

/-- The loops of `evict_one` over the live entries, up to an eviction that gives bytes back. -/
def evictPass : List Nat → Room → List Cached → Room × List Cached × Bool
  | [], room, entries => (room, entries, false)
  | i :: places, room, entries =>
    match entries[i]? with
    | none => evictPass places room entries
    | some c =>
      let (c', freed) := c.evictOneRegion
      if freed ≠ 0 then (room.give freed, entries.set i c', true)
      else evictPass places room (entries.set i c')

/-- The loop of `evict_one` that reclaims a live entry. -/
def reclaimOne : List Nat → Room → List Cached → Room × List Cached × Bool
  | [], room, entries => (room, entries, false)
  | i :: places, room, entries =>
    match entries[i]? with
    | none => reclaimOne places room entries
    | some c =>
      if c.reclaimable then (room.give c.bytes, entries.eraseIdx i, true)
      else reclaimOne places room entries

/-- Closed entries become live, until one of them gives bytes back. -/
def evictCold : Room → List Cached → List Cached → Room × List Cached × List Cached × Bool
  | room, entries, [] => (room, entries, [], false)
  | room, entries, c :: cold =>
    match evictPass [0, 0] room [c] with
    | (room, own, true) => (room, entries ++ own, cold, true)
    | (room, own, false) =>
      match reclaimOne [0] room own with
      | (room, own, true) => (room, entries ++ own, cold, true)
      | (room, own, false) => evictCold room (entries ++ own) cold

namespace Store

/-- `evict_one`. -/
def evictOne (s : Store) : Store × Bool :=
  if s.room.unlimited then (s, false)
  else
    let places := (List.range s.entries.length).map fun n => (s.clockEntry + n) % s.entries.length
    match evictPass (places ++ places) s.room s.entries with
    | (room, entries, true) => ({ s.tick with room, entries }, true)
    | (room, entries, false) =>
      match reclaimOne places room entries with
      | (room, entries, true) => ({ s.tick with room, entries }, true)
      | (room, entries, false) =>
        match evictCold room entries s.cold with
        | (room, entries, cold, progress) => ({ s.tick with room, entries, cold }, progress)

/-- The loop of `reserve_capacity`, with fuel for its rounds. -/
def reserveCapacity : Nat → Store → Nat → Option (Store × Bool)
  | 0, _, _ => none
  | fuel + 1, s, bytes =>
    match s.room.tryReserveCapacity bytes with
    | some room => some ({ s with room }, true)
    | none =>
      match s.evictOne with
      | (s', false) => some (s', false)
      | (s', true) => reserveCapacity fuel s' bytes

end Store

namespace CacheEntry

/-- The entry is not stale, dirty, exported or spared, and the region is without pins and clean as
far as it is cached. -/
def Evictable (e : CacheEntry) (region : Nat) : Prop :=
  e.evictionRefused = false ∧ region < e.regionCount ∧ e.evictable region = true

instance (e : CacheEntry) (region : Nat) : Decidable (e.Evictable region) :=
  inferInstanceAs (Decidable (_ ∧ _ ∧ _))

/-- In the order of the clock, with their reference bits. -/
def queue (e : CacheEntry) : List (Nat × Bool) :=
  if e.evictionRefused then [] else Clock.queue e.regionCount e.evictable
      ⟨e.clockHand, e.referenced⟩

end CacheEntry

namespace Cached

def clearedBy (c : Cached) (regions : List Nat) : Bool :=
  c.idle && (List.range c.pageCount).all fun page =>
    c.bitmap page == .missing || (c.bitmap page == .clean &&
      decide (c.pageBlock page ∈ regions))

/-- The bytes of the regions, or all bytes if that allows to reclaim the object. -/
def gain (c : Cached) (regions : List Nat) : Nat :=
  if c.clearedBy regions then c.bytes else (regions.map c.regionBytes).sum

def twoVisits (c : Cached) : Nat := c.gain (Clock.firstTwo c.entry.queue)

end Cached

end Ngs3fs.Cache
