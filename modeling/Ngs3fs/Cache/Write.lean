import Ngs3fs.Cache.Keep

/-!
# The whole life of an entry

`EntryAction` adds the calls that are left: the unchecked `pin` of a reader of recovered data, the
calls of a writer (`begin_write`, `publish_dirty`, which lets the file grow, `commit_write` and
`discard_write`), and the detachment by `remove` and `rename`. The vectors of an entry are
functions, so what `resize` adds is written out. The identity that `commit_write` compares, the
dirty marker and the header fields of an upload are left out. -/

namespace Ngs3fs.Cache

namespace CacheEntry

/-- `pin`, which does not look at the pages. -/
def pin (e : CacheEntry) (offset length : Nat) : Except CacheError CacheEntry :=
  if e.stale then .error (.systemError .ESTALE "pin stale cache generation")
  else if length = 0 then .ok e
  else
    let first := offset / e.blockSize
    let last := e.lastRegion (offset + length)
    if e.pinOverflow first last then .error (.overflowError "cache region pin count overflow")
    else .ok (e.pinRegions first last)

/-- `begin_write`. -/
def beginWrite (e : CacheEntry) : Except CacheError CacheEntry :=
  if e.stale then .error (.systemError .ESTALE "begin stale cache write")
  else .ok { e with dirty := true }

/-- `publish_dirty`. -/
def publishDirty (e : CacheEntry) (offset length writtenEnd : Nat) : Except CacheError CacheEntry :=
  if e.stale || !e.dirty then .error (.systemError .ESTALE "publish stale cache write")
  else if offset ≠ e.writtenEnd ∨ length = 0 ∨ writtenEnd ≠ offset + length then
    .error (.logicError "non-sequential cache write publication")
  else
    .ok { e with
      size := writtenEnd
      writtenEnd
      -- regions that the file did not have before
      referenced := fun r => decide (r < e.regionCount) && e.referenced r
      regionPins := fun r => if r < e.regionCount then e.regionPins r else 0
      bitmap := e.bitmap.fill (offset / kCacheBitmapUnit) ((writtenEnd - 1) / kCacheBitmapUnit + 1)
        .clean }

/-- `commit_write`. -/
def commitWrite (e : CacheEntry) : CacheEntry :=
  { e with dirty := false, evictionDisabled := false }

/-- `discard_write`, `activate_discard_write`. -/
def discardWrite (e : CacheEntry) : CacheEntry :=
  { e with dirty := false, stale := true, detached := true }

/-- What `remove` and `rename` do to an entry; an unlinked file may keep its data. -/
def detach (e : CacheEntry) (preserve : Bool) : CacheEntry :=
  if preserve && !e.stale && !e.dirty then { e with detached := true, evictionDisabled := true }
  else notifyWaiters { e with detached := true, stale := true }

end CacheEntry

/-- The calls of an entry. -/
inductive EntryAction where
  | use (act : Action)
  | pin (offset length : Nat)
  | beginWrite
  | publishDirty (offset length writtenEnd : Nat)
  | commitWrite
  | discardWrite
  | detach (preserve : Bool)

/-- A call that throws changes nothing. -/
def Sys.attempt (s : Sys) : Except CacheError CacheEntry → Sys
  | .ok entry => s.withEntry entry
  | .error _ => s.withEntry s.entry

/-- Readers clip their ranges to the size of the file, which has at most `UINT64_MAX` bytes.
`begin_write` is called on what `create_writer` has made or a recovery has found, which end where
what was written ends; a generation that was opened for reading has nothing written. -/
def entryStep (s : Sys) : EntryAction → Option Sys
  | .use act => step s act
  | .pin offset length =>
    if offset + length ≤ s.size then
      match s.pin offset length with
      | .ok entry => some { s.withEntry entry with pins := (offset, length) :: s.pins }
      | .error _ => some (s.withEntry s.entry)
    else none
  | .beginWrite =>
    if s.writtenEnd = s.size then some (s.attempt s.beginWrite) else none
  | .publishDirty offset length writtenEnd =>
    if writtenEnd ≤ uint64Max then some (s.attempt (s.publishDirty offset length writtenEnd))
    else none
  | .commitWrite => some (s.withEntry s.commitWrite)
  | .discardWrite => some (s.withEntry s.discardWrite)
  | .detach preserve => some (s.withEntry (s.detach preserve))

end Ngs3fs.Cache
