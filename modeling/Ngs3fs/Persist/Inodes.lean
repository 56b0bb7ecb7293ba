import Ngs3fs.Persist.Header
import Ngs3fs.Lib.Machine

/-!
# Names, inodes and entries

For each key a name in the data tree and one in the objects tree, each an inode; the metadata
header of each metadata inode; and the live `CacheEntry` objects, which hold their inodes open and
map the header shared. What an entry does to pages is left to the models of `Cache`; here an
operation on an entry is its guard, the flag it sets and the data inode it writes, truncates or
punches. `open`, `create_writer`, `remove` and `rename` change names by one system call after
another, so a process may die between any two of them. `cache_promote_file` takes a name away for a
while, under another lock. -/

namespace Ngs3fs.Persist
open Cache

/-- `busy` counts its claims and checksum operations, `evictions` the asynchronous evictions whose
punch may still come; `listed` says that it is in `entries_`. -/
structure Entry where
  id : Nat
  key : Text
  data : Nat
  metadata : Nat
  stale : Bool
  detached : Bool
  listed : Bool
  evictionDisabled : Bool
  busy : Nat
  evictions : Nat
  deriving DecidableEq

inductive NameTree where
  | data
  | objects
  deriving DecidableEq

/-- `aside` are the names a promotion has taken away, `exported` the data inodes `try_export` has
returned true for, and `touched` those the last step has written, truncated or punched. -/
structure Store where
  unlimited : Bool
  names : NameTree → Text → Option Nat
  aside : NameTree → Text → Option Nat
  headers : Nat → Option CacheMetaHeader
  entries : List Entry
  next : Nat
  exported : Nat → Bool
  touched : List Nat

namespace Store

def setName (tree : NameTree) (key : Text) (inode : Option Nat) (s : Store) : Store :=
  { s with names := fun t k => if t = tree ∧ k = key then inode else s.names t k }

def setAside (tree : NameTree) (key : Text) (inode : Option Nat) (s : Store) : Store :=
  { s with aside := fun t k => if t = tree ∧ k = key then inode else s.aside t k }

/-- `none` is a file that is too short for a header. -/
def setHeader (inode : Nat) (header : Option CacheMetaHeader) (s : Store) : Store :=
  { s with headers := fun i => if i = inode then header else s.headers i }

def touch (inode : Nat) (s : Store) : Store := { s with touched := inode :: s.touched }

def marked (s : Store) (inode : Nat) : Bool :=
  match s.headers inode with
  | some h => h.magic == cacheMagic && h.version == kCacheMetaVersion && h.exported
  | none => false

def At (s : Store) (tree : NameTree) (key : Text) (inode : Nat) : Prop :=
  s.names tree key = some inode ∨ s.aside tree key = some inode

def create (tree : NameTree) (key : Text) (s : Store) : Store :=
  match s.names tree key with
  | some _ => s
  | none => { (s.setName tree key (some s.next)).setHeader s.next none with next := s.next + 1 }

def unlink (tree : NameTree) (key : Text) (s : Store) : Store := s.setName tree key none

/-- Nothing without a source. -/
def move (tree : NameTree) (source target : Text) (s : Store) : Store :=
  match s.names tree source with
  | some inode => (s.setName tree target (some inode)).setName tree source none
  | none => s

def truncateData (key : Text) (s : Store) : Store :=
  match s.names .data key with
  | some inode => s.touch inode
  | none => s

def onMeta (key : Text) (f : Option CacheMetaHeader → Option CacheMetaHeader) (s : Store) : Store :=
  match s.names .objects key with
  | some inode => s.setHeader inode (f (s.headers inode))
  | none => s

def header? (s : Store) (key : Text) : Option CacheMetaHeader :=
  (s.names .objects key).bind s.headers

/-- `existing_exported`; a `pread` that fails or is short says the same as a header without the
flag. -/
def existingExported (s : Store) (key : Text) (read : Bool) : Bool :=
  read && (s.names .objects key).any s.marked

def accepts (s : Store) (identity : CacheIdentity) : Bool :=
  (s.header? identity.key).any (cacheIdentityMatches · identity)

/-- An exported inode is unlinked and a new one takes its name, then both files are truncated and
the header is written. -/
def resetEffects (s : Store) (key : Text) (read : Bool)
    (stores : List (CacheMetaHeader → CacheMetaHeader)) : List (Store → Store) :=
  (if s.existingExported key read then [unlink .data key, create .data key] else []) ++
    ([truncateData key, truncateData key, onMeta key fun _ => none, onMeta key fun _ =>
      some .zero] ++
      stores.map fun f => onMeta key (Option.map f))

/-- `intact` says that the sizes of the two files fit, and `read` that the old header can be read.
-/
def openEffects (s : Store) (identity : CacheIdentity) (intact read : Bool) :
    List (Store → Store) :=
  [create .data identity.key, create .objects identity.key] ++
    (if intact && s.accepts identity then []
     else s.resetEffects identity.key read (cacheInitializeHeader identity kCacheBitmapUnit s.next))

def writerStores (key etag versionId writeId : Text) (epoch : Nat) (config : WriteConfig) :
    List (CacheMetaHeader → CacheMetaHeader) :=
  cacheInitializeHeader ⟨key, etag, versionId, 0, 0⟩ kCacheBitmapUnit epoch ++
    [fun h => { h with writeId := writeId }, fun h =>
      { h with writeIdLength := kCacheWriteIdCapacity },
      fun h => { h with uploadPartSize := config.uploadPartSize },
      fun h => { h with checksumAlgorithm := config.checksumAlgorithm }]

def onKey (key : Text) (f : Entry → Entry) (s : Store) : Store :=
  { s with entries := s.entries.map fun e => if e.listed ∧ e.key = key then f e else e }

def onEntry (id : Nat) (f : Entry → Entry) (s : Store) : Store :=
  { s with entries := s.entries.map fun e => if e.id = id then f e else e }

def busy (s : Store) (key : Text) : Bool :=
  s.entries.any fun e => e.listed && e.key == key && e.busy != 0

def mapped (s : Store) (e : Entry) : CacheMetaHeader := (s.headers e.metadata).getD .zero

/-- `retire_generation` of the generations of a key. -/
def retire (key : Text) (s : Store) : Store := s.onKey key fun e => { e with stale := true }

def delist (key : Text) (s : Store) : Store := s.onKey key fun e => { e with listed := false }

def addEntry (key : Text) (s : Store) : Store :=
  match s.names .data key, s.names .objects key with
  | some data, some metadata =>
    { s with
      entries :=
        ⟨s.next, key, data, metadata, false, false, true, (s.mapped ⟨0, key, data, metadata, false,
          false, true, false, 0, 0⟩).exported, 0, 0⟩ :: s.entries
      next := s.next + 1 }
  | _, _ => s

/-- Unless the generation is exported. -/
def punchPending (key : Text) (s : Store) : Store :=
  if ((s.header? key).getD .zero).exported then s else s.truncateData key

/-- A live entry that `open` returns. -/
def finds (s : Store) (identity : CacheIdentity) : Bool :=
  s.entries.any fun e => e.listed && e.key == identity.key && !e.detached && !e.stale &&
    cacheIdentityMatches (s.mapped e) identity

/-- Once the generations of other identities are retired. -/
def openKey (s : Store) (identity : CacheIdentity) (intact read : Bool) : Store :=
  let s := (s.retire identity.key).delist identity.key
  addEntry identity.key
    (punchPending identity.key (Crash.complete (s.openEffects identity intact read) s))

def createWriterEffects (s : Store) (key : Text) (read : Bool)
    (stores : List (CacheMetaHeader → CacheMetaHeader)) : List (Store → Store) :=
  [create .data key, create .objects key] ++ s.resetEffects key read stores

/-- Once the generations of the key are retired. -/
def createWriter (s : Store) (key : Text) (read : Bool)
    (stores : List (CacheMetaHeader → CacheMetaHeader)) : Store :=
  let s := (s.retire key).delist key
  addEntry key (Crash.complete (s.createWriterEffects key read stores) s)

def removeEffects (key : Text) : List (Store → Store) := [unlink .data key, unlink .objects key]

def preservable (s : Store) (e : Entry) : Bool := !e.stale && !(s.mapped e).dirty

def released (s : Store) (preserve : Bool) (e : Entry) : Entry :=
  if preserve && s.preservable e then { e with detached := true, evictionDisabled := true }
  else { e with detached := true, stale := true }

def release (s : Store) (key : Text) (preserve : Bool) : Store := s.onKey key (s.released preserve)

/-- `remove` has to wait for a generation, and keeps its files. -/
def pending (s : Store) (key : Text) (preserve : Bool) : Bool :=
  s.entries.any fun e =>
    e.listed && e.key == key && e.busy != 0 && !(preserve && s.preservable e)

/-- `LocalCache::remove`. -/
def remove (s : Store) (key : Text) (preserve : Bool) : Store :=
  if s.pending key preserve then s.release key preserve
  else Crash.complete (removeEffects key) ((s.release key preserve).delist key)

/-- `rewrite` finds the header of the old key. -/
def rewritable (s : Store) (key : Text) : Bool :=
  (s.header? key).any fun h =>
    h.magic == cacheMagic && h.version == kCacheMetaVersion && h.keyLength == key.length &&
      decide (h.keyLength ≤ h.key.length) && h.key.take key.length == key

def rewrite (key : Text) (h : CacheMetaHeader) : CacheMetaHeader :=
  { h with key := memcpy (zeros h.key.length) key, keyLength := key.length }

/-- After those that remove the target. -/
def moveEffects (source target : Text) : List (Store → Store) :=
  removeEffects target ++ [move .data source target, move .objects source target]

def renames (s : Store) (source : Text) : Bool :=
  s.rewritable source || (s.names .data source).isNone && (s.names .objects source).isNone

/-- A rename that fails removes both keys. -/
def renameEffects (s : Store) (source target : Text) : List (Store → Store) :=
  moveEffects source target ++
    if s.renames source then [onMeta target (Option.map (rewrite target))]
    else removeEffects source ++ removeEffects target

/-- `LocalCache::rename`. -/
def rename (s : Store) (source target : Text) : Store :=
  if source = target then s
  else if s.pending target false then s.release target false
  else
    let t := (s.release target false).delist target
    let moved := Crash.complete (s.renameEffects source target) t
    if s.rewritable source then moved.onKey source fun e => { e with key := target }
    else if s.renames source then moved
    else (moved.release source false).onKey source fun e => { e with listed := e.busy != 0 }

/-- What a promotion had taken away stays under its temporary name, which nothing looks up. -/
def restart (unlimited : Bool) (s : Store) : Store :=
  { s with unlimited := unlimited, entries := [], aside := fun _ _ => none }

end Store

/-- `transfer` and `finish` are the writes and punches of a claim or a checksum operation under way,
`settled` stands for the page and checksum conditions of `try_export`. -/
inductive EntryCall where
  | claimFetch
  | claimChecksum
  | transfer
  | finish
  | evictOneRegion
  | claimLiveRegion
  | punchRegion
  | finishEviction
  | tryExport (settled : Bool)
  | write
  | beginWrite
  | commitWrite
  | close
  deriving DecidableEq

def Store.evictable (s : Store) (e : Entry) : Bool :=
  !s.unlimited && !e.stale && !e.evictionDisabled && !(s.mapped e).dirty && !(s.mapped e).exported

def Store.setDirty (dirty : Bool) (e : Entry) (s : Store) : Store :=
  s.setHeader e.metadata ((s.headers e.metadata).map fun h => { h with dirty := dirty })

def Store.export (e : Entry) (s : Store) : Store :=
  { (s.setHeader e.metadata ((s.headers e.metadata).map fun h =>
    { h with exported := true })).onEntry
      e.id (fun e => { e with evictionDisabled := true }) with
    exported := fun i => i == e.data || s.exported i }

/-- `none` where the call returns without effect or throws. -/
def EntryCall.step (s : Store) (e : Entry) : EntryCall → Option Store
  | .claimFetch =>
    if !e.stale && !(s.mapped e).dirty && !(s.mapped e).exported then
      some (s.onEntry e.id fun e => { e with busy := e.busy + 1 })
    else none
  | .claimChecksum =>
    if !e.stale && !(s.mapped e).exported then
      some (s.onEntry e.id fun e => { e with busy := e.busy + 1 })
    else none
  | .transfer => if e.busy ≠ 0 then some (s.touch e.data) else none
  | .finish =>
    if e.busy ≠ 0 then some ((s.touch e.data).onEntry e.id fun e => { e with busy := e.busy - 1 })
    else none
  | .evictOneRegion => if s.evictable e then some (s.touch e.data) else none
  | .claimLiveRegion =>
    if s.evictable e then some (s.onEntry e.id fun e =>
      { e with evictions := e.evictions + 1 }) else none
  | .punchRegion => if e.evictions ≠ 0 then some (s.touch e.data) else none
  | .finishEviction =>
    if e.evictions ≠ 0 then some (s.onEntry e.id fun e =>
      { e with evictions := e.evictions - 1 }) else none
  | .tryExport settled =>
    if s.unlimited && !e.stale && !e.detached && !(s.mapped e).dirty && e.busy == 0 && settled then
      some (s.export e)
    else none
  | .write =>
    if !e.stale && !(s.mapped e).exported then some ((s.touch e.data).setDirty true e) else none
  | .beginWrite => if !e.stale then some (s.setDirty true e) else none
  | .commitWrite => if !e.stale && (s.mapped e).dirty then some (s.setDirty false e) else none
  | .close =>
    if e.busy = 0 ∧ e.evictions =
      0 then some { s with entries := s.entries.filter fun f => f.id != e.id }
    else none

inductive CacheOp where
  | idle
  | entry (id : Nat) (call : EntryCall)
  | openKey (identity : CacheIdentity) (intact read : Bool)
  | createWriter (key etag versionId writeId : Text) (config : WriteConfig) (read : Bool)
  | recoverDirty (key : Text)
  | remove (key : Text) (preserve : Bool)
  | rename (source target : Text)
  | promoteBegin (tree : NameTree) (key : Text)
  | promoteEnd (tree : NameTree) (key : Text)

def CacheOp.effects (s : Store) : CacheOp → List (Store → Store)
  | .openKey identity intact read =>
    if s.finds identity || s.busy identity.key then [] else s.openEffects identity intact read
  | .createWriter key etag versionId writeId config read =>
    if s.busy key then []
    else s.createWriterEffects key read
      (Store.writerStores key etag versionId writeId s.next config)
  | .remove key preserve => if s.pending key preserve then [] else Store.removeEffects key
  | .rename source target =>
    if source = target || s.pending target false then [] else s.renameEffects source target
  | _ => []

def CacheOp.step (s : Store) : CacheOp → Option Store
  | .idle => some s
  | .entry id call => (s.entries.find? fun e => e.id == id).bind fun e => call.step s e
  | .openKey identity intact read =>
    -- a busy generation is marked stale and the open is tried again later
    if s.finds identity then some s
    else if s.busy identity.key then some (s.retire identity.key)
    else some (s.openKey identity intact read)
  | .createWriter key etag versionId writeId config read =>
    if s.busy key then some (s.retire key)
    else some (s.createWriter key read
      (Store.writerStores key etag versionId writeId s.next config))
  | .recoverDirty key =>
    -- at the start of the process, when it has no entry of the key
    match s.header? key with
    | some h =>
      if h.magic == cacheMagic && h.version == kCacheMetaVersion && h.dirty &&
          !s.entries.any (fun e => e.listed && e.key == key) then
        some (Store.addEntry key (Store.punchPending key s))
      else none
    | none => none
  | .remove key preserve => some (s.remove key preserve)
  | .rename source target => some (s.rename source target)
  | .promoteBegin tree key =>
    match s.names tree key, s.aside tree key with
    | some inode, none => some ((s.setName tree key none).setAside tree key (some inode))
    | _, _ => none
  | .promoteEnd tree key =>
    match s.aside tree key with
    | some inode => some ((s.setName tree key (some inode)).setAside tree key none)
    | none => none

/-- An operation, or its death after some of its system calls and the next start in some mode. -/
structure CacheStep where
  op : CacheOp
  death : Option (Nat × Bool)

def storeStep (s : Store) (step : CacheStep) : Option Store :=
  let s := { s with touched := [] }
  match step.death with
  | none => step.op.step s
  | some (n, unlimited) => some (Store.restart unlimited (Crash.after (step.op.effects s) n s))

def emptyStore (unlimited : Bool) : Store where
  unlimited := unlimited
  names _ _ := none
  aside _ _ := none
  headers _ := none
  entries := []
  next := 0
  exported _ := false
  touched := []

end Ngs3fs.Persist
