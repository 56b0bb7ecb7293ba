import Ngs3fs.Persist.Header
import Ngs3fs.Lib.Machine

/-!
# Crashes of a cached writer

A writer keeps what a restart needs in its metadata header and in a dirty marker. `begin_write`,
`publish_dirty`, `set_upload_id` and `commit_write` change these by several stores and system
calls, and recovery checks that the fields agree with each other and with the marker. A store of
the header and an update of the writer's memory next to it are one effect; what is in memory is
lost in a crash. `ensure_write_capacity` and the writes of the data are the call `grow`, after
which `publish_dirty` may be called. The writer is not retired meanwhile. -/

namespace Ngs3fs.Persist
open Bytes Cache Crash Machine List

/-- Keys of objects are not empty, and epochs are counted from one. -/
structure WriterKey where
  key : Text
  epoch : Nat
  config : WriteConfig
  key_ne_nil : key ≠ []
  key_length_le : key.length ≤ kCacheKeyCapacity
  epoch_ne_zero : epoch ≠ 0
  epoch_lt : epoch < 256 ^ 8

/-- `dirtyFd` says that the marker is open, `size` is `size_`. -/
structure Writer extends header : CacheMetaHeader where
  bitmap : Bitmap
  metaSize : Nat
  dataSize : Nat
  marker : Option (List UInt8)
  dirtyFd : Bool
  size : Nat

variable (c : WriterKey)

def WriterKey.marker : NewMarker := .dirty c.key c.epoch

/-- The first one carries the sizes of the writes of the marker. -/
inductive WriterCall where
  | beginWrite (writes : Pwrites c.marker.record.length)
  | publishDirty (offset length writtenEnd : Nat)
  | setUploadId (uploadId : Text)
  | commitWrite (identity : CacheIdentity)
  | grow (metaSize dataSize : Nat)

namespace Writer

def store (f : CacheMetaHeader → CacheMetaHeader) (w : Writer) : Writer :=
  { w with header := f w.header }

def onMarker (f : Option (List UInt8) → Option (List UInt8)) (w : Writer) : Writer :=
  { w with marker := f w.marker }

def setClean (page : Nat) (w : Writer) : Writer :=
  { w with bitmap := Function.update w.bitmap page .clean }

end Writer

open Writer

/-- `begin_write`. -/
def beginWrite (w : Writer) (writes : Pwrites c.marker.record.length) : List (Writer → Writer) :=
  if w.dirtyFd then []
  else (createMarker c.marker w.marker writes).map onMarker ++
    [fun w => { w.store (fun h => { h with dirty := true }) with dirtyFd := true },
      store fun h => { h with writePhase := 1 }]

def Writer.publishes (w : Writer) (offset length writtenEnd : Nat) : Bool :=
  w.dirty && offset == w.writtenEnd && length != 0 && writtenEnd == offset + length

def publishedPages (offset writtenEnd : Nat) : List Nat :=
  let first := offset / kCacheBitmapUnit
  let last := (writtenEnd - 1) / kCacheBitmapUnit
  range' first (last + 1 - first)

/-- `publish_dirty`. -/
def publishDirty (w : Writer) (offset length writtenEnd : Nat) : List (Writer → Writer) :=
  if w.publishes offset length writtenEnd then
    (publishedPages offset writtenEnd).map setClean ++
      [store fun h => { h with objectSize := writtenEnd },
        fun w => { w.store (fun h => { h with writtenEnd := writtenEnd }) with size := writtenEnd }]
  else []

/-- It throws if the id is too long. -/
def setUploadId (uploadId : Text) : List (Writer → Writer) :=
  if kCacheUploadIdCapacity < uploadId.length then []
  else
    [store fun h => { h with uploadId := zeros h.uploadId.length },
      store fun h => { h with uploadId := memcpy h.uploadId uploadId },
      store fun h => { h with uploadIdLength := uploadId.length },
      store fun h => { h with uploadPartSize := c.config.uploadPartSize },
      store fun h => { h with writePhase := if uploadId.isEmpty then 1 else 2 }]

def Writer.commits (w : Writer) (identity : CacheIdentity) : Bool :=
  decide (identity.etag.length ≤ kCacheEtagCapacity) &&
    decide (identity.versionId.length ≤ kCacheVersionCapacity) &&
    identity.key == c.key && identity.size == w.size

def commitIdentity (identity : CacheIdentity) : List (Writer → Writer) :=
  [store fun h => { h with etag := zeros h.etag.length },
    store fun h => { h with versionId := zeros h.versionId.length },
    store fun h => { h with etag := memcpy h.etag identity.etag },
    store fun h => { h with versionId := memcpy h.versionId identity.versionId },
    store fun h => { h with etagLength := identity.etag.length },
    store fun h => { h with versionLength := identity.versionId.length },
    store fun h => { h with mtime := identity.mtime }]

def commitPhase : List (Writer → Writer) :=
  [store fun h => { h with writePhase := 0 }, store fun h => { h with uploadIdLength := 0 }]

/-- The last effect is that of `remove_dirty_marker`. -/
def commitWrite (w : Writer) (identity : CacheIdentity) : List (Writer → Writer) :=
  if w.commits c identity then
    commitIdentity identity ++ (store (fun h => { h with dirty := false }) ::
      (commitPhase ++ [fun w => { w.onMarker (fun _ => none) with dirtyFd := false }]))
  else []

def WriterCall.effects (w : Writer) : WriterCall c → List (Writer → Writer)
  | .beginWrite writes => Persist.beginWrite c w writes
  | .publishDirty offset length writtenEnd => Persist.publishDirty w offset length writtenEnd
  | .setUploadId uploadId => Persist.setUploadId c uploadId
  | .commitWrite identity => Persist.commitWrite c w identity
  | .grow metaSize dataSize =>
    [fun w => { w with metaSize := max w.metaSize metaSize },
      fun w => { w with dataSize := max w.dataSize dataSize }]

/-- `publish_dirty` comes after the data and the bitmap have room. -/
def WriterCall.allowed (w : Writer) : WriterCall c → Bool
  | .publishDirty _ _ writtenEnd =>
    decide (writtenEnd ≤ w.dataSize) &&
      decide (cacheMappingSize writtenEnd kCacheBitmapUnit ≤ w.metaSize)
  | _ => true

def writerStep (w : Writer) (call : WriterCall c) : Option Writer :=
  if call.allowed c w then some (complete (call.effects c w) w) else none

/-- `create_writer`. -/
def createWriter (etag versionId writeId : Text) : Writer where
  header :=
    { complete (cacheInitializeHeader ⟨c.key, etag, versionId, 0, 0⟩ kCacheBitmapUnit c.epoch)
        .zero with
      writeId := writeId
      writeIdLength := kCacheWriteIdCapacity
      uploadPartSize := c.config.uploadPartSize
      checksumAlgorithm := c.config.checksumAlgorithm }
  bitmap := fun _ => .missing
  metaSize := kCacheMetaHeaderSize
  dataSize := 0
  marker := none
  dirtyFd := false
  size := 0

/-- A clean entry without a marker, a write to recover up to some end, a write it isolates, an entry
that has lost its marker, a marker it takes for another key's, or a marker that rejects the mount.
-/
inductive Recovery where
  | clean
  | accepted (writtenEnd : Nat)
  | isolated
  | unmarked
  | foreign
  | rejected
  deriving DecidableEq

/-- `recover_dirty`. -/
def recoverDirty (w : Writer) : Recovery :=
  match w.marker with
  | none => if w.dirty then .unmarked else .clean
  | some file =>
    match readDirtyMarker file with
    | .ok [record] =>
      if record.key ≠ c.key then .foreign
      else if record.valid && decide (kCacheMetaHeaderSize ≤ w.metaSize) &&
          cacheRecoveryHeaderMatches w.header record.key record.epoch c.config w.metaSize &&
          decide (w.writtenEnd ≤ w.dataSize) then .accepted w.writtenEnd
      else .isolated
    | .ok _ => .foreign
    | .error _ => .rejected

/-- The write as it was before or is after the interrupted call, or a clean entry: the one the call
has committed, or the one it found. -/
def CrashAtomic (before after crashed : Writer) : Prop :=
  (∃ writtenEnd, recoverDirty c crashed = .accepted writtenEnd ∧
    (writtenEnd = before.writtenEnd ∨ writtenEnd = after.writtenEnd)) ∨
  recoverDirty c crashed = .clean ∧ (before.marker = none ∨ crashed.header = after.header)

def PhaseAgrees (phase uploadIdLength : Nat) : Prop :=
  phase = 1 ∧ uploadIdLength = 0 ∨ phase = 2 ∧ uploadIdLength ≠ 0

/-- The windows are: in `begin_write` from the open of the marker to the store of the flag, and to
that of the phase unless the phase it finds already agrees with the upload id; in `publish_dirty`
between the two ends; in `set_upload_id` between length and phase, if they do not agree; in
`commit_write` from the clearing of the flag to the unlink. A write whose phase does not agree with
its upload id to begin with is not recovered either; `begin_write` makes one of a writer that
already has an upload id. -/
def CrashSafe (w : Writer) (n : Nat) : WriterCall c → Prop
  | .beginWrite writes =>
    if w.dirtyFd then PhaseAgrees w.writePhase w.uploadIdLength
    else
      n = 0 ∨
      n = writes.sizes.length + 3 ∧ PhaseAgrees w.writePhase w.uploadIdLength ∨
      writes.sizes.length + 4 ≤ n ∧ w.uploadIdLength = 0
  | .publishDirty offset length writtenEnd =>
    w.dirtyFd = true → PhaseAgrees w.writePhase w.uploadIdLength ∧
      (w.publishes offset length writtenEnd = true →
        n ≠ (publishedPages offset writtenEnd).length + 1)
  | .setUploadId uploadId =>
    w.dirtyFd = true →
      if n ≤ 2 ∨ kCacheUploadIdCapacity < uploadId.length then
        PhaseAgrees w.writePhase w.uploadIdLength
      else n ≤ 4 → PhaseAgrees w.writePhase uploadId.length
  | .commitWrite identity =>
    w.dirtyFd = true →
      if n ≤ 7 ∨ w.commits c identity = false then
        PhaseAgrees w.writePhase w.uploadIdLength
      else 11 ≤ n
  | .grow _ _ => w.dirtyFd = true → PhaseAgrees w.writePhase w.uploadIdLength

structure Recognised (h : CacheMetaHeader) : Prop where
  magic : h.magic = cacheMagic
  version : h.version = kCacheMetaVersion
  headerSize : h.headerSize = kCacheMetaHeaderSize
  bitmapUnit : h.bitmapUnit = kCacheBitmapUnit
  epoch : h.generationEpoch = c.epoch
  keyLength : h.keyLength = c.key.length
  writeIdLength : h.writeIdLength = kCacheWriteIdCapacity
  uploadPartSize : h.uploadPartSize = c.config.uploadPartSize
  checksumAlgorithm : h.checksumAlgorithm = c.config.checksumAlgorithm
  key : h.key = padded kCacheKeyCapacity c.key
  etag : h.etag.length = kCacheEtagCapacity
  versionId : h.versionId.length = kCacheVersionCapacity
  uploadId : h.uploadId.length = kCacheUploadIdCapacity
  etagLength : h.etagLength ≤ kCacheEtagCapacity
  versionLength : h.versionLength ≤ kCacheVersionCapacity
  uploadIdLength : h.uploadIdLength ≤ kCacheUploadIdCapacity

def WriterKey.file : List UInt8 := written c.marker.record 1056 kCacheMetaHeaderSize

structure WriterInv (w : Writer) : Prop where
  known : Recognised c w.header
  ends : w.writtenEnd = w.objectSize
  mapped : cacheMappingSize w.writtenEnd kCacheBitmapUnit ≤ w.metaSize
  stored : w.writtenEnd ≤ w.dataSize
  dirty : w.dirty = w.dirtyFd
  marker : w.marker = if w.dirtyFd then some c.file else none

section
variable {c} {w before after crashed : Writer}

lemma recoveryHeaderMatches_iff (known : Recognised c w.header)
    (mapped : cacheMappingSize w.writtenEnd kCacheBitmapUnit ≤ w.metaSize) :
    cacheRecoveryHeaderMatches w.header c.key c.epoch c.config w.metaSize = true ↔
      w.dirty = true ∧ PhaseAgrees w.writePhase w.uploadIdLength ∧
        w.writtenEnd = w.objectSize := by
  have room := c.key_length_le
  have key : (padded kCacheKeyCapacity c.key).take c.key.length = c.key := take_left
  simp only [cacheRecoveryHeaderMatches, known.magic, known.version, known.headerSize,
    known.bitmapUnit, known.epoch, known.keyLength, known.writeIdLength, known.uploadPartSize,
    known.checksumAlgorithm, known.key, known.etag, known.versionId, known.uploadId,
    known.etagLength, known.versionLength, known.uploadIdLength, length_padded room, room, mapped,
    key, PhaseAgrees, Bool.and_eq_true, Bool.or_eq_true, beq_iff_eq, bne_iff_ne,
    and_true, true_and, beq_self_eq_true, decide_true]
  constructor
  · rintro ⟨⟨⟨dirty, -⟩, agrees⟩, ends⟩
    exact ⟨dirty, agrees, ends⟩
  · rintro ⟨dirty, agrees, ends⟩
    refine ⟨⟨⟨dirty, ?_⟩, agrees⟩, ends⟩
    exact agrees.imp And.left And.left

lemma recover_marked (marker : w.marker = some c.file)
    (mapped : cacheMappingSize w.writtenEnd kCacheBitmapUnit ≤ w.metaSize)
    (stored : w.writtenEnd ≤ w.dataSize) :
    recoverDirty c w =
      if cacheRecoveryHeaderMatches w.header c.key c.epoch c.config w.metaSize then
        .accepted w.writtenEnd
      else .isolated := by
  have read : readDirtyMarker c.file = .ok [{ key := c.key, epoch := c.epoch, valid := true }] :=
    readDirtyMarker_complete c.key_ne_nil c.key_length_le c.epoch_ne_zero c.epoch_lt
  have long : kCacheMetaHeaderSize ≤ w.metaSize := (Nat.le_add_right _ _).trans mapped
  simp only [recoverDirty, marker, read, ne_eq, not_true_eq_false, if_false, long, stored,
    decide_true, Bool.true_and, Bool.and_true]

lemma crashAtomic_marked (marker : crashed.marker = some c.file)
    (known : Recognised c crashed.header)
    (mapped : cacheMappingSize crashed.writtenEnd kCacheBitmapUnit ≤ crashed.metaSize)
    (stored : crashed.writtenEnd ≤ crashed.dataSize)
    (ends : crashed.writtenEnd = before.writtenEnd ∨
      crashed.writtenEnd = after.writtenEnd) :
    CrashAtomic c before after crashed ↔ crashed.dirty = true ∧
      PhaseAgrees crashed.writePhase crashed.uploadIdLength ∧
      crashed.writtenEnd = crashed.objectSize := by
  rw [← recoveryHeaderMatches_iff known mapped, CrashAtomic, recover_marked marker mapped stored]
  constructor
  · intro h
    by_contra not
    rw [if_neg not] at h
    rcases h with ⟨_, h, -⟩ | ⟨h, -⟩
    all_goals cases h
  · intro accepted
    rw [if_pos accepted]
    exact .inl ⟨_, rfl, ends⟩

lemma recover_ne_accepted (clean : w.dirty = false) (writtenEnd : Nat) :
    recoverDirty c w ≠ .accepted writtenEnd := by
  have refused : ∀ key epoch,
      cacheRecoveryHeaderMatches w.header key epoch c.config w.metaSize = false := by
    intro key epoch
    simp [cacheRecoveryHeaderMatches, clean]
  simp only [recoverDirty, refused, clean, Bool.and_false, Bool.false_and, Bool.false_eq_true,
    if_false]
  split
  · exact nofun
  · split
    · split <;> exact nofun
    all_goals exact nofun

lemma recover_unmarked (marker : w.marker = none) (clean : w.dirty = false) :
    recoverDirty c w = .clean := by
  rw [recoverDirty, marker, clean]
  rfl

lemma recover_ne_clean {file} (marker : w.marker = some file) : recoverDirty c w ≠ .clean := by
  simp only [recoverDirty, marker]
  split
  · split
    · exact nofun
    · split <;> exact nofun
  all_goals exact nofun

lemma crashAtomic_clean (found : before.marker = none) (marker : crashed.marker = none)
    (clean : crashed.dirty = false) : CrashAtomic c before after crashed :=
  .inr ⟨recover_unmarked marker clean, .inl found⟩

lemma not_crashAtomic {file} (marker : crashed.marker = some file)
    (clean : crashed.dirty = false) : ¬ CrashAtomic c before after crashed := by
  rintro (⟨_, accepted, -⟩ | ⟨h, -⟩)
  · exact recover_ne_accepted clean _ accepted
  · exact recover_ne_clean marker h

end

/-- Its marker, the fields recovery recognises, and the room for its data. -/
structure Kept (w v : Writer) : Prop where
  marker : v.marker = some c.file
  known : Recognised c v.header
  metaSize : w.metaSize ≤ v.metaSize
  dataSize : w.dataSize ≤ v.dataSize

def Stores (effects : List (Writer → Writer)) : Prop :=
  ∀ effect ∈ effects, ∃ f, effect = store f ∧ ∀ h, Recognised c h → Recognised c (f h)

def SameEnds (w v : Writer) : Prop :=
  v.dirty = w.dirty ∧ v.writtenEnd = w.writtenEnd ∧
    v.objectSize = w.objectSize

def Undecided (w v : Writer) : Prop :=
  Kept c w v ∧ SameEnds w v ∧ v.writePhase = w.writePhase ∧
    v.uploadIdLength = w.uploadIdLength

def Cleared (v : Writer) : Prop := v.marker = some c.file ∧ v.dirty = false

section
variable {c} {w after v : Writer} {n : Nat}

lemma length_memcpy {array text} (fits : text.length ≤ array.length) :
    (memcpy array text).length = array.length := by
  rw [memcpy, overwrite, length_append, length_append, length_take, length_drop]
  omega

lemma WriterInv.kept (inv : WriterInv c w) (opened : w.dirtyFd = true) : Kept c w w where
  marker := by rw [inv.marker, if_pos opened]
  known := inv.known
  metaSize := le_rfl
  dataSize := le_rfl

variable {effects : List (Writer → Writer)}

lemma Stores.crashed (stores : Stores c effects) (known : Recognised c w.header) :
    ∃ h, Recognised c h ∧ Crash.after effects n w = { w with header := h } := by
  refine after_inv (I := fun v => ∃ h, Recognised c h ∧ v = { w with header := h }) ?_
    ⟨w.header, known, rfl⟩
  rintro effect mem v ⟨h, known, rfl⟩
  obtain ⟨f, rfl, keeps⟩ := stores effect mem
  exact ⟨f h, keeps h known, rfl⟩

lemma Stores.kept (stores : Stores c effects) (inv : WriterInv c w) (opened : w.dirtyFd = true) :
    Kept c w (Crash.after effects n w) := by
  obtain ⟨h, known, eq⟩ := stores.crashed (n := n) inv.known
  rw [eq]
  exact ⟨(inv.kept opened).marker, known, le_rfl, le_rfl⟩

section
variable (inv : WriterInv c w)
include inv

lemma Kept.atomic (kept : Kept c w v) (same : v.writtenEnd = w.writtenEnd) :
    CrashAtomic c w after v ↔ v.dirty = true ∧
      PhaseAgrees v.writePhase v.uploadIdLength ∧
      v.writtenEnd = v.objectSize := by
  apply crashAtomic_marked kept.marker kept.known
  · rw [same]
    exact inv.mapped.trans kept.metaSize
  · rw [same]
    exact inv.stored.trans kept.dataSize
  · exact .inl same

lemma Kept.atomic_phase (opened : w.dirtyFd = true) (kept : Kept c w v) (fields : SameEnds w v) :
    CrashAtomic c w after v ↔ PhaseAgrees v.writePhase v.uploadIdLength := by
  obtain ⟨dirty, same, objectSize⟩ := fields
  rw [kept.atomic inv same, dirty, same, objectSize, inv.dirty]
  exact ⟨fun h => h.2.1, fun h => ⟨opened, h, inv.ends⟩⟩

lemma WriterInv.undecided (opened : w.dirtyFd = true) : Undecided c w w :=
  ⟨inv.kept opened, ⟨rfl, rfl, rfl⟩, rfl, rfl⟩

lemma Undecided.atomic (opened : w.dirtyFd = true) (same : Undecided c w v) :
    CrashAtomic c w after v ↔ PhaseAgrees w.writePhase w.uploadIdLength := by
  obtain ⟨kept, ends, phase, uploadIdLength⟩ := same
  rw [kept.atomic_phase inv opened ends, phase, uploadIdLength]

lemma crashAtomic_nothing : CrashAtomic c w after w ↔
      (w.dirtyFd = true → PhaseAgrees w.writePhase w.uploadIdLength) := by
  cases opened : w.dirtyFd with
  | false =>
    apply iff_of_true _ nofun
    have marker := inv.marker
    rw [opened, if_neg Bool.false_ne_true] at marker
    exact crashAtomic_clean marker marker (inv.dirty.trans opened)
  | true =>
    rw [(inv.undecided opened).atomic inv opened]
    exact ⟨fun h _ => h, fun h => h rfl⟩

lemma crashAtomic_closed (closed : w.dirtyFd = false)
    (keep : ∀ effect ∈ effects, ∀ v : Writer, v.marker = none ∧ v.dirty = false →
      (effect v).marker = none ∧ (effect v).dirty = false) :
    CrashAtomic c w after (Crash.after effects n w) := by
  have marker := inv.marker
  rw [closed, if_neg Bool.false_ne_true] at marker
  have kept := Crash.after_inv (n := n) keep ⟨marker, inv.dirty.trans closed⟩
  exact crashAtomic_clean marker kept.1 kept.2

end

lemma setUploadId_stores (uploadId : Text) : Stores c (setUploadId c uploadId) := by
  rw [setUploadId]
  split
  · exact nofun
  · rename_i fits
    simp only [Stores, forall_mem_cons]
    refine ⟨⟨_, rfl, fun h known => ?_⟩, ⟨_, rfl, fun h known => ?_⟩, ⟨_, rfl, fun h known => ?_⟩,
      ⟨_, rfl, fun h known => ?_⟩, ⟨_, rfl, fun h known => ?_⟩, nofun⟩
    · exact { known with uploadId := by simp [zeros, known.uploadId] }
    · have room : uploadId.length ≤ h.uploadId.length := by
        rw [known.uploadId]
        omega
      exact { known with uploadId := (length_memcpy room).trans known.uploadId }
    · exact { known with uploadIdLength := not_lt.1 fits }
    · exact { known with uploadPartSize := rfl }
    · exact { known with }

lemma setUploadId_sameEnds (uploadId : Text) :
    SameEnds w (Crash.after (setUploadId c uploadId) n w) := by
  apply after_inv _ ⟨rfl, rfl, rfl⟩
  rw [setUploadId]
  split
  · exact nofun
  · simp only [forall_mem_cons]
    exact ⟨fun _ h => h, fun _ h => h, fun _ h => h, fun _ h => h, fun _ h => h, nofun⟩

lemma setUploadId_crash (inv : WriterInv c w) (uploadId : Text) :
    CrashAtomic c w after (Crash.after (setUploadId c uploadId) n w) ↔
      CrashSafe c w n (.setUploadId uploadId) := by
  rw [CrashSafe]
  by_cases long : kCacheUploadIdCapacity < uploadId.length
  · rw [setUploadId, if_pos long, if_pos (.inr long), Crash.after_nil]
    exact crashAtomic_nothing inv
  · cases opened : w.dirtyFd with
    | false =>
      apply iff_of_true _ nofun
      apply crashAtomic_closed inv opened
      rw [setUploadId, if_neg long]
      simp only [forall_mem_cons]
      exact ⟨fun _ h => h, fun _ h => h, fun _ h => h, fun _ h => h, fun _ h => h, nofun⟩
    | true =>
      have effects : setUploadId c uploadId = _ := if_neg long
      rw [((setUploadId_stores uploadId).kept inv opened).atomic_phase inv opened
        (setUploadId_sameEnds uploadId)]
      refine Iff.trans ?_ ⟨fun h _ => h, fun h => h rfl⟩
      match n with
      | 0 | 1 | 2 =>
        rw [if_pos (.inl (by decide)), effects]
        rfl
      | 3 | 4 =>
        rw [if_neg (by omega), effects]
        change PhaseAgrees w.writePhase uploadId.length ↔ _
        exact ⟨fun h _ => h, fun h => h (by decide)⟩
      | n + 5 =>
        rw [if_neg (by omega), effects, after_of_length_le (Nat.le_add_left 5 n)]
        apply iff_of_true
        · change PhaseAgrees (if uploadId.isEmpty then 1 else 2) uploadId.length
          cases uploadId with
          | nil => exact .inl ⟨rfl, rfl⟩
          | cons b id => exact .inr ⟨rfl, nofun⟩
        · intro small
          omega

lemma commitIdentity_stores {identity} (commits : w.commits c identity = true) :
    Stores c (commitIdentity identity) := by
  simp only [Writer.commits, Bool.and_eq_true, decide_eq_true_eq] at commits
  obtain ⟨⟨⟨etag, versionId⟩, -⟩, -⟩ := commits
  simp only [Stores, commitIdentity, forall_mem_cons]
  refine ⟨⟨_, rfl, fun h known => ?_⟩, ⟨_, rfl, fun h known => ?_⟩, ⟨_, rfl, fun h known => ?_⟩,
    ⟨_, rfl, fun h known => ?_⟩, ⟨_, rfl, fun h known => ?_⟩, ⟨_, rfl, fun h known => ?_⟩,
    ⟨_, rfl, fun h known => ?_⟩, nofun⟩
  · exact { known with etag := by simp [zeros, known.etag] }
  · exact { known with versionId := by simp [zeros, known.versionId] }
  · have room : identity.etag.length ≤ h.etag.length := by rwa [known.etag]
    exact { known with etag := (length_memcpy room).trans known.etag }
  · have room : identity.versionId.length ≤ h.versionId.length := by rwa [known.versionId]
    exact { known with versionId := (length_memcpy room).trans known.versionId }
  · exact { known with etagLength := etag }
  · exact { known with versionLength := versionId }
  · exact { known with }

lemma commitIdentity_same (identity : CacheIdentity) :
    SameEnds w (Crash.after (commitIdentity identity) n w) ∧
      (Crash.after (commitIdentity identity) n w).writePhase = w.writePhase ∧
      (Crash.after (commitIdentity identity) n w).uploadIdLength =
        w.uploadIdLength := by
  refine after_inv (I := fun v : Writer => SameEnds w v ∧
    v.writePhase = w.writePhase ∧
    v.uploadIdLength = w.uploadIdLength) ?_ ⟨⟨rfl, rfl, rfl⟩, rfl, rfl⟩
  simp only [commitIdentity, forall_mem_cons]
  exact ⟨fun _ h => h, fun _ h => h, fun _ h => h, fun _ h => h, fun _ h => h, fun _ h => h,
    fun _ h => h, nofun⟩

lemma commitIdentity_undecided (inv : WriterInv c w) (opened : w.dirtyFd = true)
    {identity} (commits : w.commits c identity = true) :
    Undecided c w (Crash.after (commitIdentity identity) n w) :=
  ⟨(commitIdentity_stores commits).kept inv opened, commitIdentity_same identity⟩

lemma commitPhase_cleared {m} (marker : v.marker = some c.file) :
    Cleared c (Crash.after (store (fun h => { h with dirty := false }) :: commitPhase)
      (m + 1) v) := by
  have start : Cleared c (v.store fun h => { h with dirty := false }) := ⟨marker, rfl⟩
  apply after_inv _ start
  simp only [commitPhase, forall_mem_cons]
  exact ⟨fun _ h => h, fun _ h => h, nofun⟩

lemma commitWrite_crash (inv : WriterInv c w) (identity : CacheIdentity) :
    CrashAtomic c w (complete (commitWrite c w identity) w)
        (Crash.after (commitWrite c w identity) n w) ↔
      CrashSafe c w n (.commitWrite identity) := by
  rw [CrashSafe]
  cases commits : w.commits c identity with
  | false =>
    rw [if_pos (.inr rfl), commitWrite, commits, if_neg Bool.false_ne_true, after_nil]
    exact crashAtomic_nothing inv
  | true =>
    have effects : commitWrite c w identity = _ := if_pos commits
    cases opened : w.dirtyFd with
    | false =>
      apply iff_of_true _ nofun
      apply crashAtomic_closed inv opened
      rw [effects]
      simp only [commitIdentity, commitPhase, cons_append, nil_append, forall_mem_cons]
      exact ⟨fun _ h => h, fun _ h => h, fun _ h => h, fun _ h => h, fun _ h => h, fun _ h => h,
        fun _ h => h, fun _ h => ⟨h.1, rfl⟩, fun _ h => h, fun _ h => h, fun _ h =>
          ⟨rfl, h.2⟩, nofun⟩
    | true =>
      refine Iff.trans ?_ ⟨fun h _ => h, fun h => h rfl⟩
      by_cases early : n ≤ 7
      · rw [if_pos (.inl early), effects, Crash.after_append_left early]
        exact (commitIdentity_undecided inv opened commits).atomic inv opened
      · rw [if_neg (by simpa using early)]
        by_cases late : 11 ≤ n
        · -- the marker is gone and the header is the committed one
          apply iff_of_true _ late
          rw [after_of_length_le (by rw [effects]; exact late)]
          refine .inr ⟨?_, .inr rfl⟩
          rw [effects]
          exact recover_unmarked rfl rfl
        · apply iff_of_false _ late
          have marker := (commitIdentity_undecided (n := 7) inv opened commits).1.marker
          rw [effects, after_append_right (not_le.1 early).le, ← cons_append,
            after_append_left (show n - 7 ≤ 3 by omega),
            show n - (commitIdentity identity).length = n - 8 + 1 from (by change n - 7 = _; omega)]
          have cleared := commitPhase_cleared (m := n - 8) marker
          exact not_crashAtomic cleared.1 cleared.2

lemma after_setClean (pages : List Nat) :
    ∃ bitmap, Crash.after (pages.map setClean) n w = { w with bitmap } := by
  refine after_inv (I := fun v => ∃ bitmap, v = { w with bitmap }) ?_ ⟨w.bitmap, rfl⟩
  rintro effect mem _ ⟨bitmap, rfl⟩
  obtain ⟨page, -, rfl⟩ := mem_map.1 mem
  exact ⟨_, rfl⟩

lemma complete_setClean (pages : List Nat) :
    ∃ bitmap, complete (pages.map setClean) w = { w with bitmap } := by
  rw [← after_of_length_le le_rfl]
  exact after_setClean pages

lemma publishDirty_crash (inv : WriterInv c w) {offset length writtenEnd}
    (allowed : (WriterCall.publishDirty offset length writtenEnd).allowed c w = true) :
    CrashAtomic c w (complete (publishDirty w offset length writtenEnd) w)
        (Crash.after (publishDirty w offset length writtenEnd) n w) ↔
      CrashSafe c w n (.publishDirty offset length writtenEnd) := by
  rw [CrashSafe]
  cases publishes : w.publishes offset length writtenEnd with
  | false =>
    rw [publishDirty, publishes, if_neg Bool.false_ne_true, after_nil]
    refine (crashAtomic_nothing inv).trans ?_
    exact ⟨fun h opened => ⟨h opened, nofun⟩, fun h opened => (h opened).1⟩
  | true =>
    have effects : publishDirty w offset length writtenEnd = _ := if_pos publishes
    simp only [Writer.publishes, Bool.and_eq_true, beq_iff_eq, bne_iff_ne] at publishes
    obtain ⟨⟨⟨dirty, start⟩, pos⟩, stop⟩ := publishes
    simp only [WriterCall.allowed, Bool.and_eq_true, decide_eq_true_eq] at allowed
    have opened : w.dirtyFd = true := inv.dirty.symm.trans dirty
    have kept := inv.kept opened
    have count : ((publishedPages offset writtenEnd).map setClean).length =
        (publishedPages offset writtenEnd).length := length_map _
    have shape : (w.dirtyFd = true → PhaseAgrees w.writePhase w.uploadIdLength ∧
        (true = true → n ≠ (publishedPages offset writtenEnd).length + 1)) ↔
        PhaseAgrees w.writePhase w.uploadIdLength ∧
          n ≠ (publishedPages offset writtenEnd).length + 1 :=
      ⟨fun h => ⟨(h opened).1, (h opened).2 rfl⟩, fun h _ => ⟨h.1, fun _ => h.2⟩⟩
    obtain ⟨bitmap, marked⟩ := complete_setClean (w := w) (publishedPages offset writtenEnd)
    rw [effects, complete_append, marked, shape]
    rcases Nat.lt_trichotomy n
      ((publishedPages offset writtenEnd).length + 1) with early | rfl | late
    · obtain ⟨bitmap, pages⟩ := after_setClean (n := n) (w := w) (publishedPages offset writtenEnd)
      have same : Undecided c w { w with bitmap } :=
        ⟨⟨kept.marker, kept.known, le_rfl, le_rfl⟩, ⟨rfl, rfl, rfl⟩, rfl, rfl⟩
      rw [Crash.after_append_left (by omega), pages, same.atomic inv opened]
      exact ⟨fun h => ⟨h, by omega⟩, fun h => h.1⟩
    · -- the object size is ahead of the written end
      apply iff_of_false _ (fun h => h.2 rfl)
      rw [Crash.after_append_right (by omega), count, Nat.add_sub_cancel_left, marked]
      intro atomic
      have ahead : Kept c w
        { w with header := { w.header with objectSize := writtenEnd }, bitmap } :=
        ⟨kept.marker, { kept.known with }, le_rfl, le_rfl⟩
      have ends : w.writtenEnd = writtenEnd := ((ahead.atomic inv rfl).1 atomic).2.2
      omega
    · rw [Crash.after_append_right (by omega), Crash.after_of_length_le (by change 2 ≤ _; omega),
        marked]
      refine Iff.trans (crashAtomic_marked kept.marker { kept.known with } allowed.2 allowed.1
        (.inr rfl)) ?_
      exact ⟨fun h => ⟨h.2.1, by omega⟩, fun h => ⟨dirty, h.1, rfl⟩⟩

lemma after_onMarker (calls : List (Option (List UInt8) → Option (List UInt8))) :
    Crash.after (calls.map onMarker) n w = { w with marker := Crash.after calls n w.marker } := by
  induction calls generalizing n w with
  | nil =>
    rw [map_nil, after_nil, after_nil]
  | cons call calls ih =>
    cases n with
    | zero => rfl
    | succ n =>
      change after (calls.map onMarker) n (w.onMarker call) = _
      rw [ih]
      rfl

section
variable (writes : Pwrites c.marker.record.length) (existing : Option (List UInt8))
include writes existing

lemma length_createMarker :
    (createMarker c.marker existing writes).length = writes.sizes.length + 2 := by
  have loop : ∀ record position sizes, (pwriteLoop record position sizes).length =
    sizes.length := by
    intro record position sizes
    induction sizes generalizing position with
    | nil => rfl
    | cons size sizes ih => rw [pwriteLoop, length_cons, length_cons, ih]
  have opens : c.marker.opens existing = true := decide_eq_true c.key_length_le
  rw [createMarker, if_pos opens, length_cons, length_cons, loop]

lemma createMarker_complete :
    complete (createMarker c.marker existing writes) existing = some c.file := by
  have opens : c.marker.opens existing = true := decide_eq_true c.key_length_le
  have size : c.marker.record.length = 1056 := length_dirtyMarker c.key_length_le
  have all : writtenBytes writes (writes.sizes.length + 2) = 1056 := by
    rw [writtenBytes, Nat.add_sub_cancel, take_length, writes.sum, size]
  rw [← after_of_length_le (n := writes.sizes.length + 2) (length_createMarker _ _).le,
    after_createMarker opens, all]
  rfl

lemma createMarker_some (pos : n ≠ 0) :
    ∃ file, Crash.after (createMarker c.marker existing writes) n existing = some file := by
  have opens : c.marker.opens existing = true := decide_eq_true c.key_length_le
  match n with
  | 0 => exact absurd rfl pos
  | 1 =>
    rw [createMarker, if_pos opens]
    exact ⟨[], rfl⟩
  | n + 2 => exact ⟨_, after_createMarker opens⟩

end

lemma complete_onMarker (writes : Pwrites c.marker.record.length) :
    complete ((createMarker c.marker w.marker writes).map onMarker) w =
    { w with marker := some c.file } := by
  rw [← after_of_length_le le_rfl, after_onMarker, length_map, after_of_length_le le_rfl,
    createMarker_complete]

lemma beginWrite_crash (inv : WriterInv c w) (writes : Pwrites c.marker.record.length) :
    CrashAtomic c w after (Crash.after (beginWrite c w writes) n w) ↔
      CrashSafe c w n (.beginWrite writes) := by
  rw [CrashSafe, beginWrite]
  cases opened : w.dirtyFd with
  | true =>
    rw [if_pos rfl, if_pos rfl, after_nil]
    refine (crashAtomic_nothing inv).trans ?_
    exact ⟨fun h => h opened, fun h _ => h⟩
  | false =>
    have marker := inv.marker
    rw [opened, if_neg Bool.false_ne_true] at marker
    have clean : w.dirty = false := inv.dirty.trans opened
    have count : ((createMarker c.marker w.marker writes).map onMarker).length =
        writes.sizes.length + 2 := by rw [length_map, length_createMarker]
    rw [if_neg Bool.false_ne_true, if_neg Bool.false_ne_true]
    by_cases early : n ≤ writes.sizes.length + 2
    · rw [after_append_left (by omega), after_onMarker]
      by_cases zero : n = 0
      · subst zero
        apply iff_of_true _ (.inl rfl)
        exact crashAtomic_clean marker marker clean
      · obtain ⟨file, some⟩ := createMarker_some writes w.marker zero
        refine iff_of_false ?_ ?_
        · exact not_crashAtomic some clean
        · omega
    · have known : Recognised c { w.header with dirty := true } := { inv.known with }
      rw [after_append_right (by omega), complete_onMarker, count]
      by_cases flag : n = writes.sizes.length + 3
      · have one : n - (writes.sizes.length + 2) = 1 := by omega
        rw [one]
        refine Iff.trans (crashAtomic_marked rfl known inv.mapped inv.stored (.inl rfl)) ?_
        constructor
        · rintro ⟨-, agrees, -⟩
          exact .inr (.inl ⟨flag, agrees⟩)
        · rintro (zero | ⟨-, agrees⟩ | ⟨late, -⟩)
          · omega
          · exact ⟨rfl, agrees, inv.ends⟩
          · omega
      · rw [after_of_length_le (by change 2 ≤ _; omega)]
        refine Iff.trans (crashAtomic_marked rfl { known with } inv.mapped inv.stored (.inl rfl)) ?_
        constructor
        · rintro ⟨-, ⟨-, empty⟩ | ⟨two, -⟩, -⟩
          · exact .inr (.inr ⟨by omega, empty⟩)
          · cases two
        · rintro (zero | ⟨three, -⟩ | ⟨-, empty⟩)
          · omega
          · omega
          · exact ⟨rfl, .inl ⟨rfl, empty⟩, inv.ends⟩

lemma grow_crash (inv : WriterInv c w) (metaSize dataSize : Nat) : CrashAtomic c w after
        (Crash.after ((WriterCall.grow metaSize dataSize).effects c w) n w) ↔
      CrashSafe c w n (.grow metaSize dataSize) := by
  rw [CrashSafe]
  cases opened : w.dirtyFd with
  | false =>
    apply iff_of_true _ nofun
    apply crashAtomic_closed inv opened
    simp only [WriterCall.effects, forall_mem_cons]
    exact ⟨fun _ h => h, fun _ h => h, nofun⟩
  | true =>
    have same : Undecided c w
        (Crash.after ((WriterCall.grow metaSize dataSize).effects c w) n w) := by
      apply after_inv _ (inv.undecided opened)
      simp only [WriterCall.effects, forall_mem_cons]
      refine ⟨?_, ?_, nofun⟩
      · rintro v ⟨kept, same⟩
        exact ⟨{ kept with metaSize := kept.metaSize.trans (le_max_left _ _) }, same⟩
      · rintro v ⟨kept, same⟩
        exact ⟨{ kept with dataSize := kept.dataSize.trans (le_max_left _ _) }, same⟩
    rw [same.atomic inv opened]
    exact ⟨fun h _ => h, fun h => h rfl⟩

lemma call_crash (inv : WriterInv c w) {call} (allowed : call.allowed c w = true) :
    CrashAtomic c w (Crash.complete (call.effects c w) w) (Crash.after (call.effects c w) n w) ↔
      CrashSafe c w n call := by
  cases call with
  | beginWrite writes => exact beginWrite_crash inv writes
  | publishDirty offset length writtenEnd => exact publishDirty_crash inv allowed
  | setUploadId uploadId => exact setUploadId_crash inv uploadId
  | commitWrite identity => exact commitWrite_crash inv identity
  | grow metaSize dataSize => exact grow_crash inv metaSize dataSize

end

section
variable {c} {w w' : Writer}

section
variable (inv : WriterInv c w)
include inv

lemma WriterInv.beginWrite (writes : Pwrites c.marker.record.length) :
    WriterInv c (complete (Persist.beginWrite c w writes) w) := by
  rw [Persist.beginWrite]
  split
  · exact inv
  · rw [complete_append, complete_onMarker]
    exact ⟨{ inv.known with }, inv.ends, inv.mapped, inv.stored, rfl, rfl⟩

lemma WriterInv.publishDirty {offset length writtenEnd}
    (allowed : (WriterCall.publishDirty offset length writtenEnd).allowed c w = true) :
    WriterInv c (complete (Persist.publishDirty w offset length writtenEnd) w) := by
  rw [Persist.publishDirty]
  split
  · simp only [WriterCall.allowed, Bool.and_eq_true, decide_eq_true_eq] at allowed
    obtain ⟨bitmap, eq⟩ := complete_setClean (w := w) (publishedPages offset writtenEnd)
    rw [complete_append, eq]
    exact ⟨{ inv.known with }, rfl, allowed.2, allowed.1, inv.dirty, inv.marker⟩
  · exact inv

lemma Stores.settled {effects} (stores : Stores c effects)
    (same : SameEnds w (after effects effects.length w)) : WriterInv c (complete effects w) := by
  rw [← after_of_length_le le_rfl]
  obtain ⟨h, known, eq⟩ := stores.crashed (n := effects.length) inv.known
  rw [eq] at same ⊢
  obtain ⟨dirty, writtenEnd, objectSize⟩ := same
  refine ⟨known, ?_, ?_, ?_, dirty.trans inv.dirty, inv.marker⟩
  · exact writtenEnd.trans (inv.ends.trans objectSize.symm)
  · change cacheMappingSize h.writtenEnd _ ≤ _
    rw [show h.writtenEnd = _ from writtenEnd]
    exact inv.mapped
  · exact writtenEnd.trans_le inv.stored

lemma WriterInv.commitWrite (identity : CacheIdentity) :
    WriterInv c (complete (Persist.commitWrite c w identity) w) := by
  rw [Persist.commitWrite]
  split
  · rename_i commits
    have stored := (commitIdentity_stores commits).settled inv (commitIdentity_same identity).1
    rw [complete_append]
    generalize complete (commitIdentity identity) w = v at stored ⊢
    exact { stored with
      known := { stored.known with uploadIdLength := Nat.zero_le _ }
      dirty := rfl
      marker := rfl }
  · exact inv

lemma WriterInv.keep {call} (h : writerStep c w call = some w') : WriterInv c w' := by
  rw [writerStep] at h
  split at h
  · rename_i allowed
    cases h
    cases call with
    | beginWrite writes => exact inv.beginWrite writes
    | publishDirty offset length writtenEnd => exact inv.publishDirty allowed
    | setUploadId uploadId =>
      exact (setUploadId_stores uploadId).settled inv (setUploadId_sameEnds uploadId)
    | commitWrite identity => exact inv.commitWrite identity
    | grow metaSize dataSize =>
      exact { inv with
          mapped := inv.mapped.trans (le_max_left _ _)
          stored := inv.stored.trans (le_max_left _ _) }
  · cases h

end

lemma createWriter_inv {etag versionId writeId} (he : etag.length ≤ kCacheEtagCapacity)
    (hv : versionId.length ≤ kCacheVersionCapacity) :
    WriterInv c (createWriter c etag versionId writeId) := by
  refine ⟨?_, rfl, ?_, le_rfl, rfl, rfl⟩
  · constructor
    case key =>
      change memcpy (zeros kCacheKeyCapacity) c.key = _
      rw [memcpy, overwrite, padded, zeros, take_zero, nil_append, drop_replicate, Nat.zero_add]
    case etag =>
      have room : etag.length ≤ (zeros kCacheEtagCapacity).length := by
        rwa [zeros, length_replicate]
      exact (length_memcpy room).trans length_replicate
    case versionId =>
      have room : versionId.length ≤ (zeros kCacheVersionCapacity).length := by
        rwa [zeros, length_replicate]
      exact (length_memcpy room).trans length_replicate
    case uploadId => exact length_replicate
    case etagLength => exact he
    case versionLength => exact hv
    case uploadIdLength => exact Nat.zero_le _
    all_goals rfl
  · exact (by decide : cacheMappingSize 0 kCacheBitmapUnit ≤ kCacheMetaHeaderSize)

/-- For every sequence of calls of a new writer, every call after it and every crash point of that
call: recovery yields the write as it was before or is after the call, or a clean entry, if and only
if the crash point is safe. -/
theorem writer_crash_iff {etag versionId writeId : Text} (he : etag.length ≤ kCacheEtagCapacity)
    (hv : versionId.length ≤ kCacheVersionCapacity) {calls : List (WriterCall c)}
    (run : run (writerStep c) (createWriter c etag versionId writeId) calls = some w)
    {call : WriterCall c} (h : writerStep c w call = some w') (n : Nat) :
    CrashAtomic c w w' (after (call.effects c w) n w) ↔ CrashSafe c w n call := by
  have inv : WriterInv c w := run_inv (fun _ _ _ inv h => inv.keep h)
    (createWriter_inv he hv) run
  rw [writerStep] at h
  split at h
  · rename_i allowed
    cases h
    exact call_crash inv allowed
  · cases h

def keyA : WriterKey where
  key := [97]
  epoch := 1
  config := ⟨8388608, 0⟩
  key_ne_nil := by decide
  key_length_le := by decide
  epoch_ne_zero := by decide
  epoch_lt := by decide

def tenBytes : List (WriterCall keyA) :=
  [.beginWrite ⟨[1056], by decide, (length_dirtyMarker (by decide)).symm⟩, .grow 8192 10]

theorem writer_crash_page : ∃ w w',
    run (writerStep keyA) (createWriter keyA [] [] (zeros 32)) tenBytes = some w ∧
    writerStep keyA w (.publishDirty 0 10 10) = some w' ∧
    recoverDirty keyA (after ((WriterCall.publishDirty 0 10 10).effects keyA w) 1 w) =
      .accepted 0 ∧
    CrashAtomic keyA w w' (after ((WriterCall.publishDirty 0 10 10).effects keyA w) 1 w) := by
  have ran : run (writerStep keyA) (createWriter keyA [] [] (zeros 32)) tenBytes = some _ :=
    run_final (by decide +kernel)
  refine ⟨_, _, ran, if_pos (by decide +kernel), by decide +kernel, ?_⟩
  refine (writer_crash_iff (by decide) (by decide) ran (if_pos (by decide +kernel)) 1).2 ?_
  intro _
  exact ⟨.inl (by decide +kernel), fun _ => by decide +kernel⟩

theorem writer_crash_between_ends : ∃ w w',
    run (writerStep keyA) (createWriter keyA [] [] (zeros 32)) tenBytes = some w ∧
    writerStep keyA w (.publishDirty 0 10 10) = some w' ∧
    recoverDirty keyA (after ((WriterCall.publishDirty 0 10 10).effects keyA w) 2 w) =
      .isolated ∧
    ¬ CrashAtomic keyA w w' (after ((WriterCall.publishDirty 0 10 10).effects keyA w) 2 w) := by
  have ran : run (writerStep keyA) (createWriter keyA [] [] (zeros 32)) tenBytes = some _ :=
    run_final (by decide +kernel)
  have isolated : recoverDirty keyA (after ((WriterCall.publishDirty 0 10 10).effects keyA
      (final (writerStep keyA) (createWriter keyA [] [] (zeros 32)) tenBytes)) 2
      (final (writerStep keyA) (createWriter keyA [] [] (zeros 32)) tenBytes)) =
        .isolated := by decide +kernel
  refine ⟨_, _, ran, if_pos (by decide +kernel), isolated, ?_⟩
  rw [CrashAtomic, isolated]
  rintro (⟨_, h, -⟩ | ⟨h, -⟩)
  all_goals cases h

end

end Ngs3fs.Persist
