import Ngs3fs.Cache.Basic
import Ngs3fs.Lib.Bytes
import Ngs3fs.Lib.Crash
import Ngs3fs.Lib.Tree

/-!
# Dirty and pending-delete markers

`create_dirty_marker` and `create_pending_delete` publish the name of a marker before its contents:
they open the file, allocate it, and write the record. A mount scans both trees of markers and
refuses to start if one of them cannot be attributed to a key. The records are the byte layouts of
`CacheDirtyMarker` and `CachePendingDeleteMarker` on a little-endian machine; `cache_leaf`, which
makes the directories, is left out. -/

namespace Ngs3fs.Persist
open Bytes Tree Cache List

def kCacheMetaVersion : Nat := 5

def kCacheMetaHeaderSize : Nat := 4096

def kCacheKeyCapacity : Nat := 1024

def kCacheEtagCapacity : Nat := 512

/-- As `std::string` holds them. -/
abbrev Text := List UInt8

def padded (capacity : Nat) (text : Text) : List UInt8 :=
  text ++ replicate (capacity - text.length) 0

/-- `NGS3DIRT`. -/
def dirtyMagic : List UInt8 := [78, 71, 83, 51, 68, 73, 82, 84]

/-- `NGS3PEND`. -/
def pendingMagic : List UInt8 := [78, 71, 83, 51, 80, 69, 78, 68]

/-- `CacheDirtyMarker`. -/
def cacheDirtyMarker (key : Text) (epoch : Nat) : List UInt8 :=
  dirtyMagic ++ toLE 4 kCacheMetaVersion ++ toLE 4 kCacheMetaHeaderSize ++ toLE 8 epoch ++
    toLE 4 key.length ++ (toLE 4 0 ++ padded kCacheKeyCapacity key)

/-- `CachePendingDeleteMarker`. -/
def cachePendingDeleteMarker (key restoreKey replacementEtag : Text) : List UInt8 :=
  pendingMagic ++ toLE 4 kCacheMetaVersion ++ toLE 4 kCacheMetaHeaderSize ++
    toLE 4 (if restoreKey.isEmpty then 2 else 1) ++ toLE 4 key.length ++
    toLE 4 restoreKey.length ++ toLE 4 replacementEtag.length ++ (padded kCacheKeyCapacity key ++
      padded kCacheKeyCapacity restoreKey ++ padded kCacheEtagCapacity replacementEtag)

/-- `CacheDirtyRecord`. -/
structure CacheDirtyRecord where
  key : Text
  epoch : Nat
  valid : Bool
  deriving DecidableEq

/-- `CachePendingDelete`. -/
structure CachePendingDelete where
  key : Text
  restoreKey : Text
  replacementEtag : Text
  rollback : Bool
  deriving DecidableEq

def readDirtyMarker (file : List UInt8) : Except CacheError (List CacheDirtyRecord) :=
  if file.length < 1056 then .error (.runtimeError "short cache dirty marker")
  else
    let epoch := ofLE (slice 16 8 file)
    let keyLength := ofLE (slice 24 4 file)
    let valid := slice 0 8 file == dirtyMagic && ofLE (slice 8 4 file) == kCacheMetaVersion &&
      ofLE (slice 12 4 file) == kCacheMetaHeaderSize && epoch != 0
    if keyLength = 0 ∨ kCacheKeyCapacity < keyLength then
      .error (.runtimeError "invalid cache dirty marker without an identifiable key")
    else .ok [{ key := slice 32 keyLength file, epoch, valid }]

/-- A malformed marker is skipped once it has a key. -/
def readPendingMarker (file : List UInt8) : Except CacheError (List CachePendingDelete) :=
  if file.length < 2592 then .error (.runtimeError "short cache pending-delete marker")
  else
    let phase := ofLE (slice 16 4 file)
    let keyLength := ofLE (slice 20 4 file)
    let restoreKeyLength := ofLE (slice 24 4 file)
    let replacementEtagLength := ofLE (slice 28 4 file)
    if keyLength = 0 ∨ kCacheKeyCapacity < keyLength ∨ kCacheKeyCapacity < restoreKeyLength ∨
        kCacheEtagCapacity < replacementEtagLength then
      .error (.runtimeError "invalid cache pending-delete marker without a key")
    else if slice 0 8 file ≠ pendingMagic ∨ ofLE (slice 8 4 file) ≠ kCacheMetaVersion ∨
        ofLE (slice 12 4 file) ≠ kCacheMetaHeaderSize ∨ (phase ≠ 1 ∧ phase ≠ 2) ∨
        (phase = 1 ∧ restoreKeyLength = 0) then .ok []
    else
      .ok [{ key := slice 32 keyLength file
             restoreKey := slice 1056 restoreKeyLength file
             replacementEtag := slice 2080 replacementEtagLength file
             rollback := phase == 1 }]

/-- `cache_scan_dirty_directory`. -/
def cacheScanDirtyDirectory : List (String × Node) → Except CacheError (List CacheDirtyRecord) :=
  scan readDirtyMarker (.runtimeError "non-regular cache dirty marker")

/-- `cache_scan_pending_directory`. -/
def cacheScanPendingDirectory :
    List (String × Node) → Except CacheError (List CachePendingDelete) :=
  scan readPendingMarker (.runtimeError "non-regular cache pending-delete marker")

structure Pwrites (total : Nat) where
  sizes : List Nat
  pos : ∀ size ∈ sizes, 0 < size
  sum : sizes.sum = total

inductive NewMarker where
  | dirty (key : Text) (epoch : Nat)
  | pendingDelete (key restoreKey replacementEtag : Text)

namespace NewMarker

def record : NewMarker → List UInt8
  | dirty key epoch => cacheDirtyMarker key epoch
  | pendingDelete key restoreKey replacementEtag =>
    cachePendingDeleteMarker key restoreKey replacementEtag

def key : NewMarker → Text
  | dirty key _ => key
  | pendingDelete key _ _ => key

def keyLengthOffset : NewMarker → Nat
  | dirty _ _ => 24
  | pendingDelete _ _ _ => 20

/-- The texts fit into the record, and `O_EXCL` finds no file. -/
def opens (existing : Option (List UInt8)) : NewMarker → Bool
  | dirty key _ => key.length ≤ kCacheKeyCapacity
  | pendingDelete key restoreKey replacementEtag =>
    !key.isEmpty && key.length ≤ kCacheKeyCapacity && restoreKey.length ≤ kCacheKeyCapacity &&
      replacementEtag.length ≤ kCacheEtagCapacity && existing.isNone

end NewMarker

/-- `O_CREAT | O_TRUNC`, or `O_CREAT | O_EXCL`. -/
def openMarker (_ : Option (List UInt8)) : Option (List UInt8) := some []

/-- `fallocate` of a header's length. -/
def allocateMarker (file : Option (List UInt8)) : Option (List UInt8) :=
  file.map fun file => file ++ replicate (kCacheMetaHeaderSize - file.length) 0

def pwriteMarker (offset : Nat) (bytes : List UInt8) (file : Option (List UInt8)) :
    Option (List UInt8) :=
  file.map fun file => overwrite file offset bytes

def pwriteLoop (record : List UInt8) :
    Nat → List Nat → List (Option (List UInt8) → Option (List UInt8))
  | _, [] => []
  | position, size :: sizes =>
    pwriteMarker position (slice position size record) :: pwriteLoop record (position + size) sizes

/-- `create_dirty_marker` and `create_pending_delete`. -/
def createMarker (marker : NewMarker) (existing : Option (List UInt8))
    (writes : Pwrites marker.record.length) : List (Option (List UInt8) → Option (List UInt8)) :=
  if marker.opens existing then
    openMarker :: allocateMarker :: pwriteLoop marker.record 0 writes.sizes
  else []

def writtenBytes {total : Nat} (writes : Pwrites total) (n : Nat) : Nat :=
  (writes.sizes.take (n - 2)).sum

section
variable {key restoreKey replacementEtag : Text} {epoch : Nat}

@[simp]
lemma length_padded {capacity text} (h : text.length ≤ capacity) :
    (padded capacity text).length = capacity := by
  rw [padded, length_append, length_replicate]
  omega

lemma length_dirtyMarker (h : key.length ≤ kCacheKeyCapacity) :
    (cacheDirtyMarker key epoch).length = 1056 := by
  simp only [cacheDirtyMarker, length_append, length_toLE, length_padded h]
  rfl

lemma length_pendingMarker (hk : key.length ≤ kCacheKeyCapacity)
    (hr : restoreKey.length ≤ kCacheKeyCapacity)
    (he : replacementEtag.length ≤ kCacheEtagCapacity) :
    (cachePendingDeleteMarker key restoreKey replacementEtag).length = 2592 := by
  simp only [cachePendingDeleteMarker, length_append, length_toLE, length_padded hk,
    length_padded hr, length_padded he]
  rfl

lemma dirtyMarker_keyLength : slice 24 4 (cacheDirtyMarker key epoch) = toLE 4 key.length :=
  slice_append (by simp [dirtyMagic]) (length_toLE _ _)

lemma pendingMarker_keyLength :
    slice 20 4 (cachePendingDeleteMarker key restoreKey replacementEtag) = toLE 4 key.length := by
  rw [cachePendingDeleteMarker, append_assoc _ (toLE 4 restoreKey.length),
    append_assoc _ (toLE 4 restoreKey.length ++ _)]
  exact slice_append (by simp [pendingMagic]) (length_toLE _ _)

lemma pendingMarker_restoreKeyLength :
    slice 24 4 (cachePendingDeleteMarker key restoreKey replacementEtag) =
      toLE 4 restoreKey.length := by
  rw [cachePendingDeleteMarker, append_assoc _ (toLE 4 replacementEtag.length)]
  exact slice_append (by simp [pendingMagic]) (length_toLE _ _)

lemma pendingMarker_etagLength :
    slice 28 4 (cachePendingDeleteMarker key restoreKey replacementEtag) =
      toLE 4 replacementEtag.length := by
  rw [cachePendingDeleteMarker]
  exact slice_append (by simp [pendingMagic]) (length_toLE _ _)

end

section
variable {key restoreKey replacementEtag : Text} {epoch count : Nat}

lemma readDirtyMarker_written (h : key.length ≤ kCacheKeyCapacity) (reached : count ≤ 1056) :
    (∃ records, readDirtyMarker (written (cacheDirtyMarker key epoch) count kCacheMetaHeaderSize) =
      .ok records) ↔ key.length % 256 ^ (count - 24) ≠ 0 := by
  have size : (cacheDirtyMarker key epoch).length = 1056 := length_dirtyMarker h
  have capacity : kCacheKeyCapacity = 1024 := rfl
  have room : (cacheDirtyMarker key epoch).length ≤ kCacheMetaHeaderSize := by
    rw [size]
    decide
  have long : ¬
    (written (cacheDirtyMarker key epoch) count kCacheMetaHeaderSize).length < 1056 := by
    rw [length_written (by omega) room]
    decide
  have shown : ofLE (slice 24 4 (written (cacheDirtyMarker key epoch) count kCacheMetaHeaderSize)) =
      key.length % 256 ^ (count - 24) := by
    apply ofLE_slice_written (by omega) room dirtyMarker_keyLength
    omega
  have small : key.length % 256 ^ (count - 24) ≤ kCacheKeyCapacity := (Nat.mod_le _ _).trans h
  rw [readDirtyMarker, if_neg long, shown]
  constructor
  · rintro ⟨records, ok⟩ zero
    rw [if_pos (.inl zero)] at ok
    cases ok
  · intro nonzero
    rw [if_neg (by omega)]
    exact ⟨_, rfl⟩

lemma readDirtyMarker_complete (pos : key ≠ []) (h : key.length ≤ kCacheKeyCapacity)
    (live : epoch ≠ 0) (small : epoch < 256 ^ 8) :
    readDirtyMarker (written (cacheDirtyMarker key epoch) 1056 kCacheMetaHeaderSize) =
      .ok [{ key, epoch, valid := true }] := by
  generalize hm : cacheDirtyMarker key epoch = marker
  have size : marker.length = 1056 := hm ▸ length_dirtyMarker h
  have capacity : kCacheKeyCapacity = 1024 := rfl
  have length : key.length ≠ 0 := fun zero => pos (eq_nil_of_length_eq_zero zero)
  have room : marker.length ≤ kCacheMetaHeaderSize := by
    rw [size]
    decide
  have all {offset width : Nat} (fits : offset + width ≤ 1056) :
      slice offset width (written marker 1056 kCacheMetaHeaderSize) = slice offset width marker :=
    slice_written_all (by omega) room fits
  have long : ¬ (written marker 1056 kCacheMetaHeaderSize).length < 1056 := by
    rw [length_written (by omega) room]
    decide
  generalize written marker 1056 kCacheMetaHeaderSize = file at all long ⊢
  have field {offset width n : Nat} (fits : offset + width ≤ 1056) (small : n < 256 ^ width)
      (field : slice offset width marker = toLE width n) : ofLE (slice offset width file) = n := by
    rw [all fits, field, ← take_length (l := toLE width n), length_toLE,
      ofLE_take_toLE _ _ _ le_rfl,
      Nat.mod_eq_of_lt small]
  have magic : slice 0 8 file = dirtyMagic := by
    rw [all (by omega), ← hm]
    rfl
  have version : ofLE (slice 8 4 file) = kCacheMetaVersion := by
    apply field (by omega) (by decide)
    rw [← hm]
    rfl
  have headerSize : ofLE (slice 12 4 file) = kCacheMetaHeaderSize := by
    apply field (by omega) (by decide)
    rw [← hm]
    rfl
  have epochField : ofLE (slice 16 8 file) = epoch := by
    apply field (by omega) small
    rw [← hm]
    rfl
  have keyLength : ofLE (slice 24 4 file) = key.length := by
    apply field (by omega) (by omega)
    rw [← hm]
    exact dirtyMarker_keyLength
  have keyField : slice 32 key.length file = key := by
    rw [all (by omega), ← hm, cacheDirtyMarker, padded,
      ← append_assoc, ← append_assoc]
    exact slice_append (by simp [dirtyMagic]) rfl
  have readable : ¬ (key.length = 0 ∨ kCacheKeyCapacity < key.length) := by omega
  rw [readDirtyMarker, if_neg long]
  simp only [magic, version, headerSize, epochField, keyLength, keyField, if_neg readable]
  simp [live]

lemma readPendingMarker_written (hk : key.length ≤ kCacheKeyCapacity)
    (hr : restoreKey.length ≤ kCacheKeyCapacity) (he : replacementEtag.length ≤ kCacheEtagCapacity)
    (reached : count ≤ 2592) :
    (∃ records, readPendingMarker (written
      (cachePendingDeleteMarker key restoreKey replacementEtag) count kCacheMetaHeaderSize) =
      .ok records) ↔ key.length % 256 ^ (count - 20) ≠ 0 := by
  generalize hm : cachePendingDeleteMarker key restoreKey replacementEtag = marker
  have size : marker.length = 2592 := hm ▸ length_pendingMarker hk hr he
  have capacity : kCacheKeyCapacity = 1024 := rfl
  have etagCapacity : kCacheEtagCapacity = 512 := rfl
  have room : marker.length ≤ kCacheMetaHeaderSize := by
    rw [size]
    decide
  have long : ¬ (written marker count kCacheMetaHeaderSize).length < 2592 := by
    rw [length_written (by omega) room]
    decide
  have shown : ofLE (slice 20 4 (written marker count kCacheMetaHeaderSize)) =
      key.length % 256 ^ (count - 20) := by
    apply ofLE_slice_written (by omega) room (hm ▸ pendingMarker_keyLength)
    omega
  have restore : ofLE (slice 24 4 (written marker count kCacheMetaHeaderSize)) =
      restoreKey.length % 256 ^ (count - 24) := by
    apply ofLE_slice_written (by omega) room (hm ▸ pendingMarker_restoreKeyLength)
    omega
  have etag : ofLE (slice 28 4 (written marker count kCacheMetaHeaderSize)) =
      replacementEtag.length % 256 ^ (count - 28) := by
    apply ofLE_slice_written (by omega) room (hm ▸ pendingMarker_etagLength)
    omega
  have small := Nat.mod_le key.length (256 ^ (count - 20))
  have restoreSmall := Nat.mod_le restoreKey.length (256 ^ (count - 24))
  have etagSmall := Nat.mod_le replacementEtag.length (256 ^ (count - 28))
  rw [readPendingMarker, if_neg long, shown, restore, etag]
  constructor
  · rintro ⟨records, ok⟩ zero
    rw [if_pos (.inl zero)] at ok
    cases ok
  · intro nonzero
    rw [if_neg (by omega)]
    split
    all_goals exact ⟨_, rfl⟩

lemma after_pwriteLoop {record position j sizes}
    (fits : position + sizes.sum ≤ record.length) (room : record.length ≤ kCacheMetaHeaderSize) :
    Crash.after (pwriteLoop record position sizes) j
        (some (written record position kCacheMetaHeaderSize)) =
      some (written record (position + (sizes.take j).sum) kCacheMetaHeaderSize) := by
  induction sizes generalizing position j with
  | nil =>
    rw [take_nil]
    cases j <;> rfl
  | cons size sizes ih =>
    cases j with
    | zero => rfl
    | succ j =>
      rw [sum_cons] at fits
      have first : pwriteMarker position (slice position size record)
          (some (written record position kCacheMetaHeaderSize)) =
          some (written record (position + size) kCacheMetaHeaderSize) :=
        congrArg some (overwrite_written (by omega) room)
      rw [take_succ_cons, sum_cons, ← Nat.add_assoc, ← ih (by omega), ← first]
      rfl

end

structure MarkerTrees where
  dirty : List (String × Node)
  pending : List (String × Node)

/-- `recover_dirty`, `recover_pending_deletes`; an error rejects the mount. -/
def recoverMarkers (trees : MarkerTrees) :
    Except CacheError (List CacheDirtyRecord × List CachePendingDelete) :=
  match cacheScanDirtyDirectory trees.dirty with
  | .error e => .error e
  | .ok dirty =>
    match cacheScanPendingDirectory trees.pending with
    | .error e => .error e
    | .ok pending => .ok (dirty, pending)

namespace NewMarker

def trees (marker : NewMarker) (hole : Hole) (name : String) (other : List (String × Node))
    (content : Option (List UInt8)) : MarkerTrees :=
  match marker with
  | dirty _ _ => { dirty := hole.fill name content, pending := other }
  | pendingDelete _ _ _ => { dirty := other, pending := hole.fill name content }

def MountKeeps (marker : NewMarker) (hole : Hole) (name : String) (other : List (String × Node))
    (content : Option (List UInt8)) : Prop :=
  ∃ others records, recoverMarkers (marker.trees hole name other none) = .ok others ∧
    recoverMarkers (marker.trees hole name other content) = .ok records ∧
    others.1.Sublist records.1 ∧ others.2.Sublist records.2

def Reads : NewMarker → Option (List UInt8) → Prop
  | dirty _ _, content => ∃ records, scanPlace readDirtyMarker content = .ok records
  | pendingDelete _ _ _, content => ∃ records, scanPlace readPendingMarker content = .ok records

end NewMarker

lemma recoverMarkers_ok {trees} {records} :
    recoverMarkers trees = .ok records ↔ cacheScanDirtyDirectory trees.dirty = .ok records.1 ∧
      cacheScanPendingDirectory trees.pending = .ok records.2 := by
  rw [recoverMarkers]
  constructor
  · intro h
    split at h
    · cases h
    · rename_i hd
      split at h
      · cases h
      · rename_i hp
        cases h
        exact ⟨hd, hp⟩
  · rintro ⟨hd, hp⟩
    rw [hd, hp]

section
variable {marker : NewMarker} {hole : Hole} {name : String} {other : List (String × Node)}
  {existing content : Option (List UInt8)}

section
variable (scanned : ∃ records, recoverMarkers (marker.trees hole name other existing) = .ok records)
include scanned

lemma mountKeeps_iff : marker.MountKeeps hole name other content ↔ marker.Reads content := by
  obtain ⟨records, scanned⟩ := scanned
  obtain ⟨hd, hp⟩ := recoverMarkers_ok.1 scanned
  cases marker with
  | dirty key epoch =>
    apply Iff.trans _ (scan_fill_keeps hd)
    constructor
    · rintro ⟨others, records', ho, hr, sub, -⟩
      exact ⟨others.1, records'.1, (recoverMarkers_ok.1 ho).1, (recoverMarkers_ok.1 hr).1, sub⟩
    · rintro ⟨others, records', ho, hr, sub⟩
      refine ⟨(others, records.2), (records', records.2), ?_, ?_, sub, List.Sublist.refl _⟩
      · exact recoverMarkers_ok.2 ⟨ho, hp⟩
      · exact recoverMarkers_ok.2 ⟨hr, hp⟩
  | pendingDelete key restoreKey replacementEtag =>
    apply Iff.trans _ (scan_fill_keeps hp)
    constructor
    · rintro ⟨others, records', ho, hr, -, sub⟩
      exact ⟨others.2, records'.2, (recoverMarkers_ok.1 ho).2, (recoverMarkers_ok.1 hr).2, sub⟩
    · rintro ⟨others, records', ho, hr, sub⟩
      refine ⟨(records.1, others), (records.1, records'), ?_, ?_, List.Sublist.refl _, sub⟩
      · exact recoverMarkers_ok.2 ⟨hd, ho⟩
      · exact recoverMarkers_ok.2 ⟨hd, hr⟩

lemma reads_existing : marker.Reads existing := by
  obtain ⟨records, scanned⟩ := scanned
  obtain ⟨hd, hp⟩ := recoverMarkers_ok.1 scanned
  cases marker with
  | dirty key epoch =>
    obtain ⟨_, place, _, -, h, -⟩ := scan_fill.1 hd
    exact ⟨place, h⟩
  | pendingDelete key restoreKey replacementEtag =>
    obtain ⟨_, place, _, -, h, -⟩ := scan_fill.1 hp
    exact ⟨place, h⟩

end

lemma not_reads_nil : ¬ marker.Reads (some []) := by
  cases marker with
  | dirty key epoch | pendingDelete key restoreKey replacementEtag =>
    rintro ⟨records, h⟩
    cases h

section
variable (opens : marker.opens existing = true)
include opens

lemma record_length_le : marker.record.length ≤ kCacheMetaHeaderSize := by
  cases marker with
  | dirty key epoch =>
    have fits : key.length ≤ kCacheKeyCapacity := of_decide_eq_true opens
    exact (length_dirtyMarker fits).trans_le (by decide)
  | pendingDelete key restoreKey replacementEtag =>
    simp only [NewMarker.opens, Bool.and_eq_true, decide_eq_true_eq] at opens
    obtain ⟨⟨⟨⟨-, hk⟩, hr⟩, he⟩, -⟩ := opens
    exact (length_pendingMarker hk hr he).trans_le (by decide)

lemma reads_written {count} (reached : count ≤ marker.record.length) :
    marker.Reads (some (written marker.record count kCacheMetaHeaderSize)) ↔
      marker.key.length % 256 ^ (count - marker.keyLengthOffset) ≠ 0 := by
  cases marker with
  | dirty key epoch =>
    have fits : key.length ≤ kCacheKeyCapacity := of_decide_eq_true opens
    exact readDirtyMarker_written fits (reached.trans_eq (length_dirtyMarker fits))
  | pendingDelete key restoreKey replacementEtag =>
    simp only [NewMarker.opens, Bool.and_eq_true, decide_eq_true_eq] at opens
    obtain ⟨⟨⟨⟨-, hk⟩, hr⟩, he⟩, -⟩ := opens
    exact readPendingMarker_written hk hr he (reached.trans_eq (length_pendingMarker hk hr he))

lemma after_createMarker {writes n} :
    Crash.after (createMarker marker existing writes) (n + 2) existing =
      some (written marker.record (writtenBytes writes (n + 2)) kCacheMetaHeaderSize) := by
  have room := record_length_le opens
  have fits : 0 + writes.sizes.sum ≤ marker.record.length := by rw [Nat.zero_add, writes.sum]
  have start : allocateMarker (openMarker existing) =
      some (written marker.record 0 kCacheMetaHeaderSize) := rfl
  have loop := after_pwriteLoop (j := n) fits room
  rw [Nat.zero_add] at loop
  rw [createMarker, if_pos opens, writtenBytes, Nat.add_sub_cancel, ← loop, ← start]
  rfl

end

lemma writtenBytes_le {total} (writes : Pwrites total) (n : Nat) :
    writtenBytes writes n ≤ total := by
  have sub : (writes.sizes.take (n - 2)).Sublist writes.sizes := take_sublist _ _
  calc writtenBytes writes n ≤ writes.sizes.sum := sub.sum_le_sum fun _ _ => Nat.zero_le _
    _ = total := writes.sum

/-- A crash in the creation of a marker leaves trees the next mount accepts, with every other
marker, if and only if the call was refused, had not yet opened the file, or had written the first
byte of the length of the key that is not zero. -/
theorem createMarker_crash_iff (marker : NewMarker) (hole : Hole) (name : String)
    (other : List (String × Node)) (existing : Option (List UInt8))
    (writes : Pwrites marker.record.length) (n : Nat)
    (scanned : ∃ records, recoverMarkers (marker.trees hole name other existing) = .ok records) :
    marker.MountKeeps hole name other
        (Crash.after (createMarker marker existing writes) n existing) ↔
      n = 0 ∨ marker.opens existing = false ∨
        marker.key.length % 256 ^ (writtenBytes writes n - marker.keyLengthOffset) ≠ 0 := by
  rw [mountKeeps_iff scanned]
  cases opens : marker.opens existing with
  | false =>
    have nothing : Crash.after (createMarker marker existing writes) n existing = existing := by
      rw [createMarker, opens, if_neg Bool.false_ne_true, Crash.after_nil]
    rw [nothing]
    exact iff_of_true (reads_existing scanned) (.inr (.inl rfl))
  | true =>
    match n with
    | 0 => exact iff_of_true (reads_existing scanned) (.inl rfl)
    | 1 =>
      have opened : Crash.after (createMarker marker existing writes) 1 existing = some [] := by
        rw [createMarker, if_pos opens]
        rfl
      rw [opened]
      apply iff_of_false not_reads_nil
      simp [writtenBytes, Nat.mod_one]
    | n + 2 =>
      rw [after_createMarker opens, reads_written opens (writtenBytes_le writes _)]
      simp

def twoWrites : Pwrites (NewMarker.dirty [97] 1).record.length where
  sizes := [25, 1031]
  pos := by decide
  sum := (length_dirtyMarker (by decide)).symm

theorem createMarker_crash_twoWrites : (NewMarker.dirty [97] 1).MountKeeps (.here [] []) "a" []
    (Crash.after (createMarker (.dirty [97] 1) none twoWrites) 3 none) :=
  (createMarker_crash_iff (.dirty [97] 1) (.here [] []) "a" [] none twoWrites 3
    ⟨([], []), rfl⟩).2 (.inr (.inr (by decide)))

/-- A crash right after the open: the mount is rejected, and with it the marker of another key. -/
theorem createMarker_crash_opened : recoverMarkers ((NewMarker.dirty [97] 1).trees
      (.here [("b", .file (cacheDirtyMarker [98] 7))] []) "a" [] none) =
        .ok ([⟨[98], 7, true⟩], []) ∧
    recoverMarkers ((NewMarker.dirty [97] 1).trees
      (.here [("b", .file (cacheDirtyMarker [98] 7))] []) "a" []
      (Crash.after (createMarker (.dirty [97] 1) none twoWrites) 1 none)) =
        .error (.runtimeError "short cache dirty marker") ∧
    ¬ (NewMarker.dirty [97] 1).MountKeeps (.here [("b", .file (cacheDirtyMarker [98] 7))] []) "a" []
      (Crash.after (createMarker (.dirty [97] 1) none twoWrites) 1 none) := by
  have complete : recoverMarkers ((NewMarker.dirty [97] 1).trees
      (.here [("b", .file (cacheDirtyMarker [98] 7))] []) "a" [] none) =
        .ok ([⟨[98], 7, true⟩], []) := by decide +kernel
  refine ⟨complete, by decide +kernel, ?_⟩
  rw [mountKeeps_iff ⟨_, complete⟩]
  exact not_reads_nil

end

end Ngs3fs.Persist
