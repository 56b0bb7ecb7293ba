import Ngs3fs.Persist.Marker

/-!
# The metadata header

`CacheMetaHeader` field by field, with the two tests that decide what becomes of an entry after a
restart: `cache_identity_matches` for a clean entry and `cache_recovery_header_matches` for a dirty
one. The flag bits are Booleans, and the character arrays are lists of their capacity. -/

namespace Ngs3fs.Persist
open Bytes Cache

def kCacheVersionCapacity : Nat := 1024

def kCacheUploadIdCapacity : Nat := 1024

def kCacheWriteIdCapacity : Nat := 32

/-- `CacheIdentity`. -/
structure CacheIdentity where
  key : Text
  etag : Text
  versionId : Text
  size : Nat
  mtime : Int
  deriving DecidableEq

/-- `dirty` and `exported` are the bits of `flags`. -/
structure CacheMetaHeader where
  magic : List UInt8
  version : Nat
  headerSize : Nat
  bitmapUnit : Nat
  dirty : Bool
  exported : Bool
  objectSize : Nat
  mtime : Int
  generationEpoch : Nat
  writtenEnd : Nat
  keyLength : Nat
  etagLength : Nat
  versionLength : Nat
  uploadIdLength : Nat
  writeIdLength : Nat
  uploadPartSize : Nat
  checksumAlgorithm : Nat
  writePhase : Nat
  key : List UInt8
  etag : List UInt8
  versionId : List UInt8
  uploadId : List UInt8
  writeId : List UInt8
  deriving DecidableEq

/-- `NGS3CACH`. -/
def cacheMagic : List UInt8 := [78, 71, 83, 51, 67, 65, 67, 72]

def zeros (capacity : Nat) : List UInt8 := List.replicate capacity 0

def CacheMetaHeader.zero : CacheMetaHeader where
  magic := zeros 8
  version := 0
  headerSize := 0
  bitmapUnit := 0
  dirty := false
  exported := false
  objectSize := 0
  mtime := 0
  generationEpoch := 0
  writtenEnd := 0
  keyLength := 0
  etagLength := 0
  versionLength := 0
  uploadIdLength := 0
  writeIdLength := 0
  uploadPartSize := 0
  checksumAlgorithm := 0
  writePhase := 0
  key := zeros kCacheKeyCapacity
  etag := zeros kCacheEtagCapacity
  versionId := zeros kCacheVersionCapacity
  uploadId := zeros kCacheUploadIdCapacity
  writeId := zeros kCacheWriteIdCapacity

/-- `cache_bitmap_words`. -/
def cacheBitmapWords (size pageSize : Nat) : Nat :=
  ((if size = 0 then 0 else (size - 1) / pageSize + 1) + 31) / 32

/-- `cache_mapping_size`. -/
def cacheMappingSize (size pageSize : Nat) : Nat :=
  kCacheMetaHeaderSize + cacheBitmapWords size pageSize * 8

/-- `cache_identity_matches`. -/
def cacheIdentityMatches (header : CacheMetaHeader) (identity : CacheIdentity) : Bool :=
  header.magic == cacheMagic && header.version == kCacheMetaVersion &&
  header.headerSize == kCacheMetaHeaderSize && !header.dirty &&
  header.bitmapUnit == kCacheBitmapUnit && header.objectSize == identity.size &&
  header.generationEpoch != 0 && header.keyLength == identity.key.length &&
  header.etagLength == identity.etag.length &&
  header.versionLength == identity.versionId.length &&
  decide (header.keyLength ≤ header.key.length) &&
  decide (header.etagLength ≤ header.etag.length) &&
  decide (header.versionLength ≤ header.versionId.length) &&
  decide (header.uploadIdLength ≤ header.uploadId.length) &&
  decide (header.writeIdLength ≤ header.writeId.length) &&
  header.key.take identity.key.length == identity.key &&
  header.etag.take identity.etag.length == identity.etag &&
  header.versionId.take identity.versionId.length == identity.versionId &&
  (!identity.versionId.isEmpty || !identity.etag.isEmpty || header.mtime == identity.mtime)

lemma etag_of_identityMatches {header identity} (h : cacheIdentityMatches header identity = true) :
    identity.etag = header.etag.take header.etagLength := by
  simp only [cacheIdentityMatches, Bool.and_eq_true, beq_iff_eq] at h
  have length : header.etagLength = identity.etag.length := h.1.1.1.1.1.1.1.1.1.1.2
  have bytes : header.etag.take identity.etag.length = identity.etag := h.1.1.2
  rw [length, bytes]

/-- The part of `CacheConfig` the write path reads. -/
structure WriteConfig where
  uploadPartSize : Nat
  checksumAlgorithm : Nat

/-- `cache_recovery_header_matches`. -/
def cacheRecoveryHeaderMatches (header : CacheMetaHeader) (key : Text) (epoch : Nat)
    (config : WriteConfig) (mappingSize : Nat) : Bool :=
  header.magic == cacheMagic && header.version == kCacheMetaVersion &&
  header.headerSize == kCacheMetaHeaderSize && header.bitmapUnit == kCacheBitmapUnit &&
  header.dirty && header.generationEpoch == epoch && header.keyLength == key.length &&
  decide (header.keyLength ≤ header.key.length) &&
  decide (header.etagLength ≤ header.etag.length) &&
  decide (header.versionLength ≤ header.versionId.length) &&
  decide (header.uploadIdLength ≤ header.uploadId.length) &&
  header.writeIdLength == kCacheWriteIdCapacity &&
  header.uploadPartSize == config.uploadPartSize &&
  header.checksumAlgorithm == config.checksumAlgorithm &&
  (header.writePhase == 1 || header.writePhase == 2) &&
  ((header.writePhase == 1 && header.uploadIdLength == 0) ||
    (header.writePhase == 2 && header.uploadIdLength != 0)) &&
  header.writtenEnd == header.objectSize &&
  decide (cacheMappingSize header.writtenEnd kCacheBitmapUnit ≤ mappingSize) &&
  header.key.take key.length == key

def memcpy (array : List UInt8) (text : Text) : List UInt8 := overwrite array 0 text

/-- In program order. -/
def cacheInitializeHeader (identity : CacheIdentity) (bitmapUnit epoch : Nat) :
    List (CacheMetaHeader → CacheMetaHeader) :=
  [fun _ => .zero, fun h => { h with magic := cacheMagic },
    fun h => { h with version := kCacheMetaVersion },
    fun h => { h with headerSize := kCacheMetaHeaderSize },
    fun h => { h with bitmapUnit := bitmapUnit },
    fun h => { h with objectSize := identity.size },
    fun h => { h with mtime := identity.mtime },
    fun h => { h with generationEpoch := epoch },
    fun h => { h with keyLength := identity.key.length },
    fun h => { h with etagLength := identity.etag.length },
    fun h => { h with versionLength := identity.versionId.length },
    fun h => { h with key := memcpy h.key identity.key },
    fun h => { h with etag := memcpy h.etag identity.etag },
    fun h => { h with versionId := memcpy h.versionId identity.versionId }]

end Ngs3fs.Persist
