import Ngs3fs.Persist.Header

/-!
# Crashes of a generation reset

`LocalCache::open` keeps the files of a key if their header matches the identity and the data file
has the size of the object; otherwise it resets both files, data first. The header survives until
the metadata is truncated, so a crash in between leaves the old header over new data. The
constructor of `CacheEntry` also punches blocks without a clean page; this changes no byte the
entry reports as clean, and is left out. -/

namespace Ngs3fs.Persist
open Cache Crash

/-- What the metadata holds beyond its size is not looked at. -/
structure Files where
  dataSize : Nat
  data : Nat → UInt8
  metaSize : Nat
  header : CacheMetaHeader
  bitmap : Bitmap

namespace Files

def accepts (files : Files) (identity : CacheIdentity) : Bool :=
  decide (cacheMappingSize identity.size kCacheBitmapUnit ≤ files.metaSize) &&
    cacheIdentityMatches files.header identity && files.dataSize == identity.size

def existingExported (files : Files) : Bool :=
  decide (kCacheMetaHeaderSize ≤ files.metaSize) && files.header.magic == cacheMagic &&
    files.header.version == kCacheMetaVersion && files.header.exported

def truncateData (size : Nat) (files : Files) : Files :=
  { files with
    dataSize := size
    data := fun i => if i < files.dataSize ∧ i < size then files.data i else 0 }

def replaceData (files : Files) : Files := { files with dataSize := 0, data := fun _ => 0 }

/-- Whatever it grows to next is zero. -/
def clearMeta (files : Files) : Files :=
  { files with metaSize := 0, header := .zero, bitmap := fun _ => .missing }

def extendMeta (size : Nat) (files : Files) : Files := { files with metaSize := size }

def storeHeader (f : CacheMetaHeader → CacheMetaHeader) (files : Files) : Files :=
  { files with header := f files.header }

def replaceEffects (files : Files) : List (Files → Files) :=
  if files.existingExported then [replaceData, replaceData] else []

def metaEffects (identity : CacheIdentity) (epoch : Nat) : List (Files → Files) :=
  [clearMeta, extendMeta (cacheMappingSize identity.size kCacheBitmapUnit),
    fun files => { files with header := .zero, bitmap := fun _ => .missing }] ++
  (cacheInitializeHeader identity kCacheBitmapUnit epoch).map storeHeader

def openEffects (files : Files) (identity : CacheIdentity) (epoch : Nat) : List (Files → Files) :=
  if files.accepts identity then []
  else files.replaceEffects ++
    ([truncateData 0, truncateData identity.size] ++ metaEffects identity epoch)

def reopenedPage (files : Files) (page : Nat) : CachePageState :=
  match files.bitmap page with
  | .readPending => .missing
  | state => state

/-- Every page that an `open` would report as clean holds the bytes of its object. An `open` that
resets the files reports none. -/
def CleanHolds (object : CacheIdentity → Nat → UInt8) (files : Files) (identity : CacheIdentity) :
    Prop :=
  files.accepts identity = true → ∀ i < identity.size,
    files.reopenedPage (i / kCacheBitmapUnit) = .clean → files.data i = object identity i

/-- Between the truncation of the data to its new size and that of the metadata, with the new size
the old one and a clean page of the identity opened later that holds a byte that is not zero. -/
def Overlooked (object : CacheIdentity → Nat → UInt8) (files : Files) (identity : CacheIdentity)
    (n : Nat) (later : CacheIdentity) : Prop :=
  files.accepts identity = false ∧ n = files.replaceEffects.length + 2 ∧
    later.size = identity.size ∧
    cacheMappingSize later.size kCacheBitmapUnit ≤ files.metaSize ∧
    cacheIdentityMatches files.header later = true ∧
    ∃ i < later.size, files.reopenedPage (i / kCacheBitmapUnit) = .clean ∧ object later i ≠ 0

variable {files crashed : Files} {object : CacheIdentity → Nat → UInt8}
  {identity later : CacheIdentity} {epoch n : Nat}

lemma cleanHolds_of_missing (h : ∀ page, crashed.bitmap page = .missing) :
    CleanHolds object crashed later := by
  intro _ i _ clean
  rw [reopenedPage, h] at clean
  cases clean

lemma cleanHolds_of_empty (h : crashed.dataSize = 0) : CleanHolds object crashed later := by
  intro accepted i inside _
  simp only [accepts, Bool.and_eq_true, beq_iff_eq] at accepted
  omega

lemma metaEffects_missing {m} (page : Nat) :
    (after (metaEffects identity epoch) (m + 1) files).bitmap page = .missing := by
  change (after (metaEffects identity epoch).tail m files.clearMeta).bitmap page = .missing
  refine after_inv (I := fun files : Files => files.bitmap page = .missing) ?_ rfl
  intro effect mem v missing
  rw [metaEffects, List.cons_append, List.tail_cons] at mem
  rcases List.mem_cons.1 mem with rfl | mem
  · exact missing
  · rcases List.mem_cons.1 mem with rfl | mem
    · rfl
    · obtain ⟨f, -, rfl⟩ := List.mem_map.1 mem
      exact missing

lemma replaceEffects_empty (pos : n ≠ 0) (exported : files.existingExported = true) :
    (after files.replaceEffects n files).dataSize = 0 := by
  rw [replaceEffects, if_pos exported]
  match n with
  | 0 => exact absurd rfl pos
  | 1 => rfl
  | n + 2 =>
    rw [after_of_length_le (Nat.le_add_left 2 n)]
    rfl

lemma replaceEffects_same (files : Files) : ∃ dataSize data,
    complete files.replaceEffects files = { files with dataSize, data } := by
  rw [replaceEffects]
  split
  all_goals exact ⟨_, _, rfl⟩

lemma truncateData_zero (files : Files) (size i : Nat) :
    ((files.truncateData 0).truncateData size).data i = 0 := by
  change (if i < 0 ∧ i < size then (files.truncateData 0).data i else 0) = 0
  rw [if_neg fun h => Nat.not_lt_zero i h.1]

lemma window_cleanHolds (resets : files.accepts identity = false)
    (dataSize : crashed.dataSize = identity.size) (data : ∀ i, crashed.data i = 0)
    (metaSize : crashed.metaSize = files.metaSize) (header : crashed.header = files.header)
    (bitmap : crashed.bitmap = files.bitmap) :
    CleanHolds object crashed later ↔
      ¬ Overlooked object files identity (files.replaceEffects.length + 2) later := by
  have pages : crashed.reopenedPage = files.reopenedPage := by
    funext page
    rw [reopenedPage, reopenedPage, bitmap]
  constructor
  · rintro holds ⟨-, -, size, room, accepted, i, inside, clean, nonzero⟩
    apply nonzero
    rw [← holds ?_ i inside (by rwa [pages]), data]
    simp only [accepts, metaSize, header, dataSize, Bool.and_eq_true, decide_eq_true_eq, beq_iff_eq]
    exact ⟨⟨room, accepted⟩, size.symm⟩
  · intro seen accepted i inside clean
    simp only [accepts, metaSize, header, dataSize, Bool.and_eq_true, decide_eq_true_eq,
      beq_iff_eq] at accepted
    obtain ⟨⟨room, accepted⟩, size⟩ := accepted
    rw [pages] at clean
    by_contra differs
    rw [data] at differs
    exact seen ⟨resets, rfl, size.symm, room, accepted, i, inside, clean, fun zero =>
      differs zero.symm⟩

lemma not_overlooked (other : n ≠ files.replaceEffects.length + 2) :
    ¬ Overlooked object files identity n later :=
  fun overlooked => other overlooked.2.1

/-- Let the clean pages of a key hold the bytes of the object for every identity its files are kept
for. After a crash at any point of an `open` of some identity they still do, for every identity
opened later, if and only if the crash is not one that leaves the old metadata over new data of the
same size. -/
theorem open_crash_iff (object : CacheIdentity → Nat → UInt8)
    (sound : ∀ identity, CleanHolds object files identity) (identity : CacheIdentity)
    (epoch n : Nat) (later : CacheIdentity) :
    CleanHolds object (after (files.openEffects identity epoch) n files) later ↔
      ¬ Overlooked object files identity n later := by
  cases resets : files.accepts identity with
  | true =>
    rw [openEffects, if_pos resets, after_nil]
    apply iff_of_true (sound later)
    rintro ⟨refused, -⟩
    rw [resets] at refused
    cases refused
  | false =>
    obtain ⟨dataSize, data, replaced⟩ := replaceEffects_same files
    rw [openEffects, resets, if_neg Bool.false_ne_true]
    by_cases first : n ≤ files.replaceEffects.length
    · apply iff_of_true _ (not_overlooked (by omega))
      rw [after_append_left first]
      by_cases zero : n = 0
      · rw [zero]
        exact sound later
      · apply cleanHolds_of_empty
        apply replaceEffects_empty zero
        by_contra plain
        rw [replaceEffects, if_neg plain] at first
        exact zero (Nat.le_zero.1 first)
    · rw [after_append_right (by omega), replaced]
      obtain ⟨m, rfl⟩ := Nat.exists_eq_add_of_lt (not_le.1 first)
      have index : files.replaceEffects.length + m + 1 - files.replaceEffects.length = m + 1 := by
        omega
      rw [index]
      match m with
      | 0 =>
        apply iff_of_true _ (not_overlooked (by omega))
        exact cleanHolds_of_empty rfl
      | 1 =>
        refine window_cleanHolds resets rfl ?_ rfl rfl rfl
        exact truncateData_zero _ _
      | m + 2 =>
        apply iff_of_true _ (not_overlooked (by omega))
        apply cleanHolds_of_missing
        intro page
        rw [after_append_right (Nat.le_add_left 2 (m + 1))]
        exact metaEffects_missing page

def firstVersion : CacheIdentity := ⟨[97], [49], [], 32768, 0⟩

def secondVersion : CacheIdentity := ⟨[97], [50], [], 32768, 0⟩

def shortVersion : CacheIdentity := ⟨[97], [50], [], 100, 0⟩

def versions (identity : CacheIdentity) (_ : Nat) : UInt8 := if identity.etag = [49] then 7 else 9

def firstCached : Files where
  dataSize := 32768
  data := fun _ => 7
  metaSize := cacheMappingSize 32768 kCacheBitmapUnit
  header := complete (cacheInitializeHeader firstVersion kCacheBitmapUnit 1) .zero
  bitmap := fun _ => .clean

lemma firstCached_sound (identity : CacheIdentity) : CleanHolds versions firstCached identity := by
  intro accepted i _ _
  simp only [accepts, Bool.and_eq_true] at accepted
  have etag : identity.etag = [49] := etag_of_identityMatches accepted.1.2
  rw [versions, if_pos etag]
  rfl

theorem open_crash_short : firstCached.accepts shortVersion = false ∧
    CleanHolds versions (after (firstCached.openEffects shortVersion 2) 2 firstCached)
      firstVersion := by
  refine ⟨by decide +kernel, (open_crash_iff versions firstCached_sound shortVersion 2 2
    firstVersion).2 ?_⟩
  rintro ⟨-, -, size, -⟩
  cases size

/-- A crash of a reset to the same size: the first version is opened again, its page is clean and
reads as zeros. -/
theorem open_crash_same_size : (∀ identity, CleanHolds versions firstCached identity) ∧
    (after (firstCached.openEffects secondVersion 2) 2 firstCached).accepts firstVersion =
      true ∧
    (after (firstCached.openEffects secondVersion 2) 2 firstCached).reopenedPage 0 = .clean ∧
    (after (firstCached.openEffects secondVersion 2) 2 firstCached).data 0 = 0 ∧
    versions firstVersion 0 = 7 ∧
    ¬ CleanHolds versions (after (firstCached.openEffects secondVersion 2) 2 firstCached)
      firstVersion := by
  have accepted : (after (firstCached.openEffects secondVersion 2) 2 firstCached).accepts
      firstVersion = true := by decide +kernel
  have clean : (after (firstCached.openEffects secondVersion 2) 2 firstCached).reopenedPage 0 =
      .clean := by decide +kernel
  have zero : (after (firstCached.openEffects secondVersion 2) 2 firstCached).data 0 = 0 := by
    decide +kernel
  refine ⟨firstCached_sound, accepted, clean, zero, by decide +kernel, ?_⟩
  intro holds
  have seven := holds accepted 0 (by decide) clean
  rw [zero] at seven
  exact absurd seven (by decide +kernel)

end Files

end Ngs3fs.Persist
