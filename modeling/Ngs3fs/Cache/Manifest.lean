import Ngs3fs.Cache.Ready
import Ngs3fs.Recovery.Server
import Ngs3fs.S3.Checksum

/-!
# The checksum manifest of an object

`get_checksum_manifest` asks for the attributes of an object page by page, and
`parse_checksum_manifest_page` appends the parts of a page. `finish_checksum_manifest` installs them
if they tile the entry. -/

namespace Ngs3fs.Cache
open List
open S3 (ChecksumAlgorithm)
open Recovery (kMaximumMultipartParts)

/-- The texts of a `Part` element, without the blanks around them; a text that is no number is
`none`. -/
structure AttributePart where
  partNumber : Option Nat
  size : Option Nat
  checksum : ChecksumAlgorithm → String

structure AttributesPage where
  parts : List AttributePart
  isTruncated : Bool
  nextPartNumberMarker : Option Nat

/-- `ChecksumManifestState`. -/
structure ChecksumManifestState where
  parts : List CacheChecksumPart := []
  expectedNumber : Nat := 1
  marker : Nat := 0
  offset : Nat := 0

/-- `checksum_is_s3`. -/
def checksumIsS3 : ChecksumAlgorithm → Bool
  | .auto | .protocolDefault | .none | .crc64xz => false
  | _ => true

section
variable (preferred : ChecksumAlgorithm) (objectSize : Nat)

/-- `part_checksum`. -/
def partChecksum (part : AttributePart) : Option (ChecksumAlgorithm × String) :=
  let algorithms : List ChecksumAlgorithm := [.crc64nvme, .crc32c, .crc32, .sha256, .sha1,
    .xxhash128, .xxhash3, .xxhash64, .sha512, .md5]
  ((if checksumIsS3 preferred then [preferred] else []) ++
    algorithms.filter (· ≠ preferred)).findSome? fun candidate =>
      if (part.checksum candidate).isEmpty then none else some (candidate, part.checksum candidate)

/-- A turn of the loop of `parse_checksum_manifest_page`. -/
def parseChecksumPart (state : ChecksumManifestState) (part : AttributePart) :
    Except String ChecksumManifestState :=
  match part.partNumber, part.size with
  | some number, some size =>
    if number ≠ state.expectedNumber ∨ kMaximumMultipartParts < number ∨ size = 0 ∨
        objectSize < state.offset ∨ objectSize - state.offset < size then
      .error "GetObjectAttributes returned an invalid part sequence"
    else
      match partChecksum preferred part with
      | none => .error "GetObjectAttributes omitted a usable part checksum"
      | some (algorithm, value) =>
        .ok { state with
          parts := state.parts ++ [⟨state.offset, size, algorithm.ctorIdx, value⟩]
          offset := state.offset + size
          expectedNumber := state.expectedNumber + 1 }
  | _, _ => .error "GetObjectAttributes returned an invalid part sequence"

/-- `parse_checksum_manifest_page`. -/
def parseChecksumManifestPage (state : ChecksumManifestState) (page : AttributesPage) :
    Except String (ChecksumManifestState × Bool) :=
  match page.parts.foldlM (parseChecksumPart preferred objectSize) state with
  | .error text => .error text
  | .ok state =>
    if page.isTruncated then
      match page.nextPartNumberMarker with
      | none => .error "GetObjectAttributes returned invalid part pagination"
      | some next =>
        if next ≤ state.marker ∨ next ≠ state.expectedNumber - 1 ∨
            kMaximumMultipartParts < next then
          .error "GetObjectAttributes returned invalid part pagination"
        else .ok ({ state with marker := next }, false)
    else if state.offset ≠ objectSize then
      .error "GetObjectAttributes part sizes do not match the object"
    else .ok (state, true)

/-- `none` after the given pages: one more is asked for. -/
def getChecksumManifest (state : ChecksumManifestState) :
    List AttributesPage → Except String (Option (List CacheChecksumPart))
  | [] => .ok none
  | page :: pages =>
    match parseChecksumManifestPage preferred objectSize state page with
    | .error text => .error text
    | .ok (state, true) => .ok (some state.parts)
    | .ok (state, false) => getChecksumManifest state pages

end

/-- The parts are in order, do not overlap and leave no byte out. -/
structure Tiles (size : Nat) (parts : List CacheChecksumPart) : Prop where
  tiled : Tiled size parts
  cover : ∀ b < size, ∃ part ∈ parts, part.offset ≤ b ∧ b < part.offset + part.size

variable {preferred : ChecksumAlgorithm} {objectSize : Nat}
  {state state' : ChecksumManifestState} {parts : List CacheChecksumPart} {size start stop : Nat}

open CacheEntry (tileEnd tiled_of_tileEnd)

lemma cover_of_tileEnd (h : tileEnd size parts start = some stop) {b} (lower : start ≤ b)
    (upper : b < stop) : ∃ part ∈ parts, part.offset ≤ b ∧ b < part.offset + part.size := by
  induction parts generalizing start with
  | nil =>
    cases h
    omega
  | cons part parts ih =>
    rw [tileEnd] at h
    obtain ⟨ok, h⟩ := Option.ite_none_left_eq_some.1 h
    by_cases here : b < start + part.size
    · exact ⟨part, .head _, by omega, by omega⟩
    · obtain ⟨later, mem, bounds⟩ := ih h (Nat.le_of_not_lt here)
      exact ⟨later, .tail _ mem, bounds⟩

lemma tiles_of_tileEnd (h : tileEnd size parts 0 = some size) : Tiles size parts :=
  ⟨(tiled_of_tileEnd h).1, fun _ => cover_of_tileEnd h (Nat.zero_le _)⟩

lemma tileEnd_concat {part} (h : tileEnd size parts start = some stop) (next : part.offset = stop)
    (pos : part.size ≠ 0) (fits : stop + part.size ≤ size) (value : part.value.isEmpty = false) :
    tileEnd size (parts ++ [part]) start = some (stop + part.size) := by
  induction parts generalizing start with
  | nil =>
    cases h
    rw [nil_append, tileEnd, if_neg, tileEnd]
    simp only [next, pos, value, ne_eq, not_true_eq_false, false_or, Bool.false_eq_true, or_false]
    omega
  | cons first parts ih =>
    rw [tileEnd] at h
    obtain ⟨ok, h⟩ := Option.ite_none_left_eq_some.1 h
    rw [cons_append, tileEnd, if_neg ok]
    exact ih h

namespace ChecksumManifestState

/-- One part for each number below the expected one. -/
structure Sound (objectSize : Nat) (state : ChecksumManifestState) : Prop where
  numbers : state.expectedNumber = state.parts.length + 1
  limit : state.parts.length ≤ kMaximumMultipartParts
  tiles : tileEnd objectSize state.parts 0 = some state.offset

lemma Sound.part {part} (sound : Sound objectSize state)
    (parsed : parseChecksumPart preferred objectSize state part = .ok state') :
    Sound objectSize state' ∧ state'.marker = state.marker := by
  unfold parseChecksumPart at parsed
  split at parsed
  · split at parsed
    · cases parsed
    split at parsed
    · cases parsed
    · rename_i number size _ _ ok _ algorithm value found
      obtain ⟨candidate, -, used⟩ := exists_of_findSome?_eq_some found
      obtain ⟨nonempty, ⟨⟩⟩ := Option.ite_none_left_eq_some.1 used
      cases parsed
      have numbers := sound.numbers
      refine ⟨⟨?_, ?_, tileEnd_concat sound.tiles rfl ?_ ?_ (by simpa using nonempty)⟩, rfl⟩
      · rw [length_append, numbers]
        rfl
      · rw [length_append]
        show state.parts.length + 1 ≤ _
        omega
      · show size ≠ 0
        omega
      · show state.offset + size ≤ objectSize
        omega
  · cases parsed

lemma Sound.list {list : List AttributePart} (sound : Sound objectSize state)
    (parsed : list.foldlM (parseChecksumPart preferred objectSize) state = .ok state') :
    Sound objectSize state' ∧ state'.marker = state.marker := by
  induction list generalizing state with
  | nil =>
    cases parsed
    exact ⟨sound, rfl⟩
  | cons part list ih =>
    rw [foldlM_cons] at parsed
    cases first : parseChecksumPart preferred objectSize state part with
    | error text =>
      rw [first] at parsed
      cases parsed
    | ok next =>
      rw [first] at parsed
      obtain ⟨sound, same⟩ := sound.part first
      obtain ⟨sound, same'⟩ := ih sound parsed
      exact ⟨sound, same'.trans same⟩

/-- Every page but the last moves the marker, which the number of parts bounds. -/
lemma Sound.page {page complete} (sound : Sound objectSize state)
    (parsed : parseChecksumManifestPage preferred objectSize state page = .ok (state', complete)) :
    Sound objectSize state' ∧
      if complete then state'.offset = objectSize
      else state.marker < state'.marker ∧ state'.marker ≤ kMaximumMultipartParts := by
  unfold parseChecksumManifestPage at parsed
  split at parsed
  · cases parsed
  rename_i read
  obtain ⟨sound, same⟩ := sound.list read
  split at parsed
  · split at parsed
    · cases parsed
    split at parsed
    · cases parsed
    · rename_i next _ ok
      cases parsed
      have moved : state.marker < next ∧ next ≤ kMaximumMultipartParts := by omega
      exact ⟨{ sound with }, moved⟩
  · split at parsed
    · cases parsed
    · rename_i all
      cases parsed
      exact ⟨sound, not_not.1 all⟩

end ChecksumManifestState

lemma getChecksumManifest_spec {pages} (sound : state.Sound objectSize)
    (marker : state.marker ≤ kMaximumMultipartParts) :
    (getChecksumManifest preferred objectSize state pages = .ok none →
      pages.length + state.marker ≤ kMaximumMultipartParts) ∧
    (∀ parts, getChecksumManifest preferred objectSize state pages = .ok (some parts) →
      parts.length ≤ kMaximumMultipartParts ∧ tileEnd objectSize parts 0 = some objectSize) := by
  induction pages generalizing state with
  | nil => exact ⟨fun _ => (Nat.zero_add _).symm ▸ marker, fun _ => nofun⟩
  | cons page pages ih =>
    rw [getChecksumManifest]
    split
    · exact ⟨nofun, fun _ => nofun⟩
    · rename_i next read
      obtain ⟨sound, all⟩ := sound.page read
      refine ⟨nofun, ?_⟩
      rintro _ ⟨⟩
      exact ⟨sound.limit, sound.tiles.trans (congrArg some all)⟩
    · rename_i next read
      obtain ⟨sound, moved, limit⟩ := sound.page read
      obtain ⟨asks, tiles⟩ := ih sound limit
      refine ⟨fun more => ?_, tiles⟩
      have := asks more
      rw [length_cons]
      omega

/-- The pages end within the limit of parts, and what is installed tiles the object. On a tiling of
an entry that is not stale the search answers with the worst state in the range. -/
theorem checksum_manifest_tiles (preferred : ChecksumAlgorithm) (objectSize : Nat)
    (pages : List AttributesPage) :
    (getChecksumManifest preferred objectSize {} pages = .ok none →
      pages.length ≤ kMaximumMultipartParts) ∧
    (∀ parts, getChecksumManifest preferred objectSize {} pages = .ok (some parts) →
      parts.length ≤ kMaximumMultipartParts ∧ Tiles objectSize parts ∧
      ∀ e : CacheEntry, (e.finishChecksumManifest parts).checksumManifest = .available →
        (e.finishChecksumManifest parts).checksumParts = parts ∧ Tiles e.size parts) ∧
    ∀ (e : CacheEntry) (offset length : Nat), Tiles e.size e.checksumParts → e.stale = false →
      (e.checksumBlocked offset length = .bad ↔ e.Blocks offset length .bad) ∧
      (e.checksumBlocked offset length = .retrying ↔
        ¬ e.Blocks offset length .bad ∧ e.Blocks offset length .retrying) ∧
      (e.checksumBlocked offset length = .unverified ↔
        ¬ e.Blocks offset length .bad ∧ ¬ e.Blocks offset length .retrying) := by
  have fresh : ChecksumManifestState.Sound objectSize {} := ⟨rfl, Nat.zero_le _, rfl⟩
  refine ⟨fun more => ?_, fun parts all => ?_, fun e offset length tiles live => ?_⟩
  · exact (getChecksumManifest_spec fresh (Nat.zero_le _)).1 more
  · obtain ⟨limit, tiles⟩ := (getChecksumManifest_spec fresh (Nat.zero_le _)).2 parts all
    refine ⟨limit, tiles_of_tileEnd tiles, fun e available => ?_⟩
    by_cases valid : (!e.stale && !parts.isEmpty && tileEnd e.size parts 0 == some e.size) = true
    · exact ⟨if_pos valid, tiles_of_tileEnd (eq_of_beq (Bool.and_eq_true_iff.1 valid).2)⟩
    · exact absurd ((if_neg valid).symm.trans available) nofun
  · obtain ⟨blocks, eq⟩ | ⟨bad, ⟨blocks, eq⟩ | ⟨none, eq⟩⟩ :=
      CacheEntry.checksumBlocked_spec tiles.tiled live offset length
    all_goals
      rw [eq]
      simp [*]

/-- Two pages of one part each are installed. -/
theorem checksum_manifest_tiles_twoPages :
    let page (number : Nat) (truncated : Bool) : AttributesPage :=
      ⟨[⟨some number, some 2, fun _ => "AAAAAA=="⟩], truncated, some number⟩
    ∃ parts, getChecksumManifest .auto 4 {} [page 1 true, page 2 false] = .ok (some parts) ∧
      Tiles 4 parts := by
  intro page
  refine ⟨_, rfl, ?_⟩
  exact ((checksum_manifest_tiles .auto 4 [page 1 true, page 2 false]).2.1 _ rfl).2.1

/-- A stale entry answers that nothing is wrong with its bad part. -/
theorem stale_part_unblocked :
    ∃ e : CacheEntry, Tiles e.size e.checksumParts ∧ e.Blocks 0 1 .bad ∧
      e.checksumBlocked 0 1 ≠ .bad :=
  ⟨{ halfMissing .bad with
      size := 1, checksumParts := [⟨0, 1, 3, "AAAAAA=="⟩], checksumStates :=
        [.bad], stale := true },
    tiles_of_tileEnd rfl, ⟨_, 0, .head _, by decide⟩, nofun⟩

end Ngs3fs.Cache
