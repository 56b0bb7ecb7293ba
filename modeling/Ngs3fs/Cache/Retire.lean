import Ngs3fs.Cache.Reply

/-!
# Generations of one key

The cache keeps one data file and one metadata file for a key and reuses them for the next
generation (`LocalCache::create_writer`, `LocalCache::open` with another identity). Before it
truncates them it waits until the old entry has no claims, checksum operations and pins. An
asynchronous eviction is none of these: it keeps its entry alive and goes on. This file models the
files of a key with all generations that still work on them: a replaced generation is quiet if the
files are truncated only after its evictions have ended. `remove` unlinks the files instead. Two
generations on the same files see each other's bitmap and bytes. -/

namespace Ngs3fs.Cache
open CacheEntry Machine List Function

/-- `registered`: the cache still finds it under the key; `replaced`: its files have been truncated
for another generation. -/
structure Generation where
  dataFile : Nat
  metaFile : Nat
  registered : Bool
  replaced : Bool
  sys : Sys

/-- The files by number, the ones the name refers to, and the generations, newest first. While
`resetting`, the next one initialises the truncated files. -/
structure KeyCache where
  data : Nat → Nat → UInt8
  bitmaps : Nat → Bitmap
  exported : Nat → Bool
  path : Option (Nat × Nat)
  resetting : Bool
  nextFile : Nat
  generations : List Generation

inductive KeyAction where
  | use (i : Nat) (act : Action)
  | truncate
  | install (config : CacheConfig) (size : Nat) (writer : Bool)
  | remove (preserve : Bool)

def Action.reusesFiles : Action → Bool
  | .truncate _ => true
  | _ => false

def Generation.load (k : KeyCache) (g : Generation) : Sys :=
  { g.sys with
    entry := { g.sys.entry with
      bitmap := k.bitmaps g.metaFile
      exported := k.exported g.metaFile }
    data := k.data g.dataFile }

def Generation.retired (g : Generation) : Bool := g.sys.stale && g.sys.quiescent

namespace KeyCache

def store (k : KeyCache) (i : Nat) (g : Generation) (s : Sys) : KeyCache :=
  { k with
    data := update k.data g.dataFile s.data
    bitmaps := update k.bitmaps g.metaFile s.bitmap
    exported := update k.exported g.metaFile s.exported
    generations := k.generations.set i { g with sys := s } }

/-- Every generation leaves the registry, and those on a metadata file lose it. -/
def release (k : KeyCache) (metaFile : Option Nat) : List Generation :=
  k.generations.map fun g =>
    { g with registered := false, replaced := g.replaced || metaFile == some g.metaFile }

def truncate (k : KeyCache) : KeyCache :=
  match k.path with
  | none =>
    { k with
      data := update k.data k.nextFile fun _ => 0
      path := some (k.nextFile, k.nextFile + 1)
      resetting := true
      nextFile := k.nextFile + 2
      generations := k.release none }
  | some (d, m) =>
    let d := if k.exported m then k.nextFile else d
    { k with
      data := update k.data d fun _ => 0
      path := some (d, m)
      resetting := true
      nextFile := if k.exported m then k.nextFile + 1 else k.nextFile
      generations := k.release (some m) }

/-- A writer starts empty and is never evicted. -/
def install (k : KeyCache) (d m : Nat) (config : CacheConfig) (size : Nat) (writer : Bool) :
    KeyCache :=
  let s := Sys.empty config (if writer then 0 else size)
  { k with
    bitmaps := update k.bitmaps m fun _ => .missing
    exported := update k.exported m false
    resetting := false
    generations :=
      { dataFile := d, metaFile := m, registered := true, replaced := false
        sys := { s with entry := { s.entry with evictionDisabled := writer } } } :: k.generations }

def unlink (k : KeyCache) : KeyCache :=
  { k with
    path := none
    generations := k.generations.map fun g =>
      { g with registered := false, sys := g.sys.withEntry { g.sys.entry with detached := true } } }

/-- It keeps its unlinked files and is not evicted. -/
def preserves (preserve : Bool) (g : Generation) : Bool :=
  preserve && !g.sys.stale && !g.sys.dirty && g.sys.evictionDisabled

/-- One step of the key; `none` where no caller makes it, or where `finish_claim` aborts. -/
def step (k : KeyCache) : KeyAction → Option KeyCache
  | .use i act =>
    match k.generations[i]? with
    | none => none
    | some g =>
      if act.reusesFiles then none
      else (Cache.step (g.load k) act).map (k.store i g)
  | .truncate =>
    if k.resetting = false ∧ k.generations.all fun g => !g.registered || g.retired then
      some k.truncate
    else none
  | .install config size writer =>
    match k.path with
    | some (d, m) =>
      if k.resetting = true ∧
        size ≤ uint64Max then some (k.install d m config size writer) else none
    | none => none
  | .remove preserve =>
    if k.resetting = false ∧
        k.generations.all fun g => !g.registered || g.retired || preserves preserve g then
      some k.unlink
    else none

end KeyCache

structure Dead (s : Sys) : Prop where
  stale : s.stale = true
  claims : s.activeClaims = []
  checks : s.checks = []
  manifest : s.checksumManifest ≠ .loading
  pins : ∀ p ∈ s.pins, p.2 = 0
  evictions : s.evictions = []

structure Quiet (s s' : Sys) : Prop where
  dead : Dead s'
  bitmap : s'.bitmap = s.bitmap
  exported : s'.exported = s.exported
  data : s'.data = s.data
  ops : s'.ops = []

section
variable {s s' : Sys}

section
variable (dead : Dead s)
include dead

lemma Dead.quiet {e : CacheEntry} (stale : e.stale = s.stale)
    (claims : e.activeClaims = s.activeClaims)
    (manifest : e.checksumManifest = s.checksumManifest) (bitmap : e.bitmap = s.bitmap)
    (exported : e.exported = s.exported) : Quiet s (s.withEntry e) where
  dead :=
    { stale := stale.trans dead.stale
      claims := claims.trans dead.claims
      checks := dead.checks
      manifest := by
        change e.checksumManifest ≠ _
        rw [manifest]
        exact dead.manifest
      pins := dead.pins
      evictions := dead.evictions }
  bitmap := bitmap
  exported := exported
  data := rfl
  ops := rfl

lemma Dead.refl : Quiet s (s.withEntry s.entry) := dead.quiet rfl rfl rfl rfl rfl

lemma Dead.notify : Quiet s (s.withEntry s.notifyWaiters) :=
  dead.quiet rfl rfl rfl rfl rfl

lemma Dead.findFetch (claim : CacheFetchClaim) : s.findFetch claim = none := by
  rw [CacheEntry.findFetch, dead.claims, find?_nil]

lemma Dead.finishFetch (claim : CacheFetchClaim) (io : Nat → Bool) :
    Quiet s (s.finishFetch claim io) := by
  rw [Sys.finishFetch_of_none (dead.findFetch claim)]
  exact dead.notify

lemma Dead.refused : s.evictionRefused = true := by
  simp [evictionRefused, dead.stale]

lemma Dead.finishRetry {claim valid io}
    (h : step s (.finishRetry claim valid io) = some s') : Quiet s s' := by
  have none := dead.findFetch claim
  have woken : ∃ n, s.finishRetry claim valid = ({ s.entry with waitTokens := n }, []) := by
    cases valid with
    | true =>
      have kept : s.publishClean claim 0 claim.length true = s.entry := by
        rw [publishClean, none]
      rw [CacheEntry.finishRetry, if_pos rfl, kept, CacheEntry.finishFetch_of_none none]
      exact ⟨_, rfl⟩
    | false =>
      have bad : s.markBad claim = s.notifyWaiters := by rw [markBad, none]
      rw [CacheEntry.finishRetry, if_neg Bool.false_ne_true, bad]
      exact ⟨_, finishFetch_of_none none⟩
  obtain ⟨n, eq⟩ := woken
  simp only [step, eq, Sys.endedBy, none, filter_nil] at h
  cases h
  exact dead.quiet (e := { s.entry with waitTokens := n }) rfl rfl rfl rfl rfl

lemma Dead.step {act} (reuses : act.reusesFiles = false) (h : Cache.step s act = some s') :
    Quiet s s' := by
  have stale := dead.stale
  have noCheck : ∀ c, c ∉ s.checks := by
    intro c hc
    rw [dead.checks] at hc
    exact not_mem_nil hc
  have noEvict : ∀ ev, ev ∉ s.evictions := by
    intro ev hev
    rw [dead.evictions] at hev
    exact not_mem_nil hev
  cases act with
  | claimFetch offset length expansion =>
    simp only [Cache.step, claimFetch, stale, if_true] at h
    cases h
    exact dead.refl
  | write claim length content =>
    simp only [Cache.step, dead.findFetch claim] at h
    cases h
  | publishClean claim published length final =>
    simp only [Cache.step, publishClean, dead.findFetch claim] at h
    cases h
    exact dead.refl
  | finishFetch claim io | failFetch claim io =>
    cases h
    exact dead.finishFetch claim io
  | rollbackFetch claim =>
    simp only [Cache.step, rollbackFetch, Sys.endedBy, dead.findFetch claim] at h
    cases h
    exact dead.refl
  | markBad claim =>
    simp only [Cache.step, markBad, dead.findFetch claim] at h
    cases h
    exact dead.notify
  | pinFetchVerification claim =>
    simp only [Cache.step, pinFetchVerification, dead.findFetch claim] at h
    cases h
    exact dead.refl
  | beginRetry claim =>
    simp only [Cache.step, Sys.beginRetry, beginRetry, dead.findFetch claim] at h
    cases h
    exact dead.refl
  | finishRetry claim valid io => exact dead.finishRetry h
  | pinClean offset length =>
    simp only [Cache.step, pinClean, stale, if_true] at h
    split at h
    · cases h
      exact dead.refl
    · cases h
  | unpin offset length =>
    simp only [Cache.step] at h
    split at h
    · rename_i held
      -- only a pin on no byte is left, and releasing it releases no region
      have zero : length = 0 := dead.pins _ held
      rw [unpin, if_pos zero] at h
      cases h
      have quiet := dead.refl
      exact { quiet with
        dead := { quiet.dead with pins := fun p hp => dead.pins p (mem_of_mem_erase hp) } }
    · cases h
  | touch offset length =>
    cases h
    simp only [touch]
    split
    · exact dead.refl
    · exact dead.quiet rfl rfl rfl rfl rfl
  | disableEviction =>
    cases h
    exact dead.quiet rfl rfl rfl rfl rfl
  | beginChecksumManifest =>
    simp only [Cache.step, beginChecksumManifest, stale, Bool.not_true, Bool.false_and,
      Bool.false_eq_true, if_false, if_true] at h
    cases h
    exact dead.refl
  | finishChecksumManifest parts | checksumManifestUnavailable =>
    simp only [Cache.step, if_neg dead.manifest] at h
    cases h
  | claimChecksum offset length skipInProgress =>
    simp only [Cache.step, claimChecksum, stale, if_true] at h
    cases h
    exact dead.refl
  | hashPart claim length | checksumMismatch claim | beginChecksumRetry claim
  | writePart claim position length content | finishChecksum claim valid | abandonChecksum claim =>
    simp only [Cache.step, noCheck, false_and, if_false] at h
    cases h
  | evictOneRegion io =>
    simp only [Cache.step, evictOneRegion, dead.refused, if_true] at h
    cases h
    exact dead.refl
  | claimLiveRegion =>
    simp only [Cache.step, claimLiveRegion, dead.refused, if_true] at h
    cases h
    exact dead.refl
  | punchClaim ev | finishClaim ev =>
    simp only [Cache.step, noEvict, false_and, if_false] at h
    cases h
  | retireGeneration =>
    simp only [Cache.step, retireGeneration, stale, if_true] at h
    cases h
    exact dead.refl
  | truncate size => cases reuses
  | tryExport verify =>
    simp only [Cache.step, tryExport, stale, Bool.or_true, Bool.true_or, if_true] at h
    cases h
    exact dead.refl

end

lemma Inv.dead (inv : Inv s) (stale : s.stale = true) (quiescent : s.quiescent = true)
    (evictions : s.evictions = []) : Dead s := by
  have counters := quiescent
  simp only [CacheEntry.quiescent, Bool.and_eq_true, List.isEmpty_iff, beq_iff_eq] at counters
  obtain ⟨⟨claims, checksumOps⟩, -⟩ := counters
  have ops := inv.parts.ops
  rw [checksumOps] at ops
  refine ⟨stale, claims, eq_nil_of_length_eq_zero (by omega), ?_, ?_, evictions⟩
  · intro loading
    rw [loading, if_pos rfl] at ops
    omega
  · intro p hp
    by_contra pos
    exact no_reply_of_quiescent inv quiescent hp (i := p.1) ⟨le_rfl, by omega⟩

lemma Inv.finishClaim (inv : Inv s) {ev} (hev : ev ∈ s.evictions) (punched : Bool) :
    s.finishClaim ev punched ≠ none := by
  have wf := inv.pages.evict_wf ev hev
  have pending : ∀ page ∈ ev.cleanPages, s.bitmap page = .readPending := by
    intro page hp
    obtain ⟨count, holds⟩ := wf.pages page hp
    rw [inv.pages.evict ev hev page count holds, if_pos hp]
  rw [CacheEntry.finishClaim, finishPages_eq wf.nodup pending]
  exact Option.some_ne_none _

end

/-- No two generations may still work on common files. -/
structure KeyInv (k : KeyCache) : Prop where
  dead : ∀ g ∈ k.generations, g.replaced = true → Dead g.sys
  inv : ∀ g ∈ k.generations, g.replaced = false → Inv (g.load k)
  apart : ∀ (i j : Nat) (g h : Generation), k.generations[i]? = some g →
    k.generations[j]? = some h → g.replaced = false → h.replaced = false →
      g.metaFile = h.metaFile ∨ g.dataFile = h.dataFile → i = j
  fileBound : ∀ g ∈ k.generations, g.dataFile < k.nextFile ∧ g.metaFile < k.nextFile
  pathBound : ∀ d m, k.path = some (d, m) → d < k.nextFile ∧ m < k.nextFile
  pathData : ∀ d m, k.path = some (d, m) → ∀ g ∈ k.generations, g.replaced = false →
    g.dataFile = d → g.metaFile = m
  current : ∀ d m, k.path = some (d, m) → ∀ g ∈ k.generations, g.replaced = false →
    g.metaFile = m → k.resetting = false ∧ g.registered = true

def EvictionsDone (k : KeyCache) : KeyAction → Prop
  | .truncate => ∀ d m, k.path = some (d, m) → ∀ g ∈ k.generations, g.metaFile = m →
      g.sys.evictions = []
  | _ => True

section
variable {k k' : KeyCache} {g : Generation} {i : Nat}

lemma Generation.load_congr (bitmaps : k'.bitmaps g.metaFile = k.bitmaps g.metaFile)
    (exported : k'.exported g.metaFile = k.exported g.metaFile)
    (data : k'.data g.dataFile = k.data g.dataFile) : g.load k' = g.load k := by
  rw [load, load, bitmaps, exported, data]

lemma Dead.load (dead : Dead g.sys) (k : KeyCache) : Dead (g.load k) :=
  { dead with }

lemma KeyCache.load_store (s : Sys) : Generation.load (k.store i g s) { g with sys := s } = s := by
  simp only [Generation.load, store, update_self]

lemma KeyCache.store_quiet {s} (quiet : Quiet (g.load k) s) :
    (k.store i g s).data = k.data ∧ (k.store i g s).bitmaps = k.bitmaps ∧
      (k.store i g s).exported = k.exported := by
  refine ⟨?_, ?_, ?_⟩
  · change update k.data g.dataFile s.data = k.data
    rw [quiet.data]
    exact update_eq_self _ _
  · change update k.bitmaps g.metaFile s.bitmap = k.bitmaps
    rw [quiet.bitmap]
    exact update_eq_self _ _
  · change update k.exported g.metaFile s.exported = k.exported
    rw [quiet.exported]
    exact update_eq_self _ _

section
variable {s : Sys} {j : Nat} {h : Generation} (hi : k.generations[i]? = some g)
  (hj : (k.store i g s).generations[j]? = some h)
include hi hj

lemma KeyCache.getElem?_store :
    j = i ∧ h = { g with sys := s } ∨ j ≠ i ∧ k.generations[j]? = some h := by
  obtain ⟨lt, -⟩ := List.getElem?_eq_some_iff.1 hi
  change (k.generations.set i _)[j]? = some h at hj
  by_cases eq : i = j
  · subst eq
    rw [getElem?_set_self lt] at hj
    exact .inl ⟨rfl, (Option.some.inj hj).symm⟩
  · rw [getElem?_set_ne eq] at hj
    exact .inr ⟨fun e => eq e.symm, hj⟩

lemma KeyCache.store_origin :
    ∃ o, k.generations[j]? = some o ∧ o.dataFile = h.dataFile ∧ o.metaFile = h.metaFile ∧
      o.registered = h.registered ∧ o.replaced = h.replaced := by
  rcases getElem?_store hi hj with ⟨rfl, rfl⟩ | ⟨-, old⟩
  · exact ⟨g, hi, rfl, rfl, rfl, rfl⟩
  · exact ⟨h, old, rfl, rfl, rfl, rfl⟩

end

section
variable (inv : KeyInv k)
include inv

lemma KeyInv.store (hi : k.generations[i]? = some g) {s}
    (dead : ∀ h ∈ (k.store i g s).generations, h.replaced = true → Dead h.sys)
    (live : ∀ h ∈ (k.store i g s).generations, h.replaced = false → Inv (h.load (k.store i g s))) :
    KeyInv (k.store i g s) := by
  have origin : ∀ h ∈ (k.store i g s).generations, ∃ o ∈ k.generations,
      o.dataFile = h.dataFile ∧ o.metaFile = h.metaFile ∧ o.registered = h.registered ∧
        o.replaced = h.replaced := by
    intro h hh
    obtain ⟨j, hj⟩ := mem_iff_getElem?.1 hh
    obtain ⟨o, ho, same⟩ := KeyCache.store_origin hi hj
    exact ⟨o, mem_of_getElem? ho, same⟩
  refine ⟨dead, live, ?_, ?_, inv.pathBound, ?_, ?_⟩
  · intro a b x y ha hb hx hy files
    obtain ⟨o, ho, data, metaF, -, replaced⟩ := KeyCache.store_origin hi ha
    obtain ⟨o', ho', data', metaF', -, replaced'⟩ := KeyCache.store_origin hi hb
    rw [← data, ← data', ← metaF, ← metaF'] at files
    exact inv.apart a b o o' ho ho' (replaced.trans hx) (replaced'.trans hy) files
  · intro h hh
    obtain ⟨o, ho, data, metaF, -, -⟩ := origin h hh
    rw [← data, ← metaF]
    exact inv.fileBound o ho
  · intro d m path h hh live same
    obtain ⟨o, ho, data, metaF, -, replaced⟩ := origin h hh
    rw [← metaF]
    exact inv.pathData d m path o ho (replaced.trans live) (data.trans same)
  · intro d m path h hh live same
    obtain ⟨o, ho, -, metaF, registered, replaced⟩ := origin h hh
    rw [← registered]
    exact inv.current d m path o ho (replaced.trans live) (metaF.trans same)

lemma KeyInv.use (hi : k.generations[i]? = some g) {act} (reuses : act.reusesFiles = false) {s}
    (h : Cache.step (g.load k) act = some s) : KeyInv (k.store i g s) := by
  have hg := mem_of_getElem? hi
  have other : ∀ x ∈ (k.store i g s).generations, x = { g with sys := s } ∨ ∃ j, j ≠ i ∧
      k.generations[j]? = some x := by
    intro x hx
    obtain ⟨j, hj⟩ := mem_iff_getElem?.1 hx
    rcases KeyCache.getElem?_store hi hj with ⟨-, new⟩ | ⟨ne, old⟩
    · exact .inl new
    · exact .inr ⟨j, ne, old⟩
  cases replaced : g.replaced with
  | true =>
    have quiet := ((inv.dead g hg replaced).load k).step reuses h
    obtain ⟨data, bitmaps, exported⟩ := KeyCache.store_quiet (i := i) quiet
    refine inv.store hi ?_ ?_
    · intro x hx hr
      rcases other x hx with rfl | ⟨j, -, old⟩
      · exact quiet.dead
      · exact inv.dead x (mem_of_getElem? old) hr
    · intro x hx hr
      rcases other x hx with rfl | ⟨j, -, old⟩
      · rw [replaced] at hr
        cases hr
      · rw [Generation.load_congr (k := k) (congrFun bitmaps _) (congrFun exported _)
          (congrFun data _)]
        exact inv.inv x (mem_of_getElem? old) hr
  | false =>
    refine inv.store hi ?_ ?_
    · intro x hx hr
      rcases other x hx with rfl | ⟨j, -, old⟩
      · rw [replaced] at hr
        cases hr
      · exact inv.dead x (mem_of_getElem? old) hr
    · intro x hx hr
      rcases other x hx with rfl | ⟨j, ne, old⟩
      · rw [KeyCache.load_store]
        exact inv_step (inv.inv g hg replaced) h
      · -- two generations at work have no file in common
        have files : ¬ (x.metaFile = g.metaFile ∨ x.dataFile = g.dataFile) :=
          fun same => ne (inv.apart j i x g old hi hr replaced same)
        rw [not_or] at files
        rw [Generation.load_congr (k := k) (update_of_ne files.1 _ _)
          (update_of_ne files.1 _ _) (update_of_ne files.2 _ _)]
        exact inv.inv x (mem_of_getElem? old) hr

lemma KeyInv.release (file : Option Nat) {d m} (generations : k'.generations = k.release file)
    (path : k'.path = some (d, m))
    (bound : k.nextFile ≤ k'.nextFile ∧ d < k'.nextFile ∧ m < k'.nextFile)
    (bitmaps : k'.bitmaps = k.bitmaps) (exported : k'.exported = k.exported)
    (fresh : ∀ g ∈ k.generations, (g.replaced || file == some g.metaFile) = false →
      g.metaFile ≠ m ∧ g.dataFile ≠ d ∧ k'.data g.dataFile = k.data g.dataFile)
    (dead : ∀ g ∈ k.generations, g.replaced = false → file = some g.metaFile → Dead g.sys) :
    KeyInv k' := by
  have member (h : Generation) (hh : h ∈ k'.generations) :=
    mem_map.1 (show h ∈ k.release file from generations ▸ hh)
  constructor
  · intro h hh replaced
    obtain ⟨o, ho, rfl⟩ := member h hh
    cases old : o.replaced with
    | true => exact inv.dead o ho old
    | false =>
      simp only [old, Bool.false_or, beq_iff_eq] at replaced
      exact dead o ho old replaced
  · intro h hh live
    obtain ⟨o, ho, rfl⟩ := member h hh
    have kept : o.replaced = false := (Bool.or_eq_false_iff.1 live).1
    change Inv (o.load k')
    rw [Generation.load_congr (congrFun bitmaps _) (congrFun exported _) (fresh o ho live).2.2]
    exact inv.inv o ho kept
  · intro a b x y ha hb hx hy files
    rw [generations, KeyCache.release, getElem?_map] at ha hb
    obtain ⟨o, ho, rfl⟩ := Option.map_eq_some_iff.1 ha
    obtain ⟨o', ho', rfl⟩ := Option.map_eq_some_iff.1 hb
    exact inv.apart a b o o' ho ho' (Bool.or_eq_false_iff.1 hx).1
      (Bool.or_eq_false_iff.1 hy).1 files
  · intro h hh
    obtain ⟨o, ho, rfl⟩ := member h hh
    have old := inv.fileBound o ho
    exact ⟨lt_of_lt_of_le old.1 bound.1, lt_of_lt_of_le old.2 bound.1⟩
  · intro d' m' path'
    cases path.symm.trans path'
    exact bound.2
  · intro d' m' path' h hh live same
    cases path.symm.trans path'
    obtain ⟨o, ho, rfl⟩ := member h hh
    exact absurd same (fresh o ho live).2.1
  · intro d' m' path' h hh live same
    cases path.symm.trans path'
    obtain ⟨o, ho, rfl⟩ := member h hh
    exact absurd same (fresh o ho live).1

lemma KeyInv.truncate (retired : ∀ g ∈ k.generations, g.registered = true → g.retired = true)
    (done : EvictionsDone k .truncate) : KeyInv k.truncate := by
  cases path : k.path with
  | none =>
    have eq : k.truncate = { k with
        data := update k.data k.nextFile fun _ => 0
        path := some (k.nextFile, k.nextFile + 1)
        resetting := true
        nextFile := k.nextFile + 2
        generations := k.release none } := by rw [KeyCache.truncate, path]
    rw [eq]
    refine inv.release none rfl rfl ⟨by simp, by simp, by simp⟩ rfl rfl ?_ nofun
    intro g hg _
    have bound := inv.fileBound g hg
    exact ⟨by omega, by omega, update_of_ne (by omega) _ _⟩
  | some files =>
    obtain ⟨d, m⟩ := files
    have eq : k.truncate = { k with
        data := update k.data (if k.exported m then k.nextFile else d) fun _ => 0
        path := some (if k.exported m then k.nextFile else d, m)
        resetting := true
        nextFile := if k.exported m then k.nextFile + 1 else k.nextFile
        generations := k.release (some m) } := by rw [KeyCache.truncate, path]
    have named := inv.pathBound d m path
    have bound : k.nextFile ≤ (if k.exported m then k.nextFile + 1 else k.nextFile) ∧
        (if k.exported m then k.nextFile else d) <
          (if k.exported m then k.nextFile + 1 else k.nextFile) ∧
        m < if k.exported m then k.nextFile + 1 else k.nextFile := by
      split_ifs <;> omega
    rw [eq]
    refine inv.release (some m) rfl rfl bound rfl rfl ?_ ?_
    · intro g hg live
      obtain ⟨kept, other⟩ := Bool.or_eq_false_iff.1 live
      have ne : g.metaFile ≠ m := fun same => by simp [same] at other
      have data : g.dataFile ≠ if k.exported m then k.nextFile else d := by
        have bound := inv.fileBound g hg
        split
        · omega
        · exact fun same => ne (inv.pathData d m path g hg kept same)
      exact ⟨ne, data, update_of_ne data _ _⟩
    · intro g hg kept same
      have file : g.metaFile = m := (Option.some.inj same).symm
      have found := (inv.current d m path g hg kept file).2
      have returned := retired g hg found
      simp only [Generation.retired, Bool.and_eq_true] at returned
      have dead := (inv.inv g hg kept).dead returned.1 returned.2 (done d m path g hg file)
      exact { dead with }

lemma KeyInv.install {d m} (path : k.path = some (d, m)) (resetting : k.resetting = true)
    {config size writer} (small : size ≤ uint64Max) :
    KeyInv (k.install d m config size writer) := by
  have others : ∀ g ∈ k.generations, g.replaced = false → g.metaFile ≠ m := by
    intro g hg live same
    have settled := (inv.current d m path g hg live same).1
    rw [resetting] at settled
    cases settled
  have files : ∀ g ∈ k.generations, g.replaced = false → ¬ (g.metaFile = m ∨ g.dataFile = d) := by
    intro g hg live same
    rcases same with same | same
    · exact others g hg live same
    · exact others g hg live (inv.pathData d m path g hg live same)
  have named := inv.pathBound d m path
  constructor
  · intro h hh replaced
    rcases mem_cons.1 hh with rfl | old
    · cases replaced
    · exact inv.dead h old replaced
  · intro h hh live
    rcases mem_cons.1 hh with rfl | old
    · have fits : (if writer then 0 else size) ≤ uint64Max := by
        split <;> omega
      refine Sys.Fresh.inv ⟨⟨fits, nofun⟩, rfl, ?_, fun _ => rfl, rfl, rfl, rfl, rfl, rfl, rfl,
        rfl, rfl, rfl⟩
      intro page _
      change update k.bitmaps m _ m page ≠ _
      rw [update_self]
      exact nofun
    · have ne := others h old live
      have same : h.load (k.install d m config size writer) = h.load k :=
        Generation.load_congr (update_of_ne ne _ _) (update_of_ne ne _ _) rfl
      rw [same]
      exact inv.inv h old live
  · intro a b x y ha hb hx hy same
    cases a with
    | zero =>
      cases b with
      | zero => rfl
      | succ b =>
        cases ha
        have old : y ∈ k.generations := mem_of_getElem? hb
        exact absurd (same.imp Eq.symm Eq.symm) (files y old hy)
    | succ a =>
      cases b with
      | zero =>
        cases hb
        have old : x ∈ k.generations := mem_of_getElem? ha
        exact absurd same (files x old hx)
      | succ b => exact congrArg Nat.succ (inv.apart a b x y ha hb hx hy same)
  · intro h hh
    rcases mem_cons.1 hh with rfl | old
    · exact named
    · exact inv.fileBound h old
  · exact inv.pathBound
  · intro d' m' path' h hh live same
    cases path.symm.trans path'
    rcases mem_cons.1 hh with rfl | old
    · rfl
    · exact absurd (.inr same) (files h old live)
  · intro d' m' path' h hh live same
    cases path.symm.trans path'
    rcases mem_cons.1 hh with rfl | old
    · exact ⟨rfl, rfl⟩
    · exact absurd same (others h old live)

lemma KeyInv.unlink : KeyInv k.unlink := by
  constructor
  · intro h hh replaced
    obtain ⟨o, ho, rfl⟩ := mem_map.1 hh
    have dead := inv.dead o ho replaced
    exact { dead with }
  · intro h hh live
    obtain ⟨o, ho, rfl⟩ := mem_map.1 hh
    have old := inv.inv o ho live
    exact ⟨old.claims.congr, old.pages.congr, old.pins.congr, old.parts.congr id⟩
  · intro a b x y ha hb hx hy files
    rw [KeyCache.unlink, getElem?_map] at ha hb
    obtain ⟨o, ho, rfl⟩ := Option.map_eq_some_iff.1 ha
    obtain ⟨o', ho', rfl⟩ := Option.map_eq_some_iff.1 hb
    exact inv.apart a b o o' ho ho' hx hy files
  · intro h hh
    obtain ⟨o, ho, rfl⟩ := mem_map.1 hh
    exact inv.fileBound o ho
  all_goals exact nofun

lemma KeyInv.keep {act} (done : EvictionsDone k act) (h : k.step act = some k') : KeyInv k' := by
  cases act with
  | use i act =>
    simp only [KeyCache.step] at h
    split at h
    · cases h
    · rename_i g hi
      split at h
      · cases h
      · rename_i reuses
        obtain ⟨s, hs, rfl⟩ := Option.map_eq_some_iff.1 h
        exact inv.use hi (Bool.not_eq_true _ ▸ reuses) hs
  | truncate =>
    simp only [KeyCache.step] at h
    split at h
    · rename_i guard
      cases h
      refine inv.truncate ?_ done
      intro g hg registered
      simpa [registered] using all_eq_true.1 guard.2 g hg
    · cases h
  | install config size writer =>
    simp only [KeyCache.step] at h
    split at h
    · rename_i d m path
      split at h
      · rename_i guard
        cases h
        exact inv.install path guard.1 guard.2
      · cases h
    · cases h
  | remove preserve =>
    simp only [KeyCache.step] at h
    split at h
    · cases h
      exact inv.unlink
    · cases h

end

structure KeyCache.Mounted (k : KeyCache) : Prop where
  pathBound : ∀ d m, k.path = some (d, m) → d < k.nextFile ∧ m < k.nextFile
  single : k.generations.length ≤ 1
  opened : ∀ g ∈ k.generations, k.path = some (g.dataFile, g.metaFile) ∧ k.resetting = false ∧
    g.registered = true ∧ g.replaced = false ∧ (g.load k).Fresh

lemma KeyCache.Mounted.inv (h : k.Mounted) : KeyInv k := by
  constructor
  · intro g hg replaced
    obtain ⟨-, -, -, live, -⟩ := h.opened g hg
    rw [live] at replaced
    cases replaced
  · intro g hg _
    exact (h.opened g hg).2.2.2.2.inv
  · intro i j g g' hi hj _ _ _
    have := (List.getElem?_eq_some_iff.1 hi).1
    have := (List.getElem?_eq_some_iff.1 hj).1
    have := h.single
    omega
  · intro g hg
    exact h.pathBound _ _ (h.opened g hg).1
  · exact h.pathBound
  · intro d m path g hg _ _
    cases path.symm.trans (h.opened g hg).1
    rfl
  · intro d m path g hg _ _
    obtain ⟨-, settled, registered, -⟩ := h.opened g hg
    exact ⟨settled, registered⟩

/-- Its steps change no byte and no page state. -/
def RetiredQuiet (k : KeyCache) : Prop :=
  ∀ (i : Nat) (g : Generation), k.generations[i]? = some g → g.replaced = true →
    ∀ (act : Action) (k' : KeyCache), k.step (.use i act) = some k' →
      k'.data = k.data ∧ k'.bitmaps = k.bitmaps ∧ ∀ g', k'.generations[i]? = some g' →
        g'.sys.ops = []

/-- The `abort` of `finish_claim` is not reached. -/
def NoAbort (k : KeyCache) : Prop :=
  ∀ g ∈ k.generations, ∀ ev ∈ g.sys.evictions, ∀ punched,
    (g.load k).finishClaim ev punched ≠ none

lemma KeyInv.quiet (inv : KeyInv k) : RetiredQuiet k := by
  intro i g hi replaced act k' h
  simp only [KeyCache.step, hi] at h
  split at h
  · cases h
  · rename_i reuses
    obtain ⟨s, hs, rfl⟩ := Option.map_eq_some_iff.1 h
    have dead := inv.dead g (mem_of_getElem? hi) replaced
    have quiet := (dead.load k).step (Bool.not_eq_true _ ▸ reuses) hs
    obtain ⟨data, bitmaps, -⟩ := KeyCache.store_quiet (i := i) quiet
    refine ⟨data, bitmaps, ?_⟩
    intro g' hg'
    rcases KeyCache.getElem?_store hi hg' with ⟨-, rfl⟩ | ⟨ne, -⟩
    · exact quiet.ops
    · exact absurd rfl ne

lemma KeyInv.noAbort (inv : KeyInv k) : NoAbort k := by
  intro g hg ev hev punched
  cases replaced : g.replaced with
  | true =>
    rw [(inv.dead g hg replaced).evictions] at hev
    cases hev
  | false => exact (inv.inv g hg replaced).finishClaim hev punched

/-- In every run that truncates files only when the evictions of their generation have ended, the
replaced generations are quiet and no eviction aborts. -/
theorem run_retired_quiet {acts : List KeyAction} (mounted : k.Mounted)
    (along : Machine.Along KeyCache.step EvictionsDone k acts)
    (run : run KeyCache.step k acts = some k') : RetiredQuiet k' ∧ NoAbort k' := by
  have inv : KeyInv k' := run_inv_along (fun _ _ _ inv done h => inv.keep done h)
    mounted.inv along run
  exact ⟨inv.quiet, inv.noAbort⟩

def oneBlock : KeyCache where
  data := fun _ _ => 0
  bitmaps := fun _ _ => .missing
  exported := fun _ => false
  path := some (0, 1)
  resetting := false
  nextFile := 2
  generations := [⟨0, 1, true, false, Sys.empty twoPages 65536⟩]

lemma oneBlock_mounted : oneBlock.Mounted := by
  refine ⟨?_, le_rfl, ?_⟩
  · intro d m path
    cases path
    exact ⟨by decide, by decide⟩
  · intro g hg
    obtain rfl := mem_singleton.1 hg
    exact ⟨rfl, rfl, rfl, rfl, Sys.empty_fresh (by decide)⟩

def fetchNewest (value : UInt8) : List KeyAction :=
  [.use 0 (.claimFetch 0 1 0), .use 0 (.write ⟨0, 1, 1, 65536⟩ 65536 fun _ => value),
    .use 0 (.publishClean ⟨0, 1, 1, 65536⟩ 0 65536 true),
    .use 0 (.finishFetch ⟨0, 1, 1, 65536⟩ fun _ => true)]

def evictThenRetire : List KeyAction :=
  fetchNewest 7 ++ [.use 0 .claimLiveRegion, .use 0 (.punchClaim ⟨0, 65536, [0, 1], false⟩),
    .use 0 (.finishClaim ⟨0, 65536, [0, 1], true⟩), .use 0 .retireGeneration]

def replaceFiles : List KeyAction := [.truncate, .install twoPages 65536 false] ++ fetchNewest 9

theorem run_retired_quiet_evicted : ∃ k',
    run KeyCache.step oneBlock (evictThenRetire ++ replaceFiles) = some k' ∧
    k'.generations.map Generation.replaced = [false, true] ∧ k'.data 0 0 = 9 ∧
    RetiredQuiet k' ∧ NoAbort k' := by
  have first : run KeyCache.step oneBlock evictThenRetire = some _ :=
    run_final (by decide +kernel)
  have ran : run KeyCache.step oneBlock (evictThenRetire ++ replaceFiles) = some _ :=
    run_final (by decide +kernel)
  have done : ∀ g ∈ (final KeyCache.step oneBlock evictThenRetire).generations,
      g.sys.evictions = [] := by decide +kernel
  refine ⟨_, ran, by decide +kernel, by decide +kernel, run_retired_quiet oneBlock_mounted ?_ ran⟩
  refine .append first (.of_all ?_ _) ⟨fun _ _ _ g hg _ => done g hg, fun s' _ => .of_all ?_ s'⟩
  · simp [evictThenRetire, fetchNewest, EvictionsDone]
  · simp [fetchNewest, EvictionsDone]

def evictDuringReset : List KeyAction :=
  fetchNewest 7 ++ [.use 0 .claimLiveRegion, .use 0 .retireGeneration] ++ replaceFiles

/-- The old eviction punches the block the new generation has published, and then aborts. -/
theorem evictDuringReset_punches : oneBlock.Mounted ∧ ∃ k' k'',
    run KeyCache.step oneBlock evictDuringReset = some k' ∧
    run KeyCache.step oneBlock
      (evictDuringReset ++ [.use 1 (.punchClaim ⟨0, 65536, [0, 1], false⟩)]) = some k'' ∧
    k'.generations.map Generation.replaced = [false, true] ∧
    k'.bitmaps 1 0 = .clean ∧ k'.data 0 0 = 9 ∧ k''.bitmaps 1 0 = .clean ∧ k''.data 0 0 = 0 ∧
    ∃ g ∈ k''.generations, ∃ ev ∈ g.sys.evictions,
      ((g.load k'').finishClaim ev ev.punched).isNone = true := by
  have ran : run KeyCache.step oneBlock evictDuringReset = some _ :=
    run_final (by decide +kernel)
  have punched : run KeyCache.step oneBlock
      (evictDuringReset ++ [.use 1 (.punchClaim ⟨0, 65536, [0, 1], false⟩)]) = some _ :=
    run_final (by decide +kernel)
  refine ⟨oneBlock_mounted, _, _, ran, punched, ?_⟩
  decide +kernel

end

end Ngs3fs.Cache
