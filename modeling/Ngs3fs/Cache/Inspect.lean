import Ngs3fs.Cache.Waiting
import Ngs3fs.Persist.Header

/-!
# The look at the registry before a file is opened

An asynchronous open or create first looks for generations of its key (`inspect_registry`). The one
that matches the request is used; every other one is retired, and a busy one is waited for. The
function calls itself when `begin_retire_wait` refuses to register. It refuses an entry without
claims, checksum operations and pins, but `inspect_registry` also calls an entry busy while a
metadata operation is in flight: for such an entry (`Stuck`) it never returns. The keepalive list
and a failing `eventfd` are left out. -/

namespace Ngs3fs.Cache
open Persist List

structure LiveEntry where
  key : Text
  header : CacheMetaHeader
  entry : CacheEntry
  asyncMetadataInflight : Bool

/-- Weak references; `none` is one whose generation is gone. -/
abbrev Registry := List (Option LiveEntry)

/-- `Kind::OPEN` or `Kind::CREATE_WRITER`, and the version. -/
structure FileRequest where
  opens : Bool
  identity : CacheIdentity

/-- Nothing to wait for is `none`. -/
def CacheEntry.beginRetireWait (e : CacheEntry) : Except CacheError (Option CacheEntry) :=
  if !e.stale then .error (.logicError "cache retirement wait without retirement")
  else if e.quiescent then .ok none
  else .ok (some { e with waiters := e.waiters + 1 })

namespace LiveEntry

def isHit (req : FileRequest) (g : LiveEntry) : Bool :=
  req.opens && !g.entry.detached && !g.entry.stale && cacheIdentityMatches g.header req.identity

def retire (g : LiveEntry) : LiveEntry :=
  { g with entry := CacheEntry.notifyWaiters { g.entry with stale := true } }

def busy (g : LiveEntry) : Bool :=
  !g.entry.activeClaims.isEmpty || g.entry.checksumOps != 0 || g.entry.pinnedRegions != 0 ||
    g.asyncMetadataInflight

def registered (g : LiveEntry) : LiveEntry :=
  { g with entry := { g.entry with waiters := g.entry.waiters + 1 } }

end LiveEntry

inductive Found where
  | nothing
  | hit (g : LiveEntry) (rest : Registry)
  | pending (g : LiveEntry) (rest : Registry)

/-- The loop, with the entries it keeps before the one it stops at. -/
def scanRegistry (req : FileRequest) : Registry → Registry × Found
  | [] => ([], .nothing)
  | none :: rest => scanRegistry req rest
  | some g :: rest =>
    if g.key ≠ req.identity.key then
      let (kept, found) := scanRegistry req rest
      (some g :: kept, found)
    else if g.isHit req then ([], .hit g rest)
    else if g.retire.busy then ([], .pending g.retire rest)
    else scanRegistry req rest

/-- `fstat` of a hit, a wait, the path of a file that is nowhere open, or an exception. -/
inductive Inspection where
  | hitStat (g : LiveEntry)
  | retireWait (g : LiveEntry)
  | resolvePath
  | failed (error : CacheError)

/-- At most so many calls of itself; `none` if they do not suffice. -/
def inspectRegistry (req : FileRequest) : Nat → Registry → Option (Registry × Inspection)
  | 0, _ => none
  | n + 1, registry =>
    match scanRegistry req registry with
    | (kept, .nothing) => some (kept, .resolvePath)
    | (kept, .hit g rest) => some (kept ++ some g :: rest, .hitStat g)
    | (kept, .pending g rest) =>
      match g.entry.beginRetireWait with
      | .error error => some (kept ++ some g :: rest, .failed error)
      | .ok (some entry) =>
        some (kept ++ some { g with entry } :: rest, .retireWait { g with entry })
      | .ok none => inspectRegistry req n (kept ++ some g :: rest)

/-- Dropped from the registry. -/
structure LiveEntry.Idle (req : FileRequest) (g : LiveEntry) : Prop where
  miss : g.isHit req = false
  quiescent : g.entry.quiescent = true
  settled : g.asyncMetadataInflight = false

/-- Only a metadata operation keeps it busy. -/
structure LiveEntry.Stuck (req : FileRequest) (g : LiveEntry) : Prop where
  key : g.key = req.identity.key
  miss : g.isHit req = false
  quiescent : g.entry.quiescent = true
  inflight : g.asyncMetadataInflight = true

structure LiveEntry.InUse (req : FileRequest) (g : LiveEntry) : Prop where
  key : g.key = req.identity.key
  miss : g.isHit req = false
  used : g.entry.quiescent = false

def FirstWith (req : FileRequest) (P : LiveEntry → Prop) (registry : Registry) : Prop :=
  ∃ before g rest, registry = before ++ some g :: rest ∧ P g ∧
    ∀ h, some h ∈ before → h.key = req.identity.key → h.Idle req

section
variable {req : FileRequest} {registry : Registry} {g : LiveEntry}

@[simp] lemma retire_quiescent : g.retire.entry.quiescent = g.entry.quiescent := rfl

lemma busy_eq : g.retire.busy = (!g.entry.quiescent || g.asyncMetadataInflight) := by
  rw [LiveEntry.busy, CacheEntry.quiescent, Bool.not_and, Bool.not_and]
  rfl

lemma retire_miss : g.retire.isHit req = false := by
  rw [LiveEntry.isHit]
  simp [LiveEntry.retire, CacheEntry.notifyWaiters]

lemma scanRegistry_append {before} (rest : Registry)
    (idle : ∀ h, some h ∈ before → h.key = req.identity.key → h.Idle req) :
    ∃ kept, (∀ h, some h ∈ kept → h.key ≠ req.identity.key) ∧
      scanRegistry req (before ++ rest) =
        (kept ++ (scanRegistry req rest).1, (scanRegistry req rest).2) := by
  induction before with
  | nil => exact ⟨[], fun h mem => absurd mem not_mem_nil, rfl⟩
  | cons weak before ih =>
    obtain ⟨kept, other, scanned⟩ := ih fun h mem => idle h (mem_cons_of_mem _ mem)
    cases weak with
    | none => exact ⟨kept, other, scanned⟩
    | some g =>
      rw [cons_append, scanRegistry]
      split
      · rename_i key
        refine ⟨some g :: kept, fun h mem => ?_, by rw [scanned]; rfl⟩
        rcases mem_cons.1 mem with same | mem
        · cases same
          exact key
        · exact other h mem
      · rename_i key
        have dropped := idle g mem_cons_self (not_not.1 key)
        rw [dropped.miss, if_neg Bool.false_ne_true, busy_eq, dropped.quiescent, dropped.settled]
        exact ⟨kept, other, scanned⟩

lemma scanRegistry_pending {rest : Registry} (key : g.key = req.identity.key)
    (miss : g.isHit req = false) (busy : g.retire.busy = true) :
    scanRegistry req (some g :: rest) = ([], .pending g.retire rest) := by
  rw [scanRegistry, if_neg (not_not.2 key), miss, if_neg Bool.false_ne_true, if_pos busy]

lemma inspectRegistry_stuck (stuck : FirstWith req (LiveEntry.Stuck req) registry) :
    ∃ registry', FirstWith req (LiveEntry.Stuck req) registry' ∧
      ∀ n, inspectRegistry req (n + 1) registry = inspectRegistry req n registry' := by
  obtain ⟨before, g, rest, rfl, stuck, idle⟩ := stuck
  obtain ⟨kept, other, scanned⟩ := scanRegistry_append (some g :: rest) idle
  have busy : g.retire.busy = true := by rw [busy_eq, stuck.inflight, Bool.or_true]
  rw [scanRegistry_pending stuck.key stuck.miss busy, append_nil] at scanned
  refine ⟨kept ++ some g.retire :: rest, ⟨kept, g.retire, rest, rfl, ?_, ?_⟩, fun n => ?_⟩
  · exact { stuck with miss := retire_miss }
  · intro h mem same
    exact absurd same (other h mem)
  · have refused : g.retire.entry.beginRetireWait = .ok none := by
      rw [CacheEntry.beginRetireWait, retire_quiescent, stuck.quiescent]
      rfl
    rw [inspectRegistry, scanned]
    dsimp only
    rw [refused]

lemma inspectRegistry_never (stuck : FirstWith req (LiveEntry.Stuck req) registry) (n : Nat) :
    inspectRegistry req n registry = none := by
  induction n generalizing registry with
  | zero => rfl
  | succ n ih =>
    obtain ⟨registry', again, turn⟩ := inspectRegistry_stuck stuck
    rw [turn n]
    exact ih again

lemma inspectRegistry_inUse (used : FirstWith req (fun h => h = g ∧ g.InUse req) registry) :
    ∃ registry', some g.retire.registered ∈ registry' ∧
      ∀ n, inspectRegistry req (n + 1) registry =
        some (registry', .retireWait g.retire.registered) := by
  obtain ⟨before, h, rest, rfl, ⟨same, used⟩, idle⟩ := used
  subst h
  obtain ⟨kept, -, scanned⟩ := scanRegistry_append (some g :: rest) idle
  have busy : g.retire.busy = true := by rw [busy_eq, used.used]; rfl
  rw [scanRegistry_pending used.key used.miss busy, append_nil] at scanned
  refine ⟨kept ++ some g.retire.registered :: rest, mem_append_right _ mem_cons_self, fun n => ?_⟩
  have accepted : g.retire.entry.beginRetireWait = .ok (some g.retire.registered.entry) := by
    rw [CacheEntry.beginRetireWait, retire_quiescent, used.used]
    rfl
  rw [inspectRegistry, scanned]
  dsimp only
  rw [accepted]
  rfl

lemma pending_of_scanRegistry {kept rest}
    (scanned : scanRegistry req registry = (kept, .pending g rest)) :
    FirstWith req (fun h => g = h.retire ∧ h.key = req.identity.key ∧ h.isHit req = false ∧
      h.retire.busy = true) registry := by
  induction registry generalizing kept with
  | nil => cases (Prod.mk.inj scanned).2
  | cons weak registry ih =>
    cases weak with
    | none =>
      obtain ⟨before, h, rest, rfl, stops, idle⟩ := ih scanned
      refine ⟨none :: before, h, rest, rfl, stops, fun h mem => idle h ?_⟩
      exact (mem_cons.1 mem).resolve_left nofun
    | some h =>
      rw [scanRegistry] at scanned
      split at scanned
      · rename_i key
        obtain ⟨-, found⟩ := Prod.mk.inj scanned
        obtain ⟨before, h', rest, rfl, stops, idle⟩ := ih (Prod.ext rfl found)
        refine ⟨some h :: before, h', rest, rfl, stops, fun k mem same => ?_⟩
        rcases mem_cons.1 mem with eq | mem
        · cases eq
          exact absurd same key
        · exact idle k mem same
      rename_i key
      split at scanned
      · cases (Prod.mk.inj scanned).2
      rename_i miss
      rw [Bool.not_eq_true] at miss
      split at scanned
      · rename_i busy
        obtain ⟨rfl, rfl⟩ := Found.pending.inj (Prod.mk.inj scanned).2
        exact ⟨[], h, registry, rfl, ⟨rfl, not_not.1 key, miss, busy⟩,
          fun k mem => absurd mem not_mem_nil⟩
      · rename_i free
        rw [busy_eq, Bool.not_eq_true, Bool.or_eq_false_iff, Bool.not_eq_false'] at free
        obtain ⟨before, h', rest, rfl, stops, idle⟩ := ih scanned
        refine ⟨some h :: before, h', rest, rfl, stops, fun k mem same => ?_⟩
        rcases mem_cons.1 mem with eq | mem
        · cases eq
          exact ⟨miss, free.1, free.2⟩
        · exact idle k mem same

lemma inspectRegistry_once (free : ¬ FirstWith req (LiveEntry.Stuck req) registry) :
    (inspectRegistry req 1 registry).isSome = true := by
  rw [inspectRegistry]
  split
  · rfl
  · rfl
  rename_i kept g rest scanned
  split
  · rfl
  · rfl
  rename_i refused
  obtain ⟨before, h, after, rfl, ⟨rfl, key, miss, busy⟩, idle⟩ := pending_of_scanRegistry scanned
  have quiescent : h.entry.quiescent = true := by
    by_contra used
    rw [CacheEntry.beginRetireWait, retire_quiescent, if_neg (by simp [LiveEntry.retire,
      CacheEntry.notifyWaiters]), if_neg used] at refused
    cases refused
  rw [busy_eq, quiescent] at busy
  exact absurd ⟨before, h, after, rfl, ⟨key, miss, quiescent, busy⟩, idle⟩ free

lemma idle_notifies {s s'} (acc : Accounted s) {act} (h : entryStep s act = some s')
    (used : s.entry.quiescent = false) (idle : s'.entry.quiescent = true) :
    s.entry.waitTokens + s.entry.waiters ≤ s'.entry.waitTokens := by
  have announced (announced : act.Announced s) :
      s.entry.waitTokens + s.entry.waiters ≤ s'.entry.waitTokens := by
    cases entryStep_signals acc h announced with
    | notified _ _ tokens => exact tokens
    | quiet _ _ harder =>
      have still : Condition.holds s'.entry .quiescent = false := harder.waits rfl used
      rw [Condition.holds, idle] at still
      cases still
  cases act with
  | discardWrite =>
    cases h
    have same : s.entry.quiescent = true := idle
    rw [used] at same
    cases same
  | publishDirty offset length writtenEnd =>
    obtain ⟨-, ⟨⟩⟩ := Option.ite_none_right_eq_some.1 h
    rw [(publishDirty_frame acc offset length writtenEnd).2.2.2, used] at idle
    cases idle
  | use | pin | beginWrite | commitWrite | detach => exact announced trivial

/-- **Inspection of the registry.** It returns if and only if the first generation of the key that
is not idle is not one that only a metadata operation keeps busy. If it is one in use, a wait for
it is registered, and a call that leaves an entry idle sends a token to every registered waiter. -/
theorem inspection_returns_iff (req : FileRequest) (registry : Registry) :
    ((∃ n, (inspectRegistry req n registry).isSome = true) ↔
      ¬ FirstWith req (LiveEntry.Stuck req) registry) ∧
    (∀ g, FirstWith req (fun h => h = g ∧ g.InUse req) registry →
      ∃ registry', some g.retire.registered ∈ registry' ∧
        g.retire.registered.entry.waiters = g.entry.waiters + 1 ∧
        g.retire.registered.entry.quiescent = false ∧
        ∀ n, inspectRegistry req (n + 1) registry =
          some (registry', .retireWait g.retire.registered)) ∧
    ∀ (s t u : Sys) (acts : List EntryAction) (act : EntryAction), s.Fresh →
      Machine.run entryStep s acts = some t → entryStep t act = some u →
      t.entry.quiescent = false → u.entry.quiescent = true →
      t.entry.waitTokens + t.entry.waiters ≤ u.entry.waitTokens := by
  refine ⟨⟨?_, fun free => ⟨1, inspectRegistry_once free⟩⟩, fun g used => ?_, ?_⟩
  · rintro ⟨n, returned⟩ stuck
    rw [inspectRegistry_never stuck] at returned
    cases returned
  · obtain ⟨registry', mem, waits⟩ := inspectRegistry_inUse used
    obtain ⟨_, _, _, _, ⟨_, inUse⟩, _⟩ := used
    exact ⟨registry', mem, rfl, inUse.used, waits⟩
  · intro s t u acts act fresh run h used idle
    exact idle_notifies (fresh.run_accounted run) h used idle

end

/-- Its metadata is being written. -/
def metadataWritten : LiveEntry where
  key := []
  header := .zero
  entry := (Sys.empty twoPages 65536).entry
  asyncMetadataInflight := true

theorem inspection_spins :
    ¬ ∃ n, (inspectRegistry ⟨false, ⟨[], [], [], 0, 0⟩⟩ n [some metadataWritten]).isSome =
      true := by
  have stuck : FirstWith ⟨false, ⟨[], [], [], 0, 0⟩⟩ (LiveEntry.Stuck ⟨false, ⟨[], [], [], 0, 0⟩⟩)
      [some metadataWritten] :=
    ⟨[], metadataWritten, [], rfl, ⟨rfl, rfl, rfl, rfl⟩, fun _ mem => absurd mem not_mem_nil⟩
  rintro ⟨n, returned⟩
  rw [inspectRegistry_never stuck] at returned
  cases returned

end Ngs3fs.Cache
