import Ngs3fs.Cache.Pins
import Ngs3fs.Lib.Sums

/-!
# What a waiter of an entry waits for

Readers, verifiers and the retirement of a generation wait on one event of the entry, each for a
condition of its own (`Condition`). `Harder` says that no condition became true between two states.
Every call that changes what a condition reads either wakes the waiters or makes the conditions
harder (`Signals`); the calls of a writer are the exception. -/

namespace Ngs3fs.Cache
open Loop CacheEntry List

/-- `wait_for_checksum`. -/
def CacheEntry.checksumReady (e : CacheEntry) (offset length : Nat) : Bool :=
  if e.stale ∨ e.checksumManifest ≠ .available ∨ length = 0 ∨ e.size ≤ offset then true
  else
    let stop := offset + min length (e.size - offset)
    (e.checksumParts.zip e.checksumStates).all fun (part, state) =>
      !(decide (part.offset < stop) && decide (offset < part.offset + part.size) &&
        state.inProgress)

/-- A range (`wait_for_range`, `begin_async_wait`), the retry of its parts (`begin_checksum_wait`)
or their verification (`wait_for_checksum`), the manifest (`begin_checksum_manifest`,
`begin_manifest_wait`), the replies before the retry of a fetch (`wait_for_retry`) or of a part
(`wait_for_checksum_retry`), and the end of a generation (`retire_generation`, `begin_retire_wait`).
-/
inductive Condition where
  | range (offset length : Nat)
  | unblocked (offset length : Nat)
  | checksum (offset length : Nat)
  | manifest
  | retry (claim : CacheFetchClaim)
  | checksumRetry (claim : CacheChecksumClaim)
  | quiescent
  deriving DecidableEq

def Condition.holds (e : CacheEntry) : Condition → Bool
  | .range offset length => e.rangeReady offset length
  | .unblocked offset length => e.checksumBlocked offset length != .retrying
  | .checksum offset length => e.checksumReady offset length
  | .manifest => e.stale || e.checksumManifest != .loading
  | .retry claim =>
    match e.beginRetry claim with
    | .ok (_, ready) => ready
    | .error _ => true
  | .checksumRetry claim =>
    match e.beginChecksumRetry claim with
    | .ok (_, ready) => ready
    | .error _ => true
  | .quiescent => e.quiescent

def Condition.inside (e : CacheEntry) : Condition → Bool
  | .range offset length | .unblocked offset length => decide (offset + length ≤ e.size)
  | _ => true

def PartState.Follows (state state' : PartState) : Prop :=
  state' = state ∨ state = .unverified ∧ state' = .verifying

structure Harder (e e' : CacheEntry) : Prop where
  config : e'.config = e.config
  size : e.size ≤ e'.size
  epoch : e'.epoch = e.epoch
  stale : e'.stale = e.stale
  pages : ∀ page < e.pageCount, e'.bitmap page = e.bitmap page ∨ e'.bitmap page = .readPending ∨
    e.bitmap page = .clean ∧ e'.bitmap page = .missing
  pins : ∀ r, e.regionPins r ≤ e'.regionPins r
  /-- the pins of replies do not get fewer either -/
  excess : ∀ r, e.regionPins r + e'.verificationPins r ≤ e'.regionPins r + e.verificationPins r
  pinned : e.pinnedRegions ≤ e'.pinnedRegions
  ops : e.checksumOps ≤ e'.checksumOps
  verifying : ∀ claim a, e.findFetch claim = some a → a.verifying = true →
    ∃ a', e'.findFetch claim = some a' ∧ a'.verifying = true
  busy : e.activeClaims ≠ [] → e'.activeClaims ≠ []
  loading : e.checksumManifest = .loading → e'.checksumManifest = .loading
  available : e.checksumManifest = .available → e'.checksumManifest = .available
  parts : e'.checksumParts = e.checksumParts
  states : List.Forall₂ PartState.Follows e.checksumStates e'.checksumStates

section
variable {e e' : CacheEntry}

lemma PartState.Follows.refl (state : PartState) : state.Follows state := .inl rfl

lemma follows_refl (states : List PartState) : List.Forall₂ PartState.Follows states states :=
  List.forall₂_same.2 fun state _ => .refl state

variable {referenced : Nat → Bool} {clockHand : Nat}

lemma Harder.unread {nextClaimId waiters waitTokens} {evictionDisabled detached dirty exported} :
    Harder e { e with
      referenced, nextClaimId, clockHand, evictionDisabled, detached, dirty, exported, waiters
      waitTokens } :=
  ⟨rfl, Nat.le_refl _, rfl, rfl, fun _ _ => .inl rfl, fun _ => Nat.le_refl _,
    fun _ => Nat.le_refl _, Nat.le_refl _, Nat.le_refl _, fun _ a found verifying =>
    ⟨a, found, verifying⟩, id, id, id, rfl, follows_refl _⟩

lemma Harder.refl (e : CacheEntry) : Harder e e := .unread

/-! ### Conditions -/

variable {stop : Nat} {parts : List CacheChecksumPart} {states : List PartState}

lemma blockedScan_follows {states'}
    (follows : List.Forall₂ PartState.Follows states states') (blocked : PartState) :
    blockedScan stop (parts.zip states') blocked =
      blockedScan stop (parts.zip states) blocked := by
  induction follows generalizing parts blocked with
  | nil => rfl
  | cons head _ ih =>
    cases parts with
    | nil => rfl
    | cons part parts =>
      simp only [zip_cons_cons, blockedScan, ih]
      obtain rfl | ⟨rfl, rfl⟩ := head
      all_goals rfl
variable {offset : Nat}

lemma dropWhile_follows {states'}
    (follows : List.Forall₂ PartState.Follows states states') (blocked : PartState) :
    blockedScan stop ((parts.zip states').dropWhile fun (part, _) =>
        decide (part.offset + part.size ≤ offset)) blocked =
      blockedScan stop ((parts.zip states).dropWhile fun (part, _) =>
        decide (part.offset + part.size ≤ offset)) blocked := by
  induction follows generalizing parts with
  | nil => rfl
  | @cons state state' states states' head tail ih =>
    cases parts with
    | nil => rfl
    | cons part parts =>
      by_cases ends : part.offset + part.size ≤ offset
      · rw [zip_cons_cons, zip_cons_cons, dropWhile_cons_of_pos (by simpa using ends),
            dropWhile_cons_of_pos (by simpa using ends)]
        exact ih
      · rw [zip_cons_cons, zip_cons_cons, dropWhile_cons_of_neg (by simpa using ends),
            dropWhile_cons_of_neg (by simpa using ends)]
        have follows := List.Forall₂.cons head tail
        rw [← zip_cons_cons, ← zip_cons_cons]
        exact blockedScan_follows follows blocked

variable {length : Nat}

lemma Harder.checksumBlocked (h : Harder e e') (inside : offset + length ≤ e.size) :
    e'.checksumBlocked offset length = e.checksumBlocked offset length := by
  have size := h.size
  rw [CacheEntry.checksumBlocked, CacheEntry.checksumBlocked, h.stale]
  refine if_congr ?_ rfl ?_
  · have starts : (e'.size ≤ offset ∨ length = 0) ↔ (e.size ≤ offset ∨ length = 0) := by omega
    rw [starts]
  · have clipped : min length (e'.size - offset) = min length (e.size - offset) := by omega
    rw [clipped, h.parts, dropWhile_follows h.states]

lemma blockedScan_cases {parts blocked} (start : blocked = .unverified ∨ blocked = .retrying) :
    blockedScan stop parts blocked = .unverified ∨
      blockedScan stop parts blocked = .retrying ∨
      blockedScan stop parts blocked = .bad := by
  induction parts generalizing blocked with
  | nil => exact start.imp_right .inl
  | cons p parts ih =>
    rw [blockedScan]
    split
    · exact start.imp_right .inl
    split
    · exact .inr (.inr rfl)
    · refine ih ?_
      split
      · exact .inr rfl
      · exact start

lemma checksumBlocked_cases (e : CacheEntry) (offset length : Nat) :
    e.checksumBlocked offset length = .unverified ∨ e.checksumBlocked offset length = .retrying ∨
      e.checksumBlocked offset length = .bad := by
  unfold checksumBlocked
  split
  · exact .inl rfl
  · exact blockedScan_cases (.inl rfl)

lemma Harder.pageCount (h : Harder e e') {page} (count : page < e.pageCount) :
    page < e'.pageCount := by
  rw [lt_pageCount] at count ⊢
  exact count.trans_le h.size

lemma Harder.range (h : Harder e e') (inside : offset + length ≤ e.size)
    (waits : e.rangeReady offset length = false) : e'.rangeReady offset length = false := by
  have pos : 0 < length := by
    rcases Nat.eq_zero_or_pos length with rfl | pos
    · rw [rangeReady, if_pos (.inr rfl)] at waits
      cases waits
    · exact pos
  have live : e.stale = false := by
    by_contra stale
    rw [rangeReady, if_pos (.inl (by simpa using stale))] at waits
    cases waits
  have asked : ¬ (e.stale = true ∨ length = 0) := by
    rw [live]
    rintro (stale | rfl)
    · cases stale
    · cases pos
  have blocked := h.checksumBlocked inside
  have counted (page : Nat) (mem : CacheEntry.PageIn offset length page) : page < e.pageCount := by
    rw [lt_pageCount]
    exact mem.2.trans_le inside
  rcases checksumBlocked_cases e offset length with free | retrying | bad
  · have good : e.rangeHasState offset length .bad = false := by
      by_contra bad
      rw [rangeReady, if_neg asked, free, if_neg (by decide),
        if_neg (by decide), if_pos (by simpa using bad)] at waits
      cases waits
    have good' : e'.rangeHasState offset length .bad = false := by
      rw [rangeHasState_eq_false pos] at good ⊢
      intro page mem bad
      rcases h.pages page (counted page mem) with same | pending | ⟨-, missing⟩
      · exact good page mem (same ▸ bad)
      · rw [pending] at bad
        cases bad
      · rw [missing] at bad
        cases bad
    rw [← Bool.not_eq_true] at waits ⊢
    rw [rangeReady_iff pos (inside.trans h.size) (h.stale.trans live)
      (blocked.trans free) good', h.config]
    rw [rangeReady_iff pos inside live free good] at waits
    rintro ⟨settled, unpinned⟩
    refine waits ⟨fun page count meets pending => ?_, fun page count meets pinned => ?_⟩
    · refine settled page (h.pageCount count) meets ?_
      rcases h.pages page count with same | pending' | ⟨clean, -⟩
      · exact same.trans pending
      · exact pending'
      · rw [clean] at pending
        cases pending
    · have clean := unpinned page (h.pageCount count) meets
        (Nat.ne_of_gt ((Nat.pos_of_ne_zero pinned).trans_le (h.pins _)))
      rcases h.pages page count with same | pending | ⟨clean, -⟩
      · exact same.symm.trans clean
      · rw [pending] at clean
        cases clean
      · exact clean
  · rw [rangeReady, h.stale, if_neg asked, blocked, retrying, if_neg (by decide),
      if_pos rfl]
  · rw [rangeReady, if_neg asked, bad, if_pos rfl] at waits
    cases waits

variable {i : Nat}

lemma Harder.inProgress (h : Harder e e') {state} (found : e.checksumStates[i]? = some state)
    (busy : state.inProgress = true) : e'.checksumStates[i]? = some state := by
  obtain ⟨lt, rfl⟩ := List.getElem?_eq_some_iff.1 found
  have lt' : i < e'.checksumStates.length := h.states.length_eq ▸ lt
  rw [getElem?_eq_getElem lt']
  rcases h.states.get lt lt' with same | ⟨unverified, -⟩
  · exact congrArg some same
  · rw [get_eq_getElem] at unverified
    rw [unverified] at busy
    cases busy

lemma Harder.checksum (h : Harder e e') (waits : e.checksumReady offset length = false) :
    e'.checksumReady offset length = false := by
  have size := h.size
  unfold checksumReady at waits
  split at waits
  · cases waits
  rename_i asked
  simp only [not_or, not_not, Nat.not_le] at asked
  obtain ⟨live, available, pos, starts⟩ := asked
  rw [all_eq_false] at waits
  obtain ⟨⟨part, state⟩, mem, busy⟩ := waits
  obtain ⟨i, found⟩ := mem_iff_getElem?.1 mem
  obtain ⟨hp, hs⟩ := getElem?_zip_eq_some.1 found
  simp only [Bool.not_eq_true, Bool.not_eq_false', Bool.and_eq_true, decide_eq_true_eq] at busy
  obtain ⟨⟨before, after⟩, busy⟩ := busy
  have asked : ¬ (e'.stale = true ∨ e'.checksumManifest ≠ .available ∨ length = 0 ∨
      e'.size ≤ offset) := by
    rw [h.stale, h.available available]
    rintro (stale | unavailable | empty | outside)
    · exact live stale
    · exact unavailable rfl
    · exact pos empty
    · omega
  rw [checksumReady, if_neg asked, all_eq_false]
  refine ⟨(part, state), mem_iff_getElem?.2 ⟨i, getElem?_zip_eq_some.2 ⟨?_, ?_⟩⟩, ?_⟩
  · rw [h.parts]
    exact hp
  · exact h.inProgress hs busy
  · simp only [Bool.not_eq_true, Bool.not_eq_false', Bool.and_eq_true, decide_eq_true_eq]
    exact ⟨⟨by omega, after⟩, busy⟩

lemma Harder.retryPinsReady (h : Harder e e') (waits : e.retryPinsReady offset length = false) :
    e'.retryPinsReady offset length = false := by
  unfold CacheEntry.retryPinsReady at waits ⊢
  rw [all_eq_false] at waits ⊢
  obtain ⟨r, mem, beyond⟩ := waits
  refine ⟨r, by rw [h.config]; exact mem, ?_⟩
  have excess := h.excess r
  rw [decide_eq_true_eq] at beyond ⊢
  omega

lemma verificationPins_congr (config : e'.config = e.config) (size : e'.size = e.size)
    (spans : e'.activeClaims.map ActiveFetch.span = e.activeClaims.map ActiveFetch.span)
    (parts : e'.checksumParts = e.checksumParts)
    (busy : e'.checksumStates.map PartState.inProgress = e.checksumStates.map PartState.inProgress)
    (r : Nat) : e'.verificationPins r = e.verificationPins r := by
  have view (e : CacheEntry) : e.verificationPins r =
      (e.checksumParts.zip (e.checksumStates.map PartState.inProgress)).countP (fun p =>
        p.2 && decide (p.1.offset < min e.size (r * e.blockSize + e.blockSize)) &&
          decide (r * e.blockSize < p.1.offset + p.1.size)) +
      (e.activeClaims.map ActiveFetch.span).countP (fun p =>
        p.2.2 && decide (p.1 < min e.size (r * e.blockSize + e.blockSize)) &&
          decide (r * e.blockSize < p.1 + p.2.1)) := by
    rw [countP_map, zip_map_right, countP_map]
    rfl
  rw [view, view, config, size, spans, parts, busy]

lemma retryPinsReady_congr (config : e'.config = e.config) (pins : e'.regionPins = e.regionPins)
    (same : ∀ r, e'.verificationPins r = e.verificationPins r) (offset length : Nat) :
    e'.retryPinsReady offset length = e.retryPinsReady offset length := by
  rw [retryPinsReady, retryPinsReady, config, pins]
  simp only [same]

variable {claim : CacheFetchClaim}

lemma retry_waits_iff :
    Condition.holds e (.retry claim) = false ↔ ∃ a, e.findFetch claim = some a ∧ e.stale = false ∧
      a.verifying = true ∧ e.retryPinsReady claim.offset claim.length = false := by
  rw [Condition.holds, beginRetry]
  cases found : e.findFetch claim with
  | none => simp
  | some a =>
    cases live : e.stale with
    | true => simp
    | false =>
      cases verifying : a.verifying with
      | false => simp [verifying]
      | true =>
        have same : retryPinsReady (if a.retrying = true then e else
            notifyWaiters { e.modifyFetch claim
                (fun a => { a with published := 0, retrying := true }) with
              bitmap := e.bitmap.fill (claim.offset / kCacheBitmapUnit)
                (e.claimEndPage (claim.offset + claim.length)) .readPending })
            claim.offset claim.length = e.retryPinsReady claim.offset claim.length := by
          split
          · rfl
          · apply retryPinsReady_congr
            · rfl
            · rfl
            · apply verificationPins_congr
              · rfl
              · rfl
              · exact spans_modifyFirst (by intro a; rfl) _
              all_goals rfl
        simp [same, verifying]

lemma checksumRetry_waits_iff {claim} :
    Condition.holds e (.checksumRetry claim) = false ↔
      ∃ state, e.checksumStates[claim.part]? = some state ∧ state.inProgress = true ∧
        e.stale = false ∧ claim.epoch = e.epoch ∧
        e.retryPinsReady claim.offset claim.size = false := by
  rw [Condition.holds, beginChecksumRetry]
  cases found : e.checksumStates[claim.part]? with
  | none => simp
  | some state =>
    by_cases refused : e.stale = true ∨ claim.epoch ≠ e.epoch ∨ state.inProgress = false
    · simp only [if_pos refused, Bool.true_eq_false, false_iff, not_exists, not_and]
      rintro other same busy live epoch
      cases same
      rw [live, epoch, busy] at refused
      simp at refused
    · simp only [if_neg refused]
      simp only [not_or, Bool.not_eq_true, not_not, Bool.not_eq_false] at refused
      obtain ⟨live, epoch, busy⟩ := refused
      have same : retryPinsReady (if state = .verifying then
          notifyWaiters
            { e with checksumStates := e.checksumStates.set claim.part .retrying } else e)
          claim.offset claim.size = e.retryPinsReady claim.offset claim.size := by
        split
        · have states : (e.checksumStates.set claim.part .retrying).map PartState.inProgress =
              e.checksumStates.map PartState.inProgress := by
            refine map_set.trans (Sums.set_of_getElem? ?_)
            rw [getElem?_map, found]
            exact congrArg some busy
          apply retryPinsReady_congr
          · rfl
          · rfl
          · apply verificationPins_congr
            · rfl
            · rfl
            · rfl
            · rfl
            · exact states
        · rfl
      rw [same]
      refine ⟨fun waits => ⟨state, rfl, busy, live, epoch, waits⟩, ?_⟩
      rintro ⟨_, -, -, -, -, waits⟩
      exact waits

lemma Harder.waits (h : Harder e e') {c : Condition} (inside : c.inside e = true)
    (waits : c.holds e = false) : c.holds e' = false := by
  cases c with
  | range offset length => exact h.range (of_decide_eq_true inside) waits
  | unblocked offset length =>
    have same := h.checksumBlocked (of_decide_eq_true inside)
    rw [Condition.holds] at waits ⊢
    rw [same]
    exact waits
  | checksum => exact h.checksum waits
  | manifest =>
    rw [Condition.holds, Bool.or_eq_false_iff, bne_eq_false_iff_eq] at waits ⊢
    exact ⟨h.stale.trans waits.1, h.loading waits.2⟩
  | retry claim =>
    obtain ⟨a, found, live, verifying, pins⟩ := retry_waits_iff.1 waits
    obtain ⟨a', found', verifying'⟩ := h.verifying claim a found verifying
    exact retry_waits_iff.2 ⟨a', found', h.stale.trans live, verifying', h.retryPinsReady pins⟩
  | checksumRetry claim =>
    obtain ⟨state, found, busy, live, epoch, pins⟩ := checksumRetry_waits_iff.1 waits
    exact checksumRetry_waits_iff.2 ⟨state, h.inProgress found busy, busy, h.stale.trans live,
      epoch.trans h.epoch.symm, h.retryPinsReady pins⟩
  | quiescent =>
    rw [← Bool.not_eq_true, Condition.holds, quiescent] at waits ⊢
    simp only [Bool.and_eq_true, List.isEmpty_iff, beq_iff_eq] at waits ⊢
    rintro ⟨⟨claims, ops⟩, pinned⟩
    refine waits ⟨⟨?_, ?_⟩, ?_⟩
    · by_contra busy
      exact h.busy busy claims
    · have := h.ops
      omega
    · have := h.pinned
      omega

/-! ### Calls -/

inductive Signals (e e' : CacheEntry) : Prop where
  | notified (size : e.size ≤ e'.size) (waiters : e'.waiters = e.waiters)
    (tokens : e.waitTokens + e.waiters ≤ e'.waitTokens)
  | quiet (waiters : e'.waiters = e.waiters) (tokens : e'.waitTokens = e.waitTokens)
    (harder : Harder e e')

lemma Signals.unread {nextClaimId evictionDisabled detached dirty exported} :
    Signals e { e with
      referenced, nextClaimId, clockHand, evictionDisabled, detached, dirty, exported } :=
  .quiet rfl rfl .unread

lemma Signals.refl (e : CacheEntry) : Signals e e := .unread

lemma Signals.notifyWaiters (size : e'.size = e.size) (waiters : e'.waiters = e.waiters)
    (tokens : e'.waitTokens = e.waitTokens) : Signals e e'.notifyWaiters := by
  refine .notified (Nat.le_of_eq size.symm) waiters ?_
  rw [CacheEntry.notifyWaiters, waiters, tokens]

lemma claimFetch_signals (size_le : e.size ≤ uint64Max) {expansion}
    (h : e.claimFetch offset length expansion = .ok (e', some claim)) : Signals e e' := by
  obtain ⟨a, -, claimed⟩ := claimFetch_some size_le h
  have idle : a.verifying = false := claimed.fresh.2.1
  have eq := claimed.eq
  subst eq
  refine .quiet rfl rfl { Harder.refl e with
    pages := fun page _ => ?_
    excess := fun r => ?_
    verifying := fun claim b found verifying => ⟨b, ?_, verifying⟩
    busy := fun _ => ?_ }
  · dsimp only [mapRegions]
    split
    · exact .inr (.inl rfl)
    · exact .inl rfl
  · refine Nat.add_le_add_left (Nat.le_of_eq ?_) _
    -- a fetch that is not verified yet does not count
    have new (p : ActiveFetch → Bool) (no : p a = false) :
        (e.activeClaims ++ [a]).countP p = e.activeClaims.countP p := by
      rw [countP_append, countP_singleton, no]
      rfl
    refine congrArg (_ + ·) (new _ ?_)
    rw [idle]
    rfl
  · exact find?_append.trans (by rw [show e.activeClaims.find? _ = some b from found]; rfl)
  · exact append_ne_nil_of_right_ne_nil _ (cons_ne_nil _ _)

lemma findFetch_modifyFetch {c f} (same : ∀ a, (f a).isFor c = a.isFor c)
    (keeps : ∀ a, a.verifying = true → (f a).verifying = true) {a} (found : e.findFetch c = some a)
    (verifying : a.verifying = true) :
    ∃ a', (e.modifyFetch claim f).findFetch c = some a' ∧ a'.verifying = true := by
  obtain ⟨b, eq, rfl | rfl⟩ :=
    find?_modifyFirst_of_same (p := ActiveFetch.isFor claim) same found
  · exact ⟨b, eq, verifying⟩
  · exact ⟨_, eq, keeps a verifying⟩

lemma modifyFirst_ne_nil {p f}
    {as : List ActiveFetch} (busy : as ≠ []) : modifyFirst p f as ≠ [] := by
  cases as with
  | nil => exact absurd rfl busy
  | cons a as =>
    rw [modifyFirst]
    split
    all_goals exact cons_ne_nil _ _

lemma replacePending_settled {blocks new} (settled : blocks.any e.blockPending = false) :
    e.replacePending blocks e.bitmap new = e.bitmap := by
  induction blocks with
  | nil => rfl
  | cons block blocks ih =>
    rw [any_cons, Bool.or_eq_false_iff] at settled
    have same : e.bitmap.replace (e.blockFirstPage block) (e.blockLastPage block) .readPending new =
        e.bitmap := by
      funext page
      rw [Bitmap.replace_apply]
      split
      · rename_i inBlock
        refine if_neg fun pending => ?_
        have found : e.blockPending block = true :=
          Bitmap.anyState_iff.2 ⟨page, inBlock.1, inBlock.2, pending⟩
        rw [settled.1] at found
        cases found
      · rfl
    rw [replacePending, foldl_cons, same]
    exact ih settled.2

lemma publishClean_signals (claim : CacheFetchClaim) (published length : Nat) (final : Bool) :
    Signals e (e.publishClean claim published length final) := by
  unfold publishClean
  split
  · exact .refl e
  split
  · exact .refl e
  dsimp only
  cases pending : (e.publishedBlocks ‹_› length final).any e.blockPending with
  | true => exact .notifyWaiters rfl rfl rfl
  | false =>
    refine .quiet rfl rfl { Harder.refl e with
      pages := fun page _ => .inl ?_
      excess := fun r => Nat.add_le_add_left (Nat.le_of_eq ?_) _
      verifying := fun c a found verifying => ?_
      busy := fun busy => modifyFirst_ne_nil busy }
    · exact congrFun (replacePending_settled pending) page
    · apply verificationPins_congr
      · rfl
      · rfl
      · exact spans_modifyFirst (by intro a; rfl) _
      all_goals rfl
    · exact findFetch_modifyFetch (by intro a; rfl) (by intro a h; exact h) found verifying

lemma endFetch_tokens (claim : CacheFetchClaim) :
    (e.endFetch claim).size = e.size ∧ (e.endFetch claim).waiters = e.waiters ∧
      (e.endFetch claim).waitTokens = e.waitTokens := by
  unfold endFetch
  split
  · exact ⟨rfl, rfl, rfl⟩
  split
  all_goals exact ⟨rfl, rfl, rfl⟩

lemma finishFetch_notifies (claim : CacheFetchClaim) :
    (e.finishFetch claim).1.size = e.size ∧ (e.finishFetch claim).1.waiters = e.waiters ∧
      (e.finishFetch claim).1.waitTokens = e.waitTokens + e.waiters := by
  unfold finishFetch
  split
  · exact ⟨rfl, rfl, rfl⟩
  · obtain ⟨size, waiters, tokens⟩ := endFetch_tokens (e := { e with
      bitmap := e.replacePending (e.tailBlocks ‹_›) e.bitmap .missing }) claim
    refine ⟨size, waiters, ?_⟩
    change _ + _ = _
    rw [waiters, tokens]

lemma rollbackFetch_signals (claim : CacheFetchClaim) : Signals e (e.rollbackFetch claim) := by
  unfold rollbackFetch
  split
  · exact .refl e
  · obtain ⟨size, waiters, tokens⟩ := endFetch_tokens (e := { e with bitmap := _ }) claim
    exact .notifyWaiters size waiters tokens

lemma markBad_signals (claim : CacheFetchClaim) : Signals e (e.markBad claim) := by
  unfold markBad
  split
  · exact .notifyWaiters rfl rfl rfl
  split
  all_goals exact .notifyWaiters rfl rfl rfl

lemma Signals.then_notified {e''} (h : Signals e e') (size : e''.size = e'.size)
    (waiters : e''.waiters = e'.waiters) (tokens : e''.waitTokens = e'.waitTokens + e'.waiters) :
    Signals e e'' := by
  cases h with
  | notified grows same enough =>
    exact .notified (grows.trans (Nat.le_of_eq size.symm)) (waiters.trans same) (by omega)
  | quiet same equal harder =>
    exact .notified (harder.size.trans (Nat.le_of_eq size.symm)) (waiters.trans same) (by omega)

lemma finishRetry_signals (claim : CacheFetchClaim) (valid : Bool) :
    Signals e (e.finishRetry claim valid).1 := by
  have verdict : Signals e
      (if valid then e.publishClean claim 0 claim.length true else e.markBad claim) := by
    cases valid with
    | true => exact publishClean_signals _ _ _ _
    | false => exact markBad_signals _
  obtain ⟨size, waiters, tokens⟩ := finishFetch_notifies
    (e := if valid then e.publishClean claim 0 claim.length true else e.markBad claim) claim
  exact verdict.then_notified size waiters tokens

lemma Harder.pinRegions (first last : Nat) :
    Harder e { e.pinRegions first last with referenced } := by
  have more (r : Nat) : e.regionPins r ≤ (e.pinRegions first last).regionPins r := by
    rw [pinRegions_regionPins]
    exact Nat.le_add_right _ _
  exact { Harder.refl e with
    pins := more
    excess := fun r => Nat.add_le_add_right (more r) _
    pinned := Nat.le_add_right _ _ }

lemma excess_le {pins count count' more pinned : Nat} (allowed : count' ≤ count + more)
    (taken : more ≤ pinned) : pins + count' ≤ pins + pinned + count := by
  omega

lemma verifyingCount_modify {a r} (found : e.findFetch claim = some a)
    (idle : a.verifying = false) (pos : 0 < a.length) :
    (modifyFirst (ActiveFetch.isFor claim) (fun a => { a with verifying := true })
        e.activeClaims).countP (fun fetch => fetch.verifying &&
          decide (fetch.offset < min e.size (r * e.blockSize + e.blockSize)) &&
          decide (r * e.blockSize < fetch.offset + fetch.length)) ≤
      e.activeClaims.countP (fun fetch => fetch.verifying &&
          decide (fetch.offset < min e.size (r * e.blockSize + e.blockSize)) &&
          decide (r * e.blockSize < fetch.offset + fetch.length)) +
        if a.offset / e.blockSize ≤ r ∧
          r < (a.offset + a.length - 1) / e.blockSize + 1 then 1 else 0 := by
  rw [(modifyFirst_perm found).countP_eq, (perm_of_find? found).countP_eq, countP_cons,
    countP_cons, idle]
  refine Nat.add_le_add_left ?_ _
  split
  · rename_i meets
    simp only [Bool.true_and, Bool.and_eq_true, decide_eq_true_eq] at meets
    rw [if_pos ((mem_spanRegions pos r).2 ⟨pos, by omega, meets.2⟩)]
  · exact Nat.zero_le _

lemma pinFetchVerification_signals {pinned} (claims : ∀ a ∈ e.activeClaims, 0 < a.length)
    (h : e.pinFetchVerification claim = .ok (e', pinned)) : Signals e e' := by
  unfold pinFetchVerification at h
  split at h
  · cases h
    exact .refl e
  rename_i a found
  split at h
  · cases h
    exact .refl e
  split at h
  · cases h
    exact .refl e
  rename_i idle
  split at h
  · cases h
    exact .refl e
  split at h
  · cases h
    exact .refl e
  dsimp only at h
  split at h
  · cases h
  cases h
  obtain ⟨mem, -, -, offset, length⟩ := findFetch_fields found
  have pos := claims a mem
  have pins (r : Nat) := pinRegions_regionPins (e := e)
    (claim.offset / e.blockSize)
    ((claim.offset + claim.length - 1) / e.blockSize + 1) r
  refine .quiet rfl rfl { Harder.refl e with
    pins := fun r => ?_
    excess := fun r => ?_
    pinned := Nat.le_add_right _ _
    verifying := fun c b found verifying => ?_
    busy := fun busy => modifyFirst_ne_nil busy }
  · change _ ≤ (e.pinRegions _ _).regionPins r
    rw [pins]
    exact Nat.le_add_right _ _
  · -- the new pin of a region is the one that the fetch is now allowed there
    have more := verifyingCount_modify (r := r) found (by simpa using idle) pos
    change _ + (_ + _) ≤ (e.pinRegions _ _).regionPins r + (_ + _)
    rw [pins, ← offset, ← length]
    exact excess_le ((Nat.add_le_add_left more _).trans (Nat.le_of_eq (Nat.add_assoc ..).symm))
      (Nat.le_refl _)
  · exact findFetch_modifyFetch (e := e.pinRegions _ _) (by intro a; rfl) (by intro a _; rfl) found
      verifying

lemma beginRetry_signals {ready} (h : e.beginRetry claim = .ok (e', ready)) : Signals e e' := by
  unfold beginRetry at h
  split at h
  · cases h
  split at h
  · cases h
  split at h
  · cases h
  cases h
  split
  · exact .refl e
  · exact .notifyWaiters rfl rfl rfl

lemma unpinRegions_free {first last}
    (free : (range' first (last - first)).any (fun r => e.regionPins r != 0) = false) :
    e.unpinRegions first last = e := by
  have none (r : Nat) (lo : first ≤ r) (hi : r < last) : e.regionPins r = 0 := by
    have := any_eq_false.1 free r (mem_range'_iff.2 ⟨lo, hi⟩)
    simpa using this
  have pins : (e.unpinRegions first last).regionPins = e.regionPins := by
    funext r
    rw [unpinRegions_regionPins]
    split
    · rename_i inRange
      rw [none r inRange.1 inRange.2]
    · exact Nat.sub_zero _
  have count : (range' first (last - first)).countP (fun r => e.regionPins r != 0) = 0 :=
    countP_eq_zero.2 fun r mem => any_eq_false.1 free r mem
  change { e with regionPins := (e.unpinRegions first last).regionPins, pinnedRegions := _ } = e
  rw [pins, count]
  rfl

lemma unpin_signals (offset length : Nat) : Signals e (e.unpin offset length) := by
  unfold unpin
  split
  · exact .refl e
  dsimp only
  cases released : (range' (offset / e.blockSize)
      (e.lastRegion (offset + length) - offset / e.blockSize)).any
        (fun r => e.regionPins r != 0) with
  | true => exact .notifyWaiters rfl rfl rfl
  | false =>
    rw [unpinRegions_free released]
    exact .unread

lemma pinClean_signals (h : e.pinClean offset length = .ok (e', true)) : Signals e e' := by
  obtain ⟨-, ⟨-, rfl⟩ | ⟨-, -, -, referenced, rfl⟩⟩ := pinClean_true h
  · exact .refl _
  · exact .quiet rfl rfl (.pinRegions _ _)

lemma pin_signals (h : e.pin offset length = .ok e') : Signals e e' := by
  unfold pin at h
  split at h
  · cases h
  split at h
  · cases h
    exact .refl _
  dsimp only at h
  split at h
  · cases h
  · cases h
    exact .quiet rfl rfl (.pinRegions _ _)

lemma Harder.manifest (unknown : e.checksumManifest = .unknown) {manifest} {ops}
    (more : e.checksumOps ≤ ops) :
    Harder e { e with checksumManifest := manifest, checksumOps := ops } :=
  { Harder.refl e with
    ops := more
    loading := by rw [unknown]; exact nofun
    available := by rw [unknown]; exact nofun }

lemma beginChecksumManifest_signals {loader}
    (h : e.beginChecksumManifest = .ok (e', loader)) : Signals e e' := by
  unfold beginChecksumManifest at h
  split at h
  · cases h
    exact .refl _
  split at h
  · cases h
  split at h
  · cases h
    split
    · exact .quiet rfl rfl (.manifest ‹_› (Nat.le_refl _))
    · exact .refl _
  split at h
  · cases h
    exact .refl _
  rename_i unknown
  split at h
  · cases h
    exact .refl _
  · cases h
    exact .quiet rfl rfl (.manifest (not_not.1 unknown) (Nat.le_succ _))

lemma follows_set (found : states[i]? = some .unverified) :
    List.Forall₂ PartState.Follows states (states.set i .verifying) := by
  induction states generalizing i with
  | nil => cases found
  | cons state states ih =>
    cases i with
    | zero =>
      cases found
      exact .cons (.inr ⟨rfl, rfl⟩) (follows_refl _)
    | succ i => exact .cons (.refl _) (ih found)

lemma partCount_set {part} (hp : parts[i]? = some part)
    (hs : states[i]? = some .unverified) (P Q : CacheChecksumPart → Bool) :
    (parts.zip (states.set i .verifying)).countP (fun (part, state) =>
        state.inProgress && P part && Q part) ≤
      (parts.zip states).countP (fun (part, state) => state.inProgress && P part && Q part) +
        if P part && Q part then 1 else 0 := by
  induction parts generalizing states i with
  | nil => cases hp
  | cons p parts ih =>
    cases states with
    | nil => cases hs
    | cons state states =>
      cases i with
      | zero =>
        cases hp
        cases hs
        rw [set_cons_zero, zip_cons_cons, zip_cons_cons, countP_cons, countP_cons]
        exact Nat.le_refl _
      | succ i =>
        have rest := ih hp hs
        rw [set_cons_succ, zip_cons_cons, zip_cons_cons, countP_cons, countP_cons]
        omega

lemma claimChecksum_signals (tiled : Tiled e.size e.checksumParts) {skip}
    {claim} (h : e.claimChecksum offset length skip = .ok (e', claim))
    (verify : claim.action = .verify) : Signals e e' := by
  obtain ⟨-, -, -, i, part, hp, hs, -, -, rfl⟩ := claimChecksum_verify h verify
  have mem := mem_of_getElem? hp
  have pos := tiled.pos part mem
  have pins (r : Nat) := pinRegions_regionPins (e := e)
    (part.offset / e.blockSize) (e.lastRegion (part.offset + part.size)) r
  refine .quiet rfl rfl { Harder.refl e with
    pins := fun r => ?_
    excess := fun r => ?_
    pinned := Nat.le_add_right _ _
    ops := Nat.le_succ _
    states := follows_set hs }
  · change _ ≤ (e.pinRegions _ _).regionPins r
    rw [pins]
    exact Nat.le_add_right _ _
  · -- the new pin of a region is the one that the part is now allowed there
    have more := partCount_set hp hs
      (fun part => decide (part.offset < min e.size (r * e.blockSize + e.blockSize)))
      (fun part => decide (r * e.blockSize < part.offset + part.size))
    have allowed : (if decide (part.offset < min e.size
          (r * e.blockSize + e.blockSize)) &&
          decide (r * e.blockSize < part.offset + part.size) then 1 else 0) ≤
        if part.offset / e.blockSize ≤ r ∧ r < e.lastRegion (part.offset + part.size) then 1
          else 0 := by
      split
      · rename_i meets
        simp only [Bool.and_eq_true, decide_eq_true_eq] at meets
        rw [if_pos ((mem_regions pos (tiled.inside part mem)).2
          ⟨pos, by omega, meets.2⟩)]
      · exact Nat.zero_le _
    rw [pins]
    exact excess_le ((Nat.add_le_add_right more _).trans (Nat.le_of_eq (Nat.add_right_comm ..)))
      allowed

lemma beginChecksumRetry_signals {claim ready}
    (h : e.beginChecksumRetry claim = .ok (e', ready)) : Signals e e' := by
  unfold beginChecksumRetry at h
  split at h
  · cases h
  split at h
  · cases h
  cases h
  split
  · exact .notifyWaiters rfl rfl rfl
  · exact .refl e

lemma checksumMismatch_signals (claim : CacheChecksumClaim) :
    Signals e (e.checksumMismatch claim) := by
  unfold checksumMismatch
  split
  all_goals exact .notifyWaiters rfl rfl rfl

lemma finishChecksum_signals (claim : CacheChecksumClaim) (valid : Bool) :
    Signals e (e.finishChecksum claim valid) := by
  unfold finishChecksum
  split
  · exact .refl e
  split
  · exact .refl e
  · exact .notifyWaiters rfl rfl rfl

lemma abandonChecksum_signals (claim : CacheChecksumClaim) :
    Signals e (e.abandonChecksum claim) := by
  unfold abandonChecksum
  split
  · exact .refl e
  split
  · exact .refl e
  · exact .notifyWaiters rfl rfl rfl

lemma Harder.dropped {bitmap}
    (pages : ∀ page < e.pageCount, bitmap page = e.bitmap page ∨ bitmap page = .readPending ∨
      e.bitmap page = .clean ∧ bitmap page = .missing) :
    Harder e { e with bitmap, referenced, clockHand } :=
  { Harder.refl e with pages := pages }

lemma mem_cleanPages_clean {r page} (mem : page ∈ e.cleanPages r) : e.bitmap page = .clean := by
  have clean := (mem_filter.1 mem).2
  exact eq_of_beq clean

lemma evictOneRegion_signals (io : EvictIo) : Signals e (e.evictOneRegion io).1 := by
  obtain ⟨referenced, clockHand, scanned, -⟩ := clockScan_spec (e := e) e.regionCount
  unfold evictOneRegion
  split
  · exact .refl e
  split
  · rename_i scan
    rw [scan] at scanned
    rw [scanned]
    exact .unread
  rename_i e₁ region scan
  rw [scan] at scanned
  subst scanned
  split
  · exact .unread
  split
  · refine .quiet rfl rfl (.dropped fun page _ => .inl ?_)
    rw [setPages_apply, setPages_apply]
    split
    · rename_i mem
      exact (mem_cleanPages_clean mem).symm
    · rfl
  cases stat : io.statAfter with
  | true => exact .notifyWaiters rfl rfl rfl
  | false =>
    refine .quiet rfl rfl (.dropped fun page _ => ?_)
    dsimp only
    rw [setPages_apply]
    split
    · rename_i mem
      exact .inr (.inr ⟨mem_cleanPages_clean mem, rfl⟩)
    · exact .inl rfl

lemma claimLiveRegion_signals : Signals e e.claimLiveRegion.1 := by
  obtain ⟨referenced, clockHand, scanned, -⟩ := clockScan_spec (e := e) e.regionCount
  unfold claimLiveRegion
  split
  · exact .refl e
  split
  · rename_i scan
    rw [scan] at scanned
    rw [scanned]
    exact .unread
  rename_i e₁ region scan
  rw [scan] at scanned
  subst scanned
  refine .quiet rfl rfl (.dropped fun page _ => ?_)
  rw [setPages_apply]
  split
  · exact .inr (.inl rfl)
  · exact .inl rfl

lemma finishClaim_signals {ev punched} (h : e.finishClaim ev punched = some e') : Signals e e' := by
  obtain ⟨bitmap, -, rfl⟩ := Option.map_eq_some_iff.1 h
  exact .notifyWaiters rfl rfl rfl

lemma retireGeneration_signals : Signals e e.retireGeneration.1 := by
  unfold retireGeneration
  split
  · exact .refl e
  · exact .notifyWaiters rfl rfl rfl

lemma tryExport_signals (verify : Bool) : Signals e (e.tryExport verify).1 := by
  unfold tryExport
  split
  · exact .refl e
  split
  · exact .refl e
  · exact .unread

lemma detach_signals (preserve : Bool) : Signals e (e.detach preserve) := by
  unfold detach
  split
  · exact .unread
  · exact .notifyWaiters rfl rfl rfl

lemma overlaps_grown {size size'} (grows : size ≤ size') (pos : 0 < length)
    (inside : offset + length ≤ size) (busy : Bool) (start stop : Nat) :
    (busy && decide (offset < min size' stop) && decide (start < offset + length)) = true ↔
      (busy && decide (offset < min size stop) && decide (start < offset + length)) = true := by
  have same : offset < min size' stop ↔ offset < min size stop := by omega
  rw [decide_eq_decide.2 same]

lemma publishDirty_signals {s} (acc : Accounted s) {writtenEnd}
    (clean : ∀ page < s.pageCount, offset / kCacheBitmapUnit ≤ page → s.bitmap page = .clean)
    (h : s.publishDirty offset length writtenEnd = .ok e') : Signals s.entry e' := by
  unfold publishDirty at h
  split at h
  · cases h
  split at h
  · cases h
  cases h
  have grows : s.size ≤ writtenEnd := acc.grows ‹_› ‹_›
  have pins (r : Nat) : (if r < s.regionCount then s.regionPins r else 0) =
      s.regionPins r := by
    split
    · rfl
    · rename_i beyond
      rw [acc.counted.count, acc.holders_beyond beyond]
  refine .quiet rfl rfl ⟨rfl, grows, rfl, rfl, fun page count => .inl ?_, fun r => ?_, fun r => ?_,
    Nat.le_refl _, Nat.le_refl _, fun _ a found verifying => ⟨a, found, verifying⟩, id, id, id, rfl,
    follows_refl _⟩
  · dsimp only
    rw [Bitmap.fill_apply]
    split
    · rename_i overwritten
      exact (clean page count overwritten.1).symm
    · rfl
  · exact Nat.le_of_eq (pins r).symm
  · dsimp only
    rw [pins]
    refine Nat.add_le_add_left (Nat.le_of_eq ?_) _
    refine congrArg₂ (· + ·) (countP_congr fun p mem => ?_) (countP_congr fun a mem => ?_)
    · have listed := (of_mem_zip (a := p.1) (b := p.2) mem).1
      exact overlaps_grown grows (acc.parts.tiled.pos p.1 listed)
        (acc.parts.tiled.inside p.1 listed) p.2.inProgress _ _
    · obtain ⟨pos, inside⟩ := acc.claims a mem
      exact overlaps_grown grows pos inside a.verifying _ _

end

end Ngs3fs.Cache
