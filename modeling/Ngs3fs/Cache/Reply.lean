import Ngs3fs.Cache.Fence
import Mathlib.Data.List.TakeWhile

/-!
# Replies and the bytes they read

A reply reads its pinned range straight from the data file. Who writes or punches there asks for
different things first: an eviction for a region without pins, a new fetch for blocks without pins,
a retry for pins that are all verifications' own (`retryPinsReady`). Together they keep every
writer out of a pinned range, as long as no retry is given up before its wait for the replies is
over. A retry takes its pages back when it starts waiting, so ending it then punches blocks that
replies still read. -/

namespace Ngs3fs.Cache
open Loop CacheEntry Machine List Function

def Pinned (p : Nat × Nat) (i : Nat) : Prop := p.1 ≤ i ∧ i < p.1 + p.2

instance (p : Nat × Nat) (i : Nat) : Decidable (Pinned p i) := inferInstanceAs (Decidable (_ ∧ _))

/-- No fetch ends while its retry still waits, unless the verdict settles its pages, which a stale
entry no longer does. -/
def RetrySettled (s : Sys) : Action → Prop
  | .finishFetch claim _ => ∀ a, s.findFetch claim = some a → a.retrying = true →
    s.retryReady a.id = true
  | .failFetch claim _ => ∀ a, s.findFetch claim = some a → a.retrying = true →
    s.retryReady a.id = true
  | .finishRetry claim _ _ => ∀ a, s.findFetch claim = some a → a.retrying = true →
    s.retryReady a.id = true ∨ s.stale = false
  | _ => True

/-- A retry has no reply in its tail once it has finished waiting, and the verifier of a part none
in its part. -/
structure ReplyInv (s : Sys) : Prop where
  retry : ∀ a ∈ s.activeClaims, a.retrying = true → s.retryReady a.id = true → ∀ r,
    a.tailHas s.blockSize r = true →
    ∀ p ∈ s.pins, ¬ Meets s.blockSize p.1 p.2 r
  part : ∀ c ∈ s.checks, s.partReady c.part = true →
    s.checksumStates[c.part]? = some .retrying ∧
    ∀ p ∈ s.pins, ∀ i, Pinned p i → ¬ (c.offset ≤ i ∧ i < c.offset + c.size)

section
variable {s : Sys}

lemma Pinned.meets (config : CacheConfig) {p i} (h : Pinned p i) :
    Meets config.blockSize p.1 p.2 (i / config.blockSize) := config.meets_of_mem h.1 h.2

lemma replyPins_eq_zero {r} :
    s.replyPins r = 0 ↔ ∀ p ∈ s.pins, ¬ Meets s.blockSize p.1 p.2 r := by
  rw [Sys.replyPins, countP_eq_zero]
  simp only [decide_eq_true_eq]

lemma verificationPins_le (inv : Inv s) (r : Nat) :
    s.verificationPins r ≤ s.checkPins r + s.fetchPins r := by
  refine Nat.add_le_add ?_ ?_
  · -- every part in progress has its own verifier
    refine countP_le_of_index CacheChecksumClaim.part ?_
    rintro i ⟨part, state⟩ hi matched
    rw [getElem?_zip_eq_some] at hi
    simp only [Bool.and_eq_true, decide_eq_true_eq] at matched
    obtain ⟨c, hc, rfl⟩ := inv.parts.busy i state hi.2 matched.1.1
    obtain ⟨part', hp, ho, hs⟩ := (inv.parts.checks c hc).part
    obtain rfl := Option.some.inj (hp.symm.trans hi.1)
    refine ⟨c, hc, ?_, rfl⟩
    obtain ⟨pos, -⟩ := check_inside inv.parts hc
    rw [decide_eq_true_eq, Meets]
    omega
  · refine countP_mono_left ?_
    intro a ha matched
    simp only [Bool.and_eq_true, decide_eq_true_eq] at matched
    rw [Bool.and_eq_true, rangeHas_iff_meets (inv.claims.wf a ha), Meets]
    have := (inv.claims.wf a ha).length_pos
    exact ⟨matched.1.1, by omega⟩

lemma replies_done (inv : Inv s) {offset length}
    (ready : s.retryPinsReady offset length = true) {r}
    (meets : Meets s.blockSize offset length r) :
    ∀ p ∈ s.pins, ¬ Meets s.blockSize p.1 p.2 r := by
  rw [← replyPins_eq_zero]
  have granted : s.regionPins r ≤ s.verificationPins r := by
    simp only [retryPinsReady, all_eq_true, decide_eq_true_eq] at ready
    refine ready r ?_
    rw [mem_range'_iff]
    obtain ⟨pos, h1, h2⟩ := meets
    have lower : offset / s.blockSize < r + 1 := by
      rw [Nat.div_lt_iff_lt_mul s.block_pos, Nat.succ_mul]
      exact h1
    have upper : r ≤ (offset + length - 1) / s.blockSize := by
      rw [Nat.le_div_iff_mul_le s.block_pos]
      omega
    omega
  have count := inv.pins.count r
  have le := verificationPins_le inv r
  omega

end

section
variable {s s' : Sys} {a : ActiveFetch} {claim : CacheFetchClaim}

section
variable (reply : ReplyInv s)
include reply

lemma ReplyInv.keep (config : s'.config = s.config)
    (claims : ∀ a ∈ s'.activeClaims, a.retrying = true → s'.retryReady a.id = true →
      ∃ b ∈ s.activeClaims, b.retrying = true ∧ s.retryReady b.id = true ∧ ∀ r,
        a.tailHas s.blockSize r = true → b.tailHas s.blockSize r = true)
    (pins : ∀ p ∈ s'.pins, p ∈ s.pins)
    (checks : ∀ c ∈ s'.checks, s'.partReady c.part = true → c ∈ s.checks ∧
      s.partReady c.part = true ∧
      s'.checksumStates[c.part]? = s.checksumStates[c.part]?) : ReplyInv s' := by
  constructor
  · rw [config]
    intro a ha retrying ready r tail p hp
    obtain ⟨b, hb, h1, h2, h3⟩ := claims a ha retrying ready
    exact reply.retry b hb h1 h2 r (h3 r tail) p (pins p hp)
  · intro c hc ready
    obtain ⟨mem, old, state⟩ := checks c hc ready
    rw [state]
    obtain ⟨h1, h2⟩ := reply.part c mem old
    exact ⟨h1, fun p hp => h2 p (pins p hp)⟩

lemma ReplyInv.same (config : s'.config = s.config)
    (claims : ∀ a ∈ s'.activeClaims, a ∈ s.activeClaims)
    (ready : s'.retryReady = s.retryReady) (pins : ∀ p ∈ s'.pins, p ∈ s.pins)
    (checks : s'.checks = s.checks) (partReady : s'.partReady = s.partReady)
    (states : s'.checksumStates = s.checksumStates) : ReplyInv s' := by
  refine reply.keep config ?_ pins ?_
  · intro a ha retrying hr
    rw [ready] at hr
    exact ⟨a, claims a ha, retrying, hr, fun _ => id⟩
  · intro c hc hr
    rw [checks] at hc
    rw [partReady] at hr
    exact ⟨hc, hr, by rw [states]⟩

lemma ReplyInv.replace (f : ActiveFetch → ActiveFetch) (found : s.findFetch claim = some a)
    (same : (f a).retrying = a.retrying ∧ (f a).id = a.id)
    (tail : ∀ r, (f a).tailHas s.blockSize r = true →
      a.tailHas s.blockSize r = true) {bitmap regionPins pinnedRegions waitTokens} :
    ReplyInv (s.withEntry { s.entry with
      bitmap, regionPins, pinnedRegions, waitTokens
      activeClaims := modifyFirst (ActiveFetch.isFor claim) f s.activeClaims }) := by
  refine reply.keep rfl ?_ (fun _ => id) fun c hc hr => ⟨hc, hr, rfl⟩
  intro b hb retrying hr
  rcases mem_cons.1 ((modifyFirst_perm found).subset hb) with rfl | old
  · exact ⟨a, (findFetch_fields found).1, same.1 ▸ retrying, same.2 ▸ hr, tail⟩
  · exact ⟨b, mem_of_mem_eraseP old, retrying, hr, fun _ => id⟩

lemma ReplyInv.retryStart (inv : Inv s) {waitTokens written}
    (found : s.findFetch claim = some a)
    (inv' : Inv { s.withEntry (s.retried claim a waitTokens) with
      written
      retryReady := update s.retryReady a.id
        ((s.retried claim a waitTokens).retryPinsReady a.offset a.length) }) :
    ReplyInv { s.withEntry (s.retried claim a waitTokens) with
      written
      retryReady := update s.retryReady a.id
        ((s.retried claim a waitTokens).retryPinsReady a.offset a.length) } := by
  refine ⟨fun b hb retrying hr r tail => ?_, reply.part⟩
  dsimp only at hr
  rcases mem_cons.1 ((modifyFirst_perm found).subset hb) with rfl | old
  · rw [update_self] at hr
    refine replies_done inv' hr ((rangeHas_iff_meets (inv'.claims.wf _ hb)).1 ?_)
    exact ActiveFetch.rangeHas_of_tailHas tail
  · rw [update_of_ne (id_rest inv.claims (claims_perm found) old)] at hr
    exact reply.retry b (mem_of_mem_eraseP old) retrying hr r tail

lemma ReplyInv.retryAgain (inv : Inv s) (found : s.findFetch claim = some a) :
    ReplyInv { s.withEntry s.entry with
      retryReady := update s.retryReady a.id
        (s.retryReady a.id || s.retryPinsReady a.offset a.length) } := by
  refine ⟨fun b hb retrying hr r tail => ?_, reply.part⟩
  dsimp only at hr
  rcases mem_cons.1 ((claims_perm found).subset hb) with rfl | rest
  · rw [update_self, Bool.or_eq_true] at hr
    rcases hr with old | now
    · exact reply.retry b hb retrying old r tail
    · exact replies_done inv now ((rangeHas_iff_meets (inv.claims.wf b hb)).1
        (ActiveFetch.rangeHas_of_tailHas tail))
  · rw [update_of_ne (id_rest inv.claims (claims_perm found) rest)] at hr
    exact reply.retry b hb retrying hr r tail

lemma ReplyInv.pin (inv : Inv s) {offset length pinnedRegions referenced} {regionPins}
    (admitted : 0 < length → s.stale = false ∧ offset + length ≤ s.size ∧
      s.rangeAllState offset length .clean = true ∧
      s.checksumBlocked offset length = .unverified) :
    ReplyInv { s.withEntry { s.entry with referenced, regionPins, pinnedRegions } with
      pins := (offset, length) :: s.pins } := by
  constructor
  · intro a ha retrying hr r tail p hp
    rcases mem_cons.1 hp with rfl | hp
    · intro meets
      obtain ⟨-, inside, clean, -⟩ := admitted meets.1
      exact tail_not_clean inv.pages meets inside clean ha tail
    · exact reply.retry a ha retrying hr r tail p hp
  · intro c hc hr
    obtain ⟨state, apart⟩ := reply.part c hc hr
    refine ⟨state, ?_⟩
    intro p hp i pinned
    rcases mem_cons.1 hp with rfl | hp
    · have lo : offset ≤ i := pinned.1
      have hi : i < offset + length := pinned.2
      obtain ⟨live, inside, -, blocked⟩ := admitted (by omega)
      obtain ⟨part, hpart, ho, hs⟩ := (inv.parts.checks c hc).part
      have listed : (part, .retrying) ∈ s.checksumParts.zip s.checksumStates :=
        mem_of_getElem? (getElem?_zip_eq_some.2 ⟨hpart, state⟩)
      by_contra taken
      have blocks : s.Blocks offset length .retrying :=
        ⟨part, i, listed, lo, hi, by omega, by omega⟩
      obtain ⟨-, other⟩ | ⟨-, ⟨-, other⟩ | ⟨free, -⟩⟩ :=
        checksumBlocked_spec inv.parts.tiled live offset length
      · cases blocked.symm.trans other
      · cases blocked.symm.trans other
      · exact free blocks
    · exact apart p hp i pinned

lemma ReplyInv.retryPart (inv : Inv s) {c ready waitTokens}
    (mem : c ∈ s.checks) (agreed : ready = true → CacheEntry.retryPinsReady { s.entry with
      checksumStates := s.checksumStates.set c.part .retrying } c.offset c.size = true)
    (inv' : Inv { s.withEntry { s.entry with
        checksumStates := s.checksumStates.set c.part .retrying, waitTokens } with
      partReady := update s.partReady c.part (s.partReady c.part || ready) }) :
    ReplyInv { s.withEntry { s.entry with
        checksumStates := s.checksumStates.set c.part .retrying, waitTokens } with
      partReady := update s.partReady c.part (s.partReady c.part || ready) } := by
  refine ⟨reply.retry, fun c' hc' hr => ?_⟩
  dsimp only [Sys.withEntry] at hr ⊢
  by_cases same : c'.part = c.part
  · obtain rfl := check_unique inv.parts mem hc' same
    refine ⟨getElem?_set_self (inv.parts.part_lt mem), ?_⟩
    rw [update_self, Bool.or_eq_true] at hr
    rcases hr with old | now
    · exact (reply.part c' mem old).2
    · intro p hp i pinned inPart
      have meets := s.meets_of_mem inPart.1 inPart.2
      exact replies_done inv' (agreed now) meets p hp (pinned.meets _)
  · rw [getElem?_set_ne (Ne.symm same)]
    rw [update_of_ne same] at hr
    exact reply.part c' hc' hr

end

end

section
variable {s s' : Sys} {act : Action}

lemma ReplyInv.endPart (reply : ReplyInv s) (inv : Inv s) {claim} {new} (mem : claim ∈ s.checks)
    {bitmap regionPins} {pinnedRegions checksumOps waitTokens verifiedOver} :
    ReplyInv { s.withEntry { s.entry with
        bitmap, regionPins, pinnedRegions, checksumOps, waitTokens
        checksumStates := s.checksumStates.set claim.part new } with
      checks := s.checks.erase claim, verifiedOver } := by
  refine reply.keep rfl (fun a ha h1 h2 => ⟨a, ha, h1, h2, fun _ => id⟩) (fun _ => id) ?_
  intro c hc hr
  have distinct := (perm_cons_erase mem).map CacheChecksumClaim.part |>.nodup_iff.1
    inv.parts.distinct
  rw [map_cons, nodup_cons] at distinct
  have other : claim.part ≠ c.part := fun same =>
    distinct.1 (same ▸ mem_map_of_mem hc)
  exact ⟨mem_of_mem_erase hc, hr, getElem?_set_ne other⟩

lemma ReplyInv.effect (reply : ReplyInv s) (inv : Inv s) (h : Effect s act s') : ReplyInv s' := by
  have inv' := inv.effect h
  cases h with
  | idle h =>
    obtain ⟨⟨_, _, _, _, _, _, rfl⟩, -, -⟩ := h
    exact reply.same rfl (fun _ => id) rfl (fun _ => id) rfl rfl rfl
  | @claim offset length expansion e' a claimed =>
    obtain rfl := claimed.eq
    refine reply.keep rfl ?_ (fun _ => id) (fun c hc hr => ⟨hc, hr, rfl⟩)
    intro b hb retrying hr
    rcases mem_append.1 hb with old | new
    · have other : b.id ≠ a.id := by
        have := (inv.claims.wf b old).id_lt
        have := claimed.id_ge
        omega
      change update s.retryReady a.id false b.id = true at hr
      rw [update_of_ne other] at hr
      exact ⟨b, old, retrying, hr, fun _ => id⟩
    · rw [mem_singleton.1 new, claimed.fresh.2.2] at retrying
      cases retrying
  | write | bad | loadManifest | skipManifest | hash | writePart | evict | evictStart | evictPunch
  | evictFinish | truncate => exact reply.same rfl (fun _ => id) rfl (fun _ => id) rfl rfl rfl
  | @publish _ _ _ _ a q _ found lo =>
    refine reply.replace (fun a => { a with published := q }) found ⟨rfl, rfl⟩ ?_
    intro r tail
    rw [ActiveFetch.tailHas_iff] at tail ⊢
    exact ⟨le_trans (Nat.add_le_add_left lo _) tail.1, tail.2⟩
  | finish | rollback =>
    exact reply.same rfl (fun _ => mem_of_mem_eraseP) rfl (fun _ => id) rfl rfl rfl
  | verify found =>
    exact reply.replace (fun a => { a with verifying := true }) found ⟨rfl, rfl⟩ fun _ => id
  | retry found => exact reply.retryStart inv found inv'
  | retryAgain found => exact reply.retryAgain inv found
  | pin live pos inside clean blocked =>
    exact reply.pin inv fun _ => ⟨live, inside, clean, blocked⟩
  | pinNothing => exact reply.pin inv fun pos => absurd pos (Nat.lt_irrefl 0)
  | unpin | unpinNothing =>
    exact reply.same rfl (fun _ => id) rfl (fun _ => mem_of_mem_erase) rfl rfl rfl
  | installManifest loading | dropManifest loading =>
    have none := checks_eq_nil inv.parts (by rw [loading]; exact nofun)
    refine reply.keep rfl (fun a ha h1 h2 => ⟨a, ha, h1, h2, fun _ => id⟩) (fun _ => id) ?_
    change ∀ c ∈ s.checks, _
    rw [none]
    exact nofun
  | @check _ _ _ i part =>
    refine reply.keep rfl (fun a ha h1 h2 => ⟨a, ha, h1, h2, fun _ => id⟩) (fun _ => id) ?_
    intro c hc hr
    have other : c.part ≠ i := by
      intro same
      rw [same] at hr
      change update s.partReady i false i = true at hr
      rw [update_self] at hr
      cases hr
    change update s.partReady i false c.part = true at hr
    rw [update_of_ne other] at hr
    rcases mem_cons.1 hc with rfl | hc
    · exact absurd rfl other
    · exact ⟨hc, hr, getElem?_set_ne other.symm⟩
  | retryPart mem agreed => exact reply.retryPart inv mem agreed inv'
  | finishPart mem | abandonPart mem => exact reply.endPart inv mem

def RepliesKept (s : Sys) (ops : List FileOp) : Prop :=
  ∀ p ∈ s.pins, ∀ op ∈ ops, ∀ i, Pinned p i → ¬ op.Touches i

lemma tail_unread (inv : Inv s) (reply : ReplyInv s) {a}
    (ha : a ∈ s.activeClaims) (ready : a.retrying = true → s.retryReady a.id = true) {r}
    (tail : a.tailHas s.blockSize r = true) :
    ∀ p ∈ s.pins, ¬ Meets s.blockSize p.1 p.2 r := by
  cases verifying : a.verifying with
  | false =>
    have free := inv.pins.tail_free a ha verifying r tail
    have count := inv.pins.count r
    rw [← replyPins_eq_zero]
    omega
  | true =>
    rcases (inv.claims.wf a ha).verifying verifying with retrying | full
    · exact reply.retry a ha retrying (ready retrying) r tail
    · -- a fetch that only verifies has published everything
      rw [ActiveFetch.tailHas_iff] at tail
      omega

lemma punch_apart {r} (free : ∀ p ∈ s.pins, ¬ Meets s.blockSize p.1 p.2 r)
    {p} (hp : p ∈ s.pins) {i} (pinned : Pinned p i) :
    ¬ (FileOp.punch (r * s.blockSize) s.blockSize).Touches i := by
  intro touches
  have meets := pinned.meets s.config
  rw [s.div_eq_iff.2 touches] at meets
  exact free p hp meets

lemma unread_of_unpinned (inv : Inv s) {r} (h : s.regionPins r = 0) :
    ∀ p ∈ s.pins, ¬ Meets s.blockSize p.1 p.2 r := by
  have count := inv.pins.count r
  rw [← replyPins_eq_zero]
  omega

lemma no_reply_of_quiescent (inv : Inv s) (h : s.quiescent = true) {p}
    (hp : p ∈ s.pins) {i} : ¬ Pinned p i := by
  intro pinned
  have inside := inv.pins.inside p hp
  have region : i / s.blockSize < s.regionCount := by
    rw [lt_regionCount]
    have := pinned.2
    have := Nat.div_mul_le_self i s.blockSize
    omega
  have sum := inv.pins.sum
  simp only [quiescent, Bool.and_eq_true, beq_iff_eq] at h
  rw [h.2, eq_comm, Finset.sum_eq_zero_iff] at sum
  exact unread_of_unpinned inv (sum _ (Finset.mem_range.2 region)) p hp (pinned.meets _)

lemma effect_keeps_replies (inv : Inv s) (reply : ReplyInv s) (settled : RetrySettled s act)
    (h : Effect s act s') : RepliesKept s s'.ops := by
  cases h with
  | @write claim length content a found lo hi ready =>
    intro p hp op hop i pinned
    obtain rfl := mem_singleton.1 hop
    intro touches
    have ha := (findFetch_fields found).1
    have tail := (inv.claims.wf a ha).tailHas_of_inTail (i := i)
      ⟨by have := touches.1; omega, by have := touches.2; omega⟩
    exact tail_unread inv reply ha ready tail p hp (pinned.meets _)
  | @finish _ claim io a _ ops hact found punches =>
    intro p hp op hop i pinned
    obtain ⟨r, tail, -, rfl⟩ := punches op hop
    refine punch_apart (tail_unread inv reply (findFetch_fields found).1 ?_ tail) hp pinned
    rcases hact with rfl | rfl
    all_goals exact settled a found
  | writePart mem ready fits =>
    intro p hp op hop i pinned
    obtain rfl := mem_singleton.1 hop
    intro touches
    refine (reply.part _ mem ready).2 p hp i pinned ⟨?_, ?_⟩
    · have := touches.1; omega
    · have := touches.2; omega
  | evict _ inside evictable =>
    intro p hp op hop i pinned
    obtain rfl := mem_singleton.1 hop
    have unpinned := (evictable_iff (lt_regionCount.1 inside) evictable).1
    exact punch_apart (unread_of_unpinned inv unpinned) hp pinned
  | @evictPunch ev mem =>
    intro p hp op hop i pinned
    obtain rfl := mem_singleton.1 hop
    obtain ⟨r, ho, hl, -⟩ := (inv.pages.evict_wf ev mem).region
    rw [ho, hl]
    refine punch_apart (unread_of_unpinned inv (inv.pins.evict_free ev mem r ?_)) hp pinned
    unfold Eviction.holds
    rw [ho, beq_self_eq_true]
  | truncate _ quiescent =>
    intro p hp op hop i pinned
    exact absurd pinned (no_reply_of_quiescent inv quiescent hp)
  | _ => exact nofun

lemma finishFetch_punches {claim io}
    (h : Effect s (.finishFetch claim io) s') {op} (hop : op ∈ s'.ops) :
    ∃ a r, s.findFetch claim = some a ∧ a.tailHas s.blockSize r = true ∧
      s.blockPending (r * s.blockSize) = true := by
  cases h with
  | finish hact found punches =>
    obtain ⟨r, tail, pending, -⟩ := punches op hop
    rcases hact with h | h
    · cases h
      exact ⟨_, r, found, tail, pending⟩
    · cases h
  | _ => cases hop

lemma verdict_settles (inv : Inv s) {claim valid io} {a} (found : s.findFetch claim = some a)
    (retrying : a.retrying = true) (live : s.stale = false)
    (h : Effect (s.withEntry (retryVerdictEntry s.entry claim valid)) (.finishFetch claim io) s') :
    s'.ops = [] := by
  have ha := (findFetch_fields found).1
  have wf := inv.claims.wf a ha
  rw [eq_nil_iff_forall_not_mem]
  intro op hop
  obtain ⟨b, r, hb, tail, pending⟩ := finishFetch_punches h hop
  cases valid with
  | true =>
    -- everything is published, so the tail is empty
    obtain ⟨q, tokens, -, -, -, -, all, eq⟩ := publishClean_eq wf found 0 claim.length true
    have full := all live (Nat.zero_le _) rfl (le_of_eq (findFetch_fields found).2.2.2.2)
    change (s.publishClean claim 0 claim.length true).findFetch claim = some b at hb
    rw [eq] at hb
    have moved : some b = (s.findFetch claim).map fun a => { a with published := q } :=
      hb.symm.trans (find?_modifyFirst fun _ => rfl)
    rw [found, Option.map_some, Option.some.injEq] at moved
    rw [moved, ActiveFetch.tailHas_iff] at tail
    change a.offset + q ≤ _ ∧ _ < a.offset + a.length at tail
    omega
  | false =>
    -- every page of the range is bad
    obtain ⟨tokens, eq⟩ := markBad_eq wf found live
    have entry : (s.withEntry (retryVerdictEntry s.entry claim false)).entry = { s.entry with
        bitmap := s.mapRegions (a.owns s.blockSize) (fun _ _ => .bad)
        waitTokens := tokens } := eq
    rw [entry] at hb tail pending
    obtain rfl : a = b := Option.some.inj (found.symm.trans hb)
    have range : a.rangeHas s.blockSize r = true := ActiveFetch.rangeHas_of_tailHas tail
    have inside : r * s.blockSize < s.size := by
      have := wf.inside
      rw [ActiveFetch.rangeHas_iff] at range
      omega
    obtain ⟨page, h1, h2, state⟩ := Bitmap.anyState_iff.1 pending
    obtain ⟨hp, hb⟩ := (mem_blockPages (Dvd.intro_left r rfl) inside).1 ⟨h1, h2⟩
    rw [Nat.mul_div_cancel _ s.block_pos] at hb
    have own : a.owns s.blockSize (s.pageBlock page) = true := by
      rw [hb]
      exact (if_pos (wf.retrying retrying)).trans range
    change s.mapRegions (a.owns s.blockSize) (fun _ _ => .bad) page = _ at state
    rw [mapRegions, if_pos ⟨hp, own⟩] at state
    cases state

lemma step_keeps_replies (inv : Inv s) (reply : ReplyInv s) (settled : RetrySettled s act)
    (h : step s act = some s') : RepliesKept s s'.ops := by
  rcases step_effects inv h with h | ⟨claim, valid, io, t, rfl, rfl, verdict, mid, h⟩
  · exact effect_keeps_replies inv reply settled h
  · by_cases early : ∃ a, s.findFetch claim = some a ∧ a.retrying = true ∧
        s.retryReady a.id = false
    · obtain ⟨a, found, retrying, waiting⟩ := early
      have live : s.stale = false := by
        rcases settled a found retrying with h | h
        · rw [waiting] at h
          cases h
        · exact h
      rw [verdict_settles inv found retrying live h]
      exact nofun
    · suffices kept : RepliesKept (s.withEntry (retryVerdictEntry s.entry claim valid)) s'.ops from
        kept
      refine effect_keeps_replies mid (reply.effect inv verdict) ?_ h
      intro b hb retrying
      obtain ⟨q, eq⟩ := findFetch_retryVerdict inv claim valid
      obtain ⟨a, found, rfl⟩ := Option.map_eq_some_iff.1 (eq.symm.trans hb)
      by_contra waiting
      exact early ⟨a, found, retrying, Bool.eq_false_iff.2 waiting⟩

lemma reply_step (inv : Inv s) (reply : ReplyInv s) (h : step s act = some s') : ReplyInv s' := by
  rcases step_effects inv h with h | ⟨_, _, _, t, -, -, verdict, mid, h⟩
  · exact reply.effect inv h
  · exact (reply.effect inv verdict).effect mid h

/-- Whatever has happened before, a step that does not give up a waiting retry writes and punches no
byte between the `pin_clean` and the `unpin` of a reply. -/
theorem run_keeps_replies {acts : List Action} {t : Sys} (fresh : s.Fresh)
    (run : run step s acts = some s') (settled : RetrySettled s' act)
    (h : step s' act = some t) : RepliesKept s' t.ops := by
  have start : Inv s ∧ ReplyInv s := by
    refine ⟨fresh.inv, ?_, ?_⟩
    · rw [fresh.claims]
      exact nofun
    · rw [fresh.checks]
      exact nofun
  have stop : Inv s' ∧ ReplyInv s' := run_inv (I := fun s => Inv s ∧ ReplyInv s)
    (fun _ _ _ both h => ⟨inv_step both.1 h, reply_step both.1 both.2 h⟩) start run
  exact step_keeps_replies stop.1 stop.2 settled h

def replyDuringFetch : List Action :=
  [.claimFetch 0 1 0, .write ⟨0, 1, 1, 65536⟩ 65536 (fun _ => 7),
    .publishClean ⟨0, 1, 1, 65536⟩ 0 65536 true, .finishFetch ⟨0, 1, 1, 65536⟩ (fun _ => true),
    .pinClean 0 100, .claimFetch 65536 1 0]

theorem run_keeps_replies_fetch : ∃ s' t,
    run step (Sys.empty twoPages 100000) replyDuringFetch = some s' ∧
    step s' (.failFetch ⟨65536, 1, 2, 34464⟩ fun _ => true) = some t ∧ (0, 100) ∈ s'.pins ∧
    t.ops.isEmpty = false ∧ RepliesKept s' t.ops := by
  have fresh : (Sys.empty twoPages 100000).Fresh := Sys.empty_fresh (by decide)
  have ran : run step (Sys.empty twoPages 100000) replyDuringFetch = some _ :=
    run_final (by decide +kernel)
  refine ⟨_, _, ran, rfl, by decide +kernel, by decide +kernel,
    @run_keeps_replies _ _ (.failFetch ⟨65536, 1, 2, 34464⟩ fun _ => true) _ _ fresh ran ?_ rfl⟩
  change ∀ a ∈ CacheEntry.findFetch _ _, a.retrying = true → Sys.retryReady _ a.id = true
  decide +kernel

/-- The generation is retired before the reply ends. -/
def staleRetry : List Action :=
  [.claimFetch 0 1 0, .write ⟨0, 1, 1, 65536⟩ 65536 (fun _ => 7),
    .publishClean ⟨0, 1, 1, 65536⟩ 0 65536 true, .pinFetchVerification ⟨0, 1, 1, 65536⟩,
    .pinClean 0 100, .beginRetry ⟨0, 1, 1, 65536⟩, .retireGeneration]

theorem staleRetry_punches_reply : (Sys.empty twoPages 65536).Fresh ∧ ∃ s' t,
    run step (Sys.empty twoPages 65536) staleRetry = some s' ∧
    step s' (.finishFetch ⟨0, 1, 1, 65536⟩ fun _ => true) = some t ∧
    (0, 100) ∈ s'.pins ∧ (0, 100) ∈ t.pins ∧ Pinned (0, 100) 0 ∧ (∃ op ∈ t.ops, op.Touches 0) ∧
    s'.data 0 = 7 ∧ t.data 0 = 0 := by
  have ran : run step (Sys.empty twoPages 65536) staleRetry = some _ :=
    run_final (by decide +kernel)
  refine ⟨Sys.empty_fresh (by decide), _, _, ran, rfl, ?_⟩
  decide +kernel

end

end Ngs3fs.Cache
