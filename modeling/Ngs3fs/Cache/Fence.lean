import Ngs3fs.Cache.Keep

/-!
# Fencing of claims

Every fetch owns the unpublished tail of its range alone, and every pending page has one owner: the
tail of a fetch or an asynchronous eviction. A call with a claim whose fetch has ended finds
nothing to act on, whoever has claimed the range since. `Inv` decides ownership on whole blocks;
here it is read off for bytes and pages. Claim ids do not wrap. -/

namespace Ngs3fs.Cache
open CacheEntry Machine List

def ActiveFetch.inTail (a : ActiveFetch) (i : Nat) : Prop :=
  a.offset + a.published ≤ i ∧ i < a.offset + a.length

instance (a : ActiveFetch) (i : Nat) : Decidable (a.inTail i) :=
  inferInstanceAs (Decidable (_ ∧ _))

inductive Completes (claim : CacheFetchClaim) : Action → Prop where
  | publishClean published length final : Completes claim
      (.publishClean claim published length final)
  | finishFetch io : Completes claim (.finishFetch claim io)
  | failFetch io : Completes claim (.failFetch claim io)
  | rollbackFetch : Completes claim (.rollbackFetch claim)
  | markBad : Completes claim (.markBad claim)
  | finishRetry valid io : Completes claim (.finishRetry claim valid io)

/-- Fetches and evictions keep out of each other's pages, and ended claims keep out of everyone's.
-/
structure Fenced (s : Sys) : Prop where
  disjoint : s.activeClaims.Pairwise fun a b => ∀ i, ¬ (a.inTail i ∧ b.inTail i)
  aligned : ∀ a ∈ s.activeClaims,
    s.blockSize ∣ a.offset + a.published ∨ a.published = a.length
  owned : ∀ page < s.pageCount, s.bitmap page = .readPending →
    s.activeClaims.countP (fun a => decide (a.inTail (page * kCacheBitmapUnit))) +
      s.evictions.countP (fun ev => decide (page ∈ ev.cleanPages)) = 1
  ended : ∀ claim ∈ s.ended, ∀ act, Completes claim act →
    ∃ t, step s act = some t ∧ t.bitmap = s.bitmap ∧ t.data = s.data

section
variable {a : ActiveFetch}

lemma ActiveFetch.Wf.tail_aligned {e} (wf : a.Wf e) :
    e.blockSize ∣ a.offset + a.published ∨ a.published = a.length := by
  rcases wf.published_dvd with h | h
  · exact .inr h
  · exact .inl (Dvd.dvd.add wf.offset_dvd h)

lemma ActiveFetch.Wf.tailHas_of_inTail {e} (wf : a.Wf e) {i} (h : a.inTail i) :
    a.tailHas e.blockSize (i / e.blockSize) = true := by
  have lo := Nat.div_mul_le_self i e.blockSize
  rcases wf.tail_aligned with dvd | full
  · have start := (Nat.le_div_iff_mul_le e.block_pos).2 (Nat.div_mul_cancel dvd ▸ h.1)
    have := Nat.mul_le_mul_right e.blockSize start
    rw [Nat.div_mul_cancel dvd] at this
    rw [ActiveFetch.tailHas_iff]
    exact ⟨this, lt_of_le_of_lt lo h.2⟩
  · have := h.1
    have := h.2
    omega

lemma ActiveFetch.Wf.inTail_iff {e} (wf : a.Wf e) {page} (hp : page < e.pageCount) :
    a.inTail (page * kCacheBitmapUnit) ↔
      a.tailHas e.blockSize (e.pageBlock page) = true := by
  refine ⟨wf.tailHas_of_inTail, ?_⟩
  intro h
  rw [ActiveFetch.tailHas_iff] at h
  have bounds := e.pageBlock_bounds page
  have inside := lt_pageCount.1 hp
  refine ⟨le_trans h.1 bounds.1, ?_⟩
  rcases wf.stop with dvd | last
  · have next := add_le_of_dvd_of_lt (Dvd.intro_left _ rfl) dvd h.2
    have : 0 < kCacheBitmapUnit := by decide
    omega
  · omega

end

section
variable {s s' : Sys}

lemma Inv.tails_disjoint (inv : Inv s) :
    s.activeClaims.Pairwise fun a b => ∀ i, ¬ (a.inTail i ∧ b.inTail i) := by
  rw [pairwise_iff_forall_sublist]
  intro a b sub i both
  have wf {c : ActiveFetch} (hc : c ∈ [a, b]) := inv.claims.wf c (sub.subset hc)
  have ha := (wf (by simp)).tailHas_of_inTail both.1
  have hb := (wf (by simp)).tailHas_of_inTail both.2
  -- both would own the block of the byte
  have two : [a, b].countP (fun c => c.owns s.blockSize (i / s.blockSize)) =
      2 := by
    rw [countP_eq_length.2]
    · rfl
    · intro c hc
      rcases mem_pair.1 hc with rfl | rfl
      · exact ActiveFetch.owns_of_tailHas ha
      · exact ActiveFetch.owns_of_tailHas hb
  have count := inv.claims.owner (i / s.blockSize)
  have le := sub.countP_le (p := fun c => c.owns s.blockSize (i / s.blockSize))
  rw [Sys.owners] at count
  omega

lemma Inv.pending_owner (inv : Inv s) {page} (hp : page < s.pageCount)
    (pending : s.bitmap page = .readPending) :
    s.activeClaims.countP (fun a => decide (a.inTail (page * kCacheBitmapUnit))) +
      s.evictions.countP (fun ev => decide (page ∈ ev.cleanPages)) = 1 := by
  have tails : s.activeClaims.countP (fun a => decide (a.inTail (page * kCacheBitmapUnit))) ≤
      s.activeClaims.countP fun a =>
        a.owns s.blockSize (s.pageBlock page) := by
    refine countP_mono_left ?_
    intro a ha h
    exact ActiveFetch.owns_of_tailHas (((inv.claims.wf a ha).inTail_iff hp).1 (of_decide_eq_true h))
  have evictions : s.evictions.countP (fun ev => decide (page ∈ ev.cleanPages)) ≤
      s.evictions.countP
        (Eviction.holds s.blockSize (s.pageBlock page)) := by
    refine countP_mono_left ?_
    intro ev hev h
    exact ((inv.pages.evict_wf ev hev).pages page (of_decide_eq_true h)).2
  have count := inv.claims.owner (s.pageBlock page)
  rw [Sys.owners] at count
  rcases inv.pages.pending page hp pending with ⟨a, ha, h⟩ | ⟨ev, hev, h⟩
  · have pos : 0 < s.activeClaims.countP
        (fun a => decide (a.inTail (page * kCacheBitmapUnit))) :=
      countP_pos_iff.2 ⟨a, ha, decide_eq_true (((inv.claims.wf a ha).inTail_iff hp).2 h)⟩
    omega
  · have pos : 0 < s.evictions.countP (fun ev => decide (page ∈ ev.cleanPages)) :=
      countP_pos_iff.2 ⟨ev, hev, decide_eq_true h⟩
    omega

lemma Inv.findFetch_ended (inv : Inv s) {claim} (h : claim ∈ s.ended) :
    s.findFetch claim = none := by
  cases found : s.findFetch claim with
  | none => rfl
  | some a =>
    obtain ⟨ha, hid, -⟩ := findFetch_fields found
    exact absurd hid ((inv.claims.ended claim h).2 a ha)

lemma Inv.ended_inert (inv : Inv s) {claim} (mem : claim ∈ s.ended) {act}
    (h : Completes claim act) :
    ∃ t, step s act = some t ∧ t.bitmap = s.bitmap ∧ t.data = s.data := by
  have none := inv.findFetch_ended mem
  cases h with
  | publishClean published length final =>
    refine ⟨_, rfl, ?_, rfl⟩
    rw [publishClean_of_none none]
    rfl
  | finishFetch io | failFetch io =>
    refine ⟨_, rfl, ?_⟩
    rw [Sys.finishFetch_of_none none]
    exact ⟨rfl, rfl⟩
  | rollbackFetch =>
    refine ⟨_, rfl, ?_, rfl⟩
    rw [rollbackFetch_of_none none]
    rfl
  | markBad =>
    refine ⟨_, rfl, ?_, rfl⟩
    rw [markBad_of_none (.inl none)]
    rfl
  | finishRetry valid io =>
    -- the verdict leaves the claim list alone, so the end finds nothing either
    obtain ⟨q, found⟩ := findFetch_retryVerdict inv claim valid
    rw [none, Option.map_none] at found
    refine ⟨_, rfl, ?_⟩
    change ((retryVerdictEntry s.entry claim valid).finishFetch claim).1.bitmap = _ ∧
      FileOp.applyAll (((retryVerdictEntry s.entry claim valid).finishFetch claim).2.filter _) _ = _
    rw [CacheEntry.finishFetch_of_none found]
    refine ⟨?_, rfl⟩
    cases valid with
    | true =>
      change (s.publishClean claim 0 claim.length true).bitmap = _
      rw [publishClean_of_none none]
    | false =>
      change (s.markBad claim).bitmap = _
      rw [markBad_of_none (.inl none)]
      rfl

/-- In every reachable state of an entry claims are fenced. -/
theorem run_fenced {acts : List Action} (fresh : s.Fresh)
    (run : run step s acts = some s') : Fenced s' := by
  have inv := fresh.run_inv run
  exact ⟨inv.tails_disjoint, fun a ha => (inv.claims.wf a ha).tail_aligned,
    fun page hp => inv.pending_owner hp, fun claim mem act => inv.ended_inert mem⟩

def twoPages : CacheConfig where
  blockSize := 65536
  unlimited := false
  block_pos := by decide
  unit_dvd := by decide

def refetch : List Action :=
  [.claimFetch 0 1 0, .failFetch ⟨0, 1, 1, 40000⟩ (fun _ => true), .claimFetch 0 1 0]

/-- The late completion of the first claim finds the second one pending and leaves it so. -/
theorem run_fenced_refetch : ∃ s', run step (Sys.empty twoPages 40000) refetch = some s' ∧
    ⟨0, 1, 1, 40000⟩ ∈ s'.ended ∧ s'.bitmap 1 = .readPending ∧ Fenced s' := by
  have fresh : (Sys.empty twoPages 40000).Fresh := Sys.empty_fresh (by decide)
  refine ⟨_, rfl, ?_, ?_, @run_fenced _ _ refetch fresh rfl⟩
  all_goals decide

/-- Once its short last block is published, an empty tail lies off the block boundary. -/
theorem empty_tail_unaligned : (Sys.empty twoPages 40000).Fresh ∧
    ∃ s', run step (Sys.empty twoPages 40000)
      [.claimFetch 0 1 0, .write ⟨0, 1, 1, 40000⟩ 40000 (fun _ => 7),
        .publishClean ⟨0, 1, 1, 40000⟩ 0 40000 true] = some s' ∧
      ∃ a ∈ s'.activeClaims, ¬ s'.blockSize ∣ a.offset + a.published := by
  refine ⟨Sys.empty_fresh (by decide), _, rfl, ?_⟩
  decide

end

end Ngs3fs.Cache
