import Ngs3fs.Cache.Fence

/-!
# What a verified export has verified

`try_export(true)` makes a file immutable once every part of its manifest is marked verified. The
marks are per part, fetches work on whole blocks, and a block with one missing page is fetched
again as a whole. The bytes of a verified part are those its verification hashed, as long as no
fetch is granted a block that holds bytes of a verified part; nothing in `claim_fetch` looks at the
marks. -/

namespace Ngs3fs.Cache
open Loop CacheEntry Machine List Function

def PartState.held (state : PartState) : Bool := state.inProgress || state == .verified

def KeepsVerified (s : Sys) : Action → Prop
  | .claimFetch offset length expansion => ∀ e' claim,
    s.claimFetch offset length expansion = .ok (e', some claim) → ∀ (i : Nat) part,
    s.checksumParts[i]? = some part → s.checksumStates[i]? = some .verified →
    claim.offset + claim.length ≤ part.offset ∨ part.offset + part.size ≤ claim.offset
  | _ => True

def VerifiedBytes (s : Sys) : Prop :=
  ∀ (i : Nat) part, s.checksumParts[i]? = some part → s.checksumStates[i]? = some .verified →
    ∀ b, part.offset ≤ b → b < part.offset + part.size → s.verifiedOver i b = s.data b

/-- Of a file that is never evicted: no fetch works on a block of a held part, and what a verifier
has hashed is what the file holds. -/
structure ExportInv (s : Sys) : Prop where
  evictions : s.evictions = []
  apart : ∀ (i : Nat) part state, s.checksumParts[i]? = some part →
    s.checksumStates[i]? = some state → state.held = true → ∀ a ∈ s.activeClaims, ∀ r,
    Meets s.blockSize part.offset part.size r →
    a.tailHas s.blockSize r = false
  hashed : ∀ c ∈ s.checks, (s.hashing c.part).length ≤ c.size ∧ ∀ b, c.offset ≤ b →
    b < c.offset + (s.hashing c.part).length → (s.hashing c.part).bytes b = s.data b
  verified : VerifiedBytes s

section
variable {s s' : Sys}

lemma check_held (inv : PartInv s) {c} (hc : c ∈ s.checks) :
    ∃ part state, s.checksumParts[c.part]? = some part ∧ part.offset = c.offset ∧
      part.size = c.size ∧ s.checksumStates[c.part]? = some state ∧ state.held = true := by
  obtain ⟨part, hp, ho, hs⟩ := (inv.checks c hc).part
  obtain ⟨state, hst, busy⟩ := (inv.checks c hc).state
  exact ⟨part, state, hp, ho, hs, hst, by rw [PartState.held, busy, Bool.true_or]⟩

section
variable (h : ExportInv s) (inv : Inv s) (config : s'.config = s.config)
  (parts : s'.checksumParts = s.checksumParts)
include h inv config parts

lemma ExportInv.keep (evictions : s'.evictions = [])
    (states : ∀ (i : Nat) state, s'.checksumStates[i]? = some state → state.held = true →
      ∃ old, s.checksumStates[i]? = some old ∧ old.held = true ∧
        (state = .verified → old = .verified))
    (claims : ∀ a ∈ s'.activeClaims, ∃ b ∈ s.activeClaims, ∀ r,
      a.tailHas s.blockSize r = true → b.tailHas s.blockSize r = true)
    (data : ∀ (i : Nat) part state, s.checksumParts[i]? = some part →
      s.checksumStates[i]? = some state → state.held = true → ∀ b, part.offset ≤ b →
      b < part.offset + part.size → s'.data b = s.data b)
    (checks : ∀ c ∈ s'.checks, c ∈ s.checks ∧ s'.hashing c.part = s.hashing c.part)
    (verifiedOver : s'.verifiedOver = s.verifiedOver) : ExportInv s' := by
  refine ⟨evictions, ?_, ?_, ?_⟩
  · rw [parts, config]
    intro i part state hp hs held a ha r meets
    obtain ⟨old, hold, oldHeld, -⟩ := states i state hs held
    obtain ⟨b, hb, tail⟩ := claims a ha
    have free := h.apart i part old hp hold oldHeld b hb r meets
    by_contra k
    rw [tail r (Bool.not_eq_false _ ▸ k)] at free
    cases free
  · intro c hc
    obtain ⟨old, hashing⟩ := checks c hc
    obtain ⟨short, same⟩ := h.hashed c old
    obtain ⟨part, state, hp, ho, hs, hst, held⟩ := check_held inv.parts old
    rw [hashing]
    refine ⟨short, ?_⟩
    intro b lo hi
    rw [data c.part part state hp hst held b (by omega) (by omega)]
    exact same b lo hi
  · rw [VerifiedBytes, parts, verifiedOver]
    intro i part hp hs b lo hi
    obtain ⟨old, hold, held, verified⟩ := states i .verified hs rfl
    rw [data i part old hp hold held b lo hi]
    exact h.verified i part hp (by rw [hold, verified rfl]) b lo hi

lemma ExportInv.same (states : s'.checksumStates = s.checksumStates)
    (claims : ∀ a ∈ s'.activeClaims, ∃ b ∈ s.activeClaims, ∀ r,
      a.tailHas s.blockSize r = true → b.tailHas s.blockSize r = true)
    (evictions : s'.evictions = s.evictions) (data : s'.data = s.data)
    (checks : s'.checks = s.checks) (hashing : s'.hashing = s.hashing)
    (verifiedOver : s'.verifiedOver = s.verifiedOver) : ExportInv s' := by
  refine h.keep inv config parts (by rw [evictions, h.evictions]) ?_ claims
    (fun _ _ _ _ _ _ _ _ _ => by rw [data]) ?_ verifiedOver
  · rw [states]
    exact fun i state hs held => ⟨state, hs, held, id⟩
  · rw [checks, hashing]
    exact fun c hc => ⟨hc, rfl⟩

end

lemma ExportInv.vacuous (evictions : s.evictions = []) (checks : s.checks = [])
    (states : ∀ state ∈ s.checksumStates, state.held = false) : ExportInv s := by
  refine ⟨evictions, ?_, ?_, ?_⟩
  · intro i part state _ hs held
    rw [states state (mem_of_getElem? hs)] at held
    cases held
  · rw [checks]
    exact nofun
  · intro i part _ hs
    cases states _ (mem_of_getElem? hs)

lemma ExportInv.tail_apart (h : ExportInv s) {a} (ha : a ∈ s.activeClaims)
    {i b : Nat} {part state}
    (hp : s.checksumParts[i]? = some part) (hs : s.checksumStates[i]? = some state)
    (held : state.held = true) (lo : part.offset ≤ b) (hi : b < part.offset + part.size) :
    a.tailHas s.blockSize (b / s.blockSize) = false :=
  h.apart i part state hp hs held a ha _ (s.meets_of_mem lo hi)

lemma Tiled.apart {size parts} (tiled : Tiled size parts)
    {i j : Nat} {p q} (hi : parts[i]? = some p) (hj : parts[j]? = some q)
    (ne : i ≠ j) : p.offset + p.size ≤ q.offset ∨ q.offset + q.size ≤ p.offset := by
  obtain ⟨li, rfl⟩ := List.getElem?_eq_some_iff.1 hi
  obtain ⟨lj, rfl⟩ := List.getElem?_eq_some_iff.1 hj
  have order := pairwise_iff_getElem.1 tiled.order
  rcases Nat.lt_or_gt_of_ne ne with h | h
  · exact .inl (order i j li lj h)
  · exact .inr (order j i lj li h)

end

section
variable {s s' : Sys}
variable {a : ActiveFetch}

/-- Verified parts by assumption, the others because their verifiers pin them. -/
lemma ExportInv.newClaim (h : ExportInv s) (inv : Inv s) {e'} (claimed : Claimed s.entry e' a)
    {written retryReady} (granted : ∀ (i : Nat) part, s.checksumParts[i]? = some part →
      s.checksumStates[i]? = some .verified →
      a.offset + a.length ≤ part.offset ∨ part.offset + part.size ≤ a.offset) :
    ExportInv { s.withEntry e' with written, retryReady } := by
  have wf := claimed.wf
  obtain rfl := claimed.eq
  refine { h with apart := ?_ }
  intro i part state hp hs held b hb r meets
  rcases mem_append.1 hb with old | new
  · exact h.apart i part state hp hs held b old r meets
  · obtain rfl := mem_singleton.1 new
    by_contra tail
    have range : b.rangeHas s.blockSize r = true :=
      ActiveFetch.rangeHas_of_tailHas (Bool.not_eq_false _ ▸ tail)
    rw [PartState.held, Bool.or_eq_true, beq_iff_eq] at held
    rcases held with busy | rfl
    · obtain ⟨c, hc, rfl⟩ := inv.parts.busy i state hs busy
      obtain ⟨part', hp', ho, hsz⟩ := (inv.parts.checks c hc).part
      obtain rfl := Option.some.inj (hp.symm.trans hp')
      have pinned : 0 < s.checkPins r := by
        refine countP_pos_iff.2 ⟨c, hc, ?_⟩
        rw [decide_eq_true_eq, ← ho, ← hsz]
        exact meets
      have free := claimed.free r range
      have count := inv.pins.count r
      omega
    · -- the block of the claim would hold the part's byte
      have inside := inv.parts.tiled.inside part (mem_of_getElem? hp)
      have pos := inv.parts.tiled.pos part (mem_of_getElem? hp)
      obtain ⟨-, h1, h2⟩ : Meets s.blockSize part.offset part.size r := meets
      rw [ActiveFetch.rangeHas_iff] at range
      rcases granted i part hp hs with before | after
      · rcases wf.stop with dvd | last
        · have := add_le_of_dvd_of_lt (Dvd.intro_left r rfl) dvd range.2
          change r * s.blockSize + s.blockSize ≤ _ at this
          omega
        · change b.offset + b.length = s.size at last
          omega
      · omega

lemma ExportInv.check (h : ExportInv s) (inv : Inv s) {i checksumOps pinnedRegions}
    {part regionPins partReady} (hp : s.checksumParts[i]? = some part)
    (clean : s.rangeAllState part.offset part.size .clean = true) :
    ExportInv { s.withEntry { s.entry with
        regionPins, pinnedRegions, checksumOps
        checksumStates := s.checksumStates.set i .verifying } with
      checks := s.verifyClaim i part :: s.checks
      partReady
      hashing := update s.hashing i ⟨0, fun _ => 0⟩ } := by
  have inside := inv.parts.tiled.inside part (mem_of_getElem? hp)
  refine ⟨h.evictions, ?_, ?_, ?_⟩
  · intro j q state hq hs held a ha r meets
    by_cases same : i = j
    · subst same
      obtain rfl := Option.some.inj (hp.symm.trans hq)
      by_contra tail
      exact tail_not_clean inv.pages meets inside clean ha (Bool.not_eq_false _ ▸ tail)
    · change (s.checksumStates.set _ _)[_]? = _ at hs
      rw [getElem?_set_ne same] at hs
      exact h.apart j q state hq hs held a ha r meets
  · intro c hc
    dsimp only
    by_cases same : c.part = i
    · rw [same, update_self]
      exact ⟨Nat.zero_le _, fun b lo hi => absurd hi (Nat.not_lt.2 lo)⟩
    · rw [update_of_ne same]
      rcases mem_cons.1 hc with rfl | hc
      · exact absurd rfl same
      · exact h.hashed c hc
  · intro j q hq hs
    change (s.checksumStates.set _ _)[_]? = _ at hs
    by_cases same : i = j
    · subst same
      rw [getElem?_set_self'] at hs
      cases k : s.checksumStates[i]? <;> rw [k] at hs <;> cases hs
    · rw [getElem?_set_ne same] at hs
      exact h.verified j q hq hs

variable {claim : CacheChecksumClaim}

section
variable (h : ExportInv s) (inv : Inv s) (mem : claim ∈ s.checks)
include h inv mem

lemma ExportInv.hash {length} (fits : (s.hashing claim.part).length + length ≤ claim.size) :
    ExportInv (s.hashPart claim length) := by
  refine { h with hashed := ?_ }
  intro c hc
  obtain ⟨short, same⟩ := h.hashed c hc
  by_cases own : c.part = claim.part
  · obtain rfl := check_unique inv.parts mem hc own
    have hashing : (s.hashPart c length).hashing c.part = ⟨(s.hashing c.part).length + length,
        fun b => if c.offset + (s.hashing c.part).length ≤ b ∧
          b < c.offset + (s.hashing c.part).length + length then s.data b
          else (s.hashing c.part).bytes b⟩ := update_self ..
    rw [hashing]
    refine ⟨fits, ?_⟩
    intro b lo hi
    change (if _ then s.data b else (s.hashing c.part).bytes b) = s.data b
    split
    · rfl
    · rename_i before
      change b < c.offset + ((s.hashing c.part).length + length) at hi
      exact same b lo (by omega)
  · have hashing : (s.hashPart claim length).hashing c.part = s.hashing c.part :=
      update_of_ne own ..
    rw [hashing]
    exact ⟨short, same⟩

lemma ExportInv.writePart {position length content} (fits : position + length ≤ claim.size) :
    ExportInv { s.withOps [.write (claim.offset + position) length content] with
      hashing := update s.hashing claim.part ⟨0, fun _ => 0⟩ } := by
  obtain ⟨part, hp, ho, hsz⟩ := (inv.parts.checks claim mem).part
  -- other parts have no byte in the written range
  have outside {j b : Nat} {q : CacheChecksumPart} (hq : s.checksumParts[j]? = some q)
      (ne : j ≠ claim.part) (lo : q.offset ≤ b) (hi : b < q.offset + q.size) :
      (FileOp.write (claim.offset + position) length content).apply s.data b = s.data b := by
    refine FileOp.apply_of_not_touches ?_
    rintro ⟨t1, t2⟩
    have := inv.parts.tiled.apart hq hp ne
    omega
  refine ⟨h.evictions, h.apart, ?_, ?_⟩
  · intro c hc
    dsimp only
    by_cases own : c.part = claim.part
    · rw [own, update_self]
      exact ⟨Nat.zero_le _, fun b lo hi => absurd hi (Nat.not_lt.2 lo)⟩
    · rw [update_of_ne own]
      obtain ⟨short, same⟩ := h.hashed c hc
      obtain ⟨q, hq, hqo, hqs⟩ := (inv.parts.checks c hc).part
      refine ⟨short, fun b lo hi => (same b lo hi).trans (outside hq own ?_ ?_).symm⟩
      · omega
      · omega
  · intro j q hq hs b lo hi
    have ne : j ≠ claim.part := by
      rintro rfl
      obtain ⟨state, hst, busy⟩ := (inv.parts.checks claim mem).state
      cases hs.symm.trans hst
      cases busy
    exact (h.verified j q hq hs b lo hi).trans (outside hq ne lo hi).symm

lemma ExportInv.finishPart {valid checksumOps pinnedRegions waitTokens} {regionPins}
    (complete : valid = true → (s.hashing claim.part).length = claim.size) :
    ExportInv { s.withEntry { s.entry with
        regionPins, pinnedRegions, checksumOps, waitTokens
        checksumStates := s.checksumStates.set claim.part
          (if valid then .verified else .bad) } with
      checks := s.checks.erase claim
      verifiedOver := if valid then
        update s.verifiedOver claim.part (s.hashing claim.part).bytes
        else s.verifiedOver } := by
  obtain ⟨part, old, hp, ho, hsz, hst, held⟩ := check_held inv.parts mem
  refine ⟨h.evictions, ?_, fun c hc => h.hashed c (mem_of_mem_erase hc), ?_⟩
  · intro j q state hq hs _ a ha r meets
    by_cases own : claim.part = j
    · subst own
      exact h.apart claim.part q old hq hst held a ha r meets
    · change (s.checksumStates.set _ _)[_]? = _ at hs
      rw [getElem?_set_ne own] at hs
      exact h.apart j q state hq hs ‹_› a ha r meets
  · intro j q hq hs b lo hi
    change (s.checksumStates.set _ _)[_]? = _ at hs
    dsimp only
    by_cases own : claim.part = j
    · subst own
      obtain rfl := Option.some.inj (hp.symm.trans hq)
      rw [getElem?_set_self (List.getElem?_eq_some_iff.1 hst).1] at hs
      cases valid with
      | false => cases hs
      | true =>
        rw [if_pos rfl, update_self]
        have := complete rfl
        exact (h.hashed claim mem).2 b (by omega) (by omega)
    · rw [getElem?_set_ne own] at hs
      refine .trans ?_ (h.verified j q hq hs b lo hi)
      split
      · rw [update_of_ne (Ne.symm own)]
      · rfl

end

lemma same_tails (claims : List ActiveFetch) (blockSize : Nat) :
    ∀ a ∈ claims, ∃ b ∈ claims, ∀ r, a.tailHas blockSize r = true → b.tailHas blockSize r = true :=
  fun a ha => ⟨a, ha, fun _ => id⟩

lemma erased_tails (claims : List ActiveFetch) (claim : CacheFetchClaim) (blockSize : Nat) :
    ∀ a ∈ claims.eraseP (ActiveFetch.isFor claim), ∃ b ∈ claims, ∀ r,
      a.tailHas blockSize r = true → b.tailHas blockSize r = true :=
  fun a ha => ⟨a, mem_of_mem_eraseP ha, fun _ => id⟩

lemma modified_tails {claims claim blockSize}
    (found : claims.find? (ActiveFetch.isFor claim) = some a) (f : ActiveFetch → ActiveFetch)
    (tail : ∀ r, (f a).tailHas blockSize r = true → a.tailHas blockSize r = true) :
    ∀ a ∈ modifyFirst (ActiveFetch.isFor claim) f claims, ∃ b ∈ claims, ∀ r,
      a.tailHas blockSize r = true → b.tailHas blockSize r = true := by
  intro b hb
  rcases mem_cons.1 ((modifyFirst_perm found).subset hb) with rfl | old
  · exact ⟨a, mem_of_find?_eq_some found, tail⟩
  · exact ⟨b, mem_of_mem_eraseP old, fun _ => id⟩

lemma held_of_set {states : List PartState} {k old new}
    (hold : states[k]? = some old) (held : old.held = true) (unverified : new ≠ .verified) :
    ∀ (i : Nat) state, (states.set k new)[i]? = some state → state.held = true →
      ∃ old, states[i]? = some old ∧ old.held = true ∧ (state = .verified → old = .verified) := by
  intro i state hs hh
  by_cases same : k = i
  · subst same
    rw [getElem?_set_self (List.getElem?_eq_some_iff.1 hold).1] at hs
    cases hs
    exact ⟨old, hold, held, fun k => absurd k unverified⟩
  · rw [getElem?_set_ne same] at hs
    exact ⟨state, hs, hh, id⟩

lemma ExportInv.tail_ops (h : ExportInv s) (ha : a ∈ s.activeClaims) {ops}
    (inTail : ∀ op ∈ ops, ∀ b, op.Touches b →
      a.tailHas s.blockSize (b / s.blockSize) = true) :
    ∀ (i : Nat) part state, s.checksumParts[i]? = some part →
      s.checksumStates[i]? = some state → state.held = true → ∀ b, part.offset ≤ b →
      b < part.offset + part.size → FileOp.applyAll ops s.data b = s.data b := by
  intro i part state hp hs held b lo hi
  refine FileOp.applyAll_of_not_touches ?_
  intro op hop touches
  have free := h.tail_apart ha hp hs held lo hi
  rw [inTail op hop b touches] at free
  cases free

lemma ExportInv.effect (h : ExportInv s) (inv : Inv s) {act}
    (unlimited : s.unlimited = true) (keeps : KeepsVerified s act)
    (eff : Effect s act s') (live : s'.stale = false) : ExportInv s' := by
  cases eff with
  | idle e =>
    obtain ⟨⟨_, _, _, _, _, _, rfl⟩, -, -⟩ := e
    exact h.same inv rfl rfl rfl (same_tails _ _) rfl rfl rfl rfl rfl
  | claim claimed granted =>
    exact h.newClaim inv claimed fun i part => keeps _ _ granted i part
  | @write claim length content a found lo hi =>
    have ha := (findFetch_fields found).1
    refine h.keep inv rfl rfl h.evictions (fun _ st hs hh => ⟨st, hs, hh, id⟩) (same_tails _ _)
      (h.tail_ops ha ?_) (fun _ hc => ⟨hc, rfl⟩) rfl
    intro op hop b touches
    obtain rfl := mem_singleton.1 hop
    refine (inv.claims.wf a ha).tailHas_of_inTail ⟨?_, ?_⟩
    · have := touches.1; omega
    · have := touches.2; omega
  | @publish _ _ _ _ a q _ found lo =>
    refine h.same inv rfl rfl rfl (modified_tails found _ ?_) rfl rfl rfl rfl rfl
    intro r tail
    rw [ActiveFetch.tailHas_iff] at tail ⊢
    exact ⟨le_trans (Nat.add_le_add_left lo _) tail.1, tail.2⟩
  | @finish _ _ _ a _ ops _ found punches =>
    refine h.keep inv rfl rfl h.evictions (fun _ st hs hh => ⟨st, hs, hh, id⟩) (erased_tails _ _ _)
      (h.tail_ops (findFetch_fields found).1 ?_) (fun _ hc => ⟨hc, rfl⟩) rfl
    intro op hop b touches
    obtain ⟨r, tail, -, rfl⟩ := punches op hop
    rwa [s.div_eq_iff.2 touches]
  | rollback found => exact h.same inv rfl rfl rfl (erased_tails _ _ _) rfl rfl rfl rfl rfl
  | bad | retryAgain | pin | pinNothing | unpin | unpinNothing | loadManifest | skipManifest =>
    exact h.same inv rfl rfl rfl (same_tails _ _) rfl rfl rfl rfl rfl
  | verify found =>
    exact h.same inv rfl rfl rfl (modified_tails found _ (fun _ => id)) rfl rfl rfl rfl rfl
  | @retry _ a _ found _ hv =>
    -- a fetch is verified as a whole only while there are no parts
    have none := (inv.parts.exclusive ⟨a, (findFetch_fields found).1, hv⟩).2
    have checks := checks_eq_nil inv.parts none
    refine .vacuous h.evictions checks ?_
    change ∀ state ∈ s.checksumStates, _
    rw [states_eq_nil inv.parts none]
    exact nofun
  | installManifest loading =>
    have checks := checks_eq_nil inv.parts (by rw [loading]; exact nofun)
    refine .vacuous h.evictions checks ?_
    intro state hs
    rw [eq_of_mem_replicate hs]
    rfl
  | dropManifest loading =>
    have checks := checks_eq_nil inv.parts (by rw [loading]; exact nofun)
    exact .vacuous h.evictions checks nofun
  | check _ hp _ clean => exact h.check inv hp clean
  | hash mem fits => exact h.hash inv mem fits
  | @retryPart _ claim _ _ mem =>
    refine h.keep inv rfl rfl h.evictions ?_ (same_tails _ _) (fun _ _ _ _ _ _ _ _ _ => rfl)
      (fun _ hc => ⟨hc, rfl⟩) rfl
    obtain ⟨old, hs, busy⟩ := (inv.parts.checks claim mem).state
    exact held_of_set hs (by rw [PartState.held, busy, Bool.true_or]) nofun
  | writePart mem _ fits => exact h.writePart inv mem fits
  | finishPart mem complete => exact h.finishPart inv mem complete
  | @abandonPart claim _ mem =>
    refine h.keep inv rfl rfl h.evictions ?_ (same_tails _ _) (fun _ _ _ _ _ _ _ _ _ => rfl)
      (fun _ hc => ⟨mem_of_mem_erase hc, rfl⟩) rfl
    obtain ⟨old, hs, busy⟩ := (inv.parts.checks claim mem).state
    exact held_of_set hs (by rw [PartState.held, busy, Bool.true_or]) nofun
  | evict accepted | evictStart accepted => simp [evictionRefused, unlimited] at accepted
  | evictPunch mem | evictFinish mem =>
    rw [h.evictions] at mem
    cases mem
  | truncate stale => cases stale.symm.trans live

end

section
variable {s s' : Sys} {act : Action}

lemma Effect.live (h : Effect s act s') (live : s'.stale = false) :
    s.stale = false ∧ s'.config = s.config := by
  cases h with
  | idle e =>
    obtain ⟨⟨_, _, _, _, _, _, rfl⟩, stale, -⟩ := e
    exact ⟨Bool.eq_false_iff.2 fun h => Bool.eq_false_iff.1 live (stale h), rfl⟩
  | claim claimed =>
    obtain rfl := claimed.eq
    exact ⟨live, rfl⟩
  | _ => exact ⟨live, rfl⟩

def Exportable (s : Sys) : Prop :=
  s.unlimited = true → s.stale = false → ExportInv s

lemma exportable_step (inv : Inv s) (h : Exportable s) (keeps : KeepsVerified s act)
    (hs : step s act = some s') : Exportable s' := by
  intro unlimited live
  rcases step_effects inv hs with e | ⟨claim, valid, io, t, rfl, -, verdict, mid, e⟩
  · obtain ⟨old, config⟩ := e.live live
    rw [config] at unlimited
    exact (h unlimited old).effect inv unlimited keeps e live
  · obtain ⟨liveMid, config⟩ := e.live live
    obtain ⟨old, config'⟩ := verdict.live liveMid
    rw [config] at unlimited
    have first := h (config' ▸ unlimited) old
    have allowed : KeepsVerified s (retryVerdict claim valid) := by cases valid <;> trivial
    have ends : KeepsVerified t (.finishFetch claim io) := trivial
    exact (first.effect inv (config' ▸ unlimited) allowed verdict liveMid).effect mid unlimited
      ends e live

lemma tryExport_true {e : CacheEntry} (h : (e.tryExport true).2 = true) :
    e.unlimited = true ∧ e.stale = false ∧
      ∀ (i : Nat) part, e.checksumParts[i]? = some part → e.checksumStates[i]? =
      some .verified := by
  unfold tryExport at h
  split at h
  · cases h
  rename_i ready
  split at h
  · cases h
  rename_i verified
  simp only [Bool.or_eq_true, not_or, Bool.not_eq_true, Bool.not_eq_false'] at ready
  simp only [Bool.true_and, Bool.not_eq_true', Bool.not_eq_false, exportVerified,
    Bool.and_eq_true, beq_iff_eq, all_eq_true] at verified
  refine ⟨ready.1.1.1.1.1.1.1.1, ready.1.1.1.1.1.1.1.2, ?_⟩
  intro i part hp
  have bound : i < e.checksumStates.length := by
    rw [verified.1.2]
    exact (List.getElem?_eq_some_iff.1 hp).1
  have state := verified.2 _ (getElem_mem bound)
  rw [getElem?_eq_getElem bound, state]

/-- If no fetch has been granted bytes of a verified part, then at a successful `try_export(true)`
every part of the manifest holds exactly the bytes its last successful verification hashed. -/
theorem run_export_verified {acts : List Action} (fresh : s.Fresh)
    (keeps : Machine.Along step KeepsVerified s acts) (run : run step s acts = some s')
    (exported : (s'.tryExport true).2 = true) :
    ∀ (i : Nat) part, s'.checksumParts[i]? = some part → ∀ b, part.offset ≤ b →
      b < part.offset + part.size → s'.verifiedOver i b = s'.data b := by
  have start : Inv s ∧ Exportable s := by
    refine ⟨fresh.inv, fun _ _ => .vacuous fresh.evictions fresh.checks ?_⟩
    rw [fresh.states]
    exact nofun
  have stop : Inv s' ∧ Exportable s' := run_inv_along
    (I := fun s => Inv s ∧ Exportable s)
    (fun _ _ _ both keeps h => ⟨inv_step both.1 h, exportable_step both.1 both.2 keeps h⟩)
    start keeps run
  obtain ⟨unlimited, live, verified⟩ := tryExport_true exported
  intro i part hp b
  exact (stop.2 unlimited live).verified i part hp (verified i part hp) b

def unlimitedPages : CacheConfig := { twoPages with unlimited := true }

def twoParts : List CacheChecksumPart := [⟨0, 32768, 1, "first"⟩, ⟨32768, 32768, 1, "second"⟩]

def verifyPart (part : Nat) (value : String) : List Action :=
  let claim : CacheChecksumClaim := ⟨.verify, part * 32768, 32768, 1, part, 1, value⟩
  [.claimChecksum (part * 32768) 32768 false, .hashPart claim 32768, .finishChecksum claim true]

def fetchBlock (content : Nat → UInt8) : List Action :=
  [.claimFetch 32768 1 0, .write ⟨0, 1, 1, 65536⟩ 65536 content,
    .publishClean ⟨0, 1, 1, 65536⟩ 0 65536 true, .finishFetch ⟨0, 1, 1, 65536⟩ fun _ => true]

def loadParts : List Action := [.beginChecksumManifest, .finishChecksumManifest twoParts]

def fetchThenVerify : List Action :=
  fetchBlock (fun _ => 7) ++ (loadParts ++ verifyPart 0 "first" ++ verifyPart 1 "second")

/-- Such a file is exported with the bytes that were hashed. -/
theorem run_export_verified_block : ∃ s',
    run step (Sys.empty unlimitedPages 65536) fetchThenVerify = some s' ∧
    (s'.tryExport true).2 = true ∧
    ∀ (i : Nat) part, s'.checksumParts[i]? = some part → ∀ b, part.offset ≤ b →
      b < part.offset + part.size → s'.verifiedOver i b = s'.data b := by
  have fresh : (Sys.empty unlimitedPages 65536).Fresh := Sys.empty_fresh (by decide)
  have ran : run step (Sys.empty unlimitedPages 65536) fetchThenVerify = some _ :=
    run_final (by decide +kernel)
  have keeps : Machine.Along step KeepsVerified (Sys.empty unlimitedPages 65536)
      fetchThenVerify := by
    refine ⟨?_, fun t _ => Machine.Along.of_all ?_ t⟩
    · intro _ _ _ i part hp
      cases hp
    · simp [loadParts, verifyPart, KeepsVerified]
  exact ⟨_, ran, by decide +kernel, run_export_verified fresh keeps ran (by decide +kernel)⟩

/-- One page of the block is there, as a cache with smaller blocks leaves it. -/
def halfCached : Sys :=
  let s := Sys.empty unlimitedPages 65536
  { s with
    entry := { s.entry with bitmap := fun page => if page = 0 then .clean else .missing }
    data := fun _ => 7 }

def verifyThenFetch : List Action :=
  loadParts ++ verifyPart 0 "first" ++ fetchBlock (fun _ => 9) ++ verifyPart 1 "second"

/-- The fetch rewrites the part that has been verified, and the export goes through. -/
theorem refetch_breaks_verified : halfCached.Fresh ∧ ∃ s',
    run step halfCached verifyThenFetch = some s' ∧
    (s'.tryExport true).2 = true ∧
    s'.checksumParts[0]? = some ⟨0, 32768, 1, "first"⟩ ∧ s'.verifiedOver 0 0 = 7 ∧
    s'.data 0 = 9 := by
  have ran : run step halfCached verifyThenFetch = some _ :=
    run_final (by decide +kernel)
  refine ⟨⟨⟨by decide, nofun⟩, rfl, ?_, fun _ =>
    rfl, rfl, rfl, rfl, rfl, rfl, rfl, rfl, rfl, rfl⟩, _, ran, ?_⟩
  · intro page _
    change (if page = 0 then CachePageState.clean else .missing) ≠ _
    split <;> exact nofun
  · decide +kernel

end

end Ngs3fs.Cache
