import Ngs3fs.Persist.Names

/-!
# Live entries on exported inodes

Every live entry on an exported inode is idle, and is stale or has the flag in the header it maps
(`EntryInv`). A key is made `Ready` for a new entry by retiring its generations; `remove` and
`rename` carry the entries along with the names (`Transported`). -/

namespace Ngs3fs.Persist
open Store Crash List

structure EntryOk (s : Store) (e : Entry) : Prop where
  quiet : s.exported e.data = true →
    e.busy = 0 ∧ e.evictions = 0 ∧ (e.stale = true ∨ s.marked e.metadata = true)
  mode : s.unlimited = true → e.evictions = 0
  owner : e.stale = false → ∀ key, s.At .data key e.data ∨ s.At .objects key e.metadata →
    e.key = key ∧ e.listed = true
  busyOwner : e.busy ≠ 0 → ∀ key, s.At .data key e.data → e.key = key ∧ e.listed = true
  paired : e.stale = false → ∀ key, s.At .data key e.data → s.At .objects key e.metadata
  valid : e.stale = false →
    ∃ h, s.headers e.metadata = some h ∧ h.magic = cacheMagic ∧ h.version = kCacheMetaVersion
  ids : e.id < s.next ∧ e.data < s.next ∧ e.metadata < s.next

structure EntryInv (s : Store) : Prop where
  each : ∀ e ∈ s.entries, EntryOk s e
  alone : ∀ e ∈ s.entries, ∀ f ∈ s.entries, e.stale = false → e.data = f.data → e.id ≠ f.id →
    f.stale = true ∧ f.busy = 0
  unique : ∀ e ∈ s.entries, ∀ f ∈ s.entries, e.id = f.id → e = f

/-! ### The entries -/

section
variable {s s' : Store} {key : Text}

def Vacant (s : Store) (key : Text) : Prop :=
  ∀ e ∈ s.entries, s.At .data key e.data ∨ s.At .objects key e.metadata → e.stale = true

def Idle (s : Store) (key : Text) : Prop := ∀ e ∈ s.entries, s.At .data key e.data → e.busy = 0

variable {e : Entry}

section
variable (ok : EntryOk s e) (c : ChangedAt key s s')
include ok c

lemma EntryOk.at_of_changed {k} : (s'.At .data k e.data → s.At .data k e.data) ∧
    (s'.At .objects k e.metadata → s.At .objects k e.metadata) := by
  obtain ⟨_, data, metadata⟩ := ok.ids
  refine ⟨fun h => ?_, fun h => ?_⟩
  · obtain h | h := c.at_cases h
    · exact h
    · exact absurd data (by omega)
  · obtain h | h := c.at_cases h
    · exact h
    · exact absurd metadata (by omega)

variable (vacant : s.At .data key e.data ∨ s.At .objects key e.metadata → e.stale = true)
include vacant

lemma EntryOk.headers_of_changed :
    e.stale = true ∨ s'.headers e.metadata = s.headers e.metadata := by
  have metadata := ok.ids.2.2
  obtain same | named | new := c.headers e.metadata
  · exact .inr same
  · exact .inl (vacant (.inr (.inl named)))
  · exact absurd metadata (by omega)

lemma EntryOk.changedAt : EntryOk s' e where
  quiet exported := by
    rw [c.exported] at exported
    obtain ⟨busy, evictions, safe⟩ := ok.quiet exported
    refine ⟨busy, evictions, ?_⟩
    cases ok.headers_of_changed c vacant with
    | inl stale => exact .inl stale
    | inr same => rwa [marked_congr same]
  mode unlimited := ok.mode (c.unlimited ▸ unlimited)
  owner live k h := ok.owner live k (h.imp (ok.at_of_changed c).1 (ok.at_of_changed c).2)
  busyOwner busy k h := ok.busyOwner busy k ((ok.at_of_changed c).1 h)
  paired live k h := by
    have h := (ok.at_of_changed c).1 h
    by_cases same : k = key
    · subst same
      cases live.symm.trans (vacant (.inl h))
    · exact (c.at_of_ne same).2 (ok.paired live k h)
  valid live := by
    cases ok.headers_of_changed c vacant with
    | inl stale => cases live.symm.trans stale
    | inr same =>
      rw [same]
      exact ok.valid live
  ids := by
    have next := c.next
    obtain ⟨id, data, metadata⟩ := ok.ids
    exact ⟨by omega, by omega, by omega⟩

end

lemma Vacant.changed (vacant : Vacant s key) (inv : EntryInv s) (c : ChangedAt key s s') :
    Vacant s' key := by
  intro e mem h
  rw [c.entries] at mem
  have back := (inv.each e mem).at_of_changed c (k := key)
  exact vacant e mem (h.imp back.1 back.2)

lemma Idle.changed (idle : Idle s key) (inv : EntryInv s) (c : ChangedAt key s s') :
    Idle s' key := by
  intro e mem h
  rw [c.entries] at mem
  exact idle e mem (((inv.each e mem).at_of_changed c).1 h)

lemma EntryInv.changedAt (inv : EntryInv s) (c : ChangedAt key s s') (vacant : Vacant s key) :
    EntryInv s' := by
  refine ⟨fun e mem => ?_, ?_, ?_⟩
  · rw [c.entries] at mem
    exact (inv.each e mem).changedAt c (vacant e mem)
  · rw [c.entries]
    exact inv.alone
  · rw [c.entries]
    exact inv.unique

/-- Entries that are marked, delisted or given a new key, together with their names: `M` says
which key a name was at. -/
structure Transported (M : Text → Text → Prop) (g : Entry → Entry) (s s' : Store) : Prop where
  entries : s'.entries = s.entries.map g
  unlimited : s'.unlimited = s.unlimited
  exported : s'.exported = s.exported
  next : s'.next = s.next
  same : ∀ e, (g e).id = e.id ∧ (g e).data = e.data ∧ (g e).metadata = e.metadata ∧
    (g e).busy = e.busy ∧ (g e).evictions = e.evictions
  stale : ∀ e, e.stale = true → (g e).stale = true
  back : ∀ tree k i, s'.At tree k i → ∃ k0, s.At tree k0 i ∧ M k0 k
  forth : ∀ k0 k i, M k0 k → s.At .objects k0 i → s'.At .objects k i
  place : ∀ e ∈ s.entries, ∀ k0 k, M k0 k → e.key = k0 → e.listed = true →
    (g e).stale = false ∨ e.busy ≠ 0 → (g e).key = k ∧ (g e).listed = true
  marked : ∀ m, s.marked m = true → s'.marked m = true
  valid : ∀ m h, s.headers m = some h → ∃ h', s'.headers m = some h' ∧
    h'.magic = h.magic ∧ h'.version = h.version

section
variable {M : Text → Text → Prop} {g : Entry → Entry} (c : Transported M g s s')
include c

lemma Transported.live (live : (g e).stale = false) : e.stale = false := by
  by_contra stale
  exact absurd (c.stale e (eq_true_of_ne_false stale)) (by rw [live]; decide)

lemma EntryOk.transport (ok : EntryOk s e) (mem : e ∈ s.entries) : EntryOk s' (g e) := by
  obtain ⟨id, data, metadata, busy, evictions⟩ := c.same e
  refine ⟨?_, ?_, ?_, ?_, ?_, ?_, ?_⟩
  · intro exported
    rw [c.exported, data] at exported
    obtain ⟨idle, still, safe⟩ := ok.quiet exported
    rw [busy, evictions, metadata]
    exact ⟨idle, still, safe.imp (c.stale e) (c.marked _)⟩
  · intro unlimited
    rw [evictions]
    exact ok.mode (c.unlimited ▸ unlimited)
  · intro fresh k h
    rw [data, metadata] at h
    have found : ∃ k0, (s.At .data k0 e.data ∨ s.At .objects k0 e.metadata) ∧ M k0 k := by
      cases h with
      | inl h =>
        obtain ⟨k0, h, m⟩ := c.back _ _ _ h
        exact ⟨k0, .inl h, m⟩
      | inr h =>
        obtain ⟨k0, h, m⟩ := c.back _ _ _ h
        exact ⟨k0, .inr h, m⟩
    obtain ⟨k0, h, m⟩ := found
    obtain ⟨key, listed⟩ := ok.owner (c.live fresh) k0 h
    exact c.place e mem k0 k m key listed (.inl fresh)
  · intro active k h
    rw [busy] at active
    rw [data] at h
    obtain ⟨k0, h, m⟩ := c.back _ _ _ h
    obtain ⟨key, listed⟩ := ok.busyOwner active k0 h
    exact c.place e mem k0 k m key listed (.inr active)
  · intro fresh k h
    rw [data] at h
    rw [metadata]
    obtain ⟨k0, h, m⟩ := c.back _ _ _ h
    exact c.forth k0 k _ m (ok.paired (c.live fresh) k0 h)
  · intro fresh
    obtain ⟨h, found, magic, version⟩ := ok.valid (c.live fresh)
    obtain ⟨h', found', magic', version'⟩ := c.valid _ h found
    rw [metadata]
    exact ⟨h', found', magic'.trans magic, version'.trans version⟩
  · rw [id, data, metadata, c.next]
    exact ok.ids

end

lemma EntryInv.transport {M g} (inv : EntryInv s) (c : Transported M g s s') : EntryInv s' := by
  have lift : ∀ {P : Entry → Prop}, (∀ e ∈ s.entries, P (g e)) → ∀ e ∈ s'.entries, P e := by
    intro P h e mem
    rw [c.entries, mem_map] at mem
    obtain ⟨e, mem, rfl⟩ := mem
    exact h e mem
  refine ⟨lift fun e mem => (inv.each e mem).transport c mem, ?_, ?_⟩
  · refine lift fun e mem => lift fun f memf fresh data id => ?_
    rw [(c.same e).2.1, (c.same f).2.1] at data
    rw [(c.same e).1, (c.same f).1] at id
    obtain ⟨stale, busy⟩ := inv.alone e mem f memf (c.live fresh) data id
    rw [(c.same f).2.2.2.1]
    exact ⟨c.stale f stale, busy⟩
  · refine lift fun e mem => lift fun f memf id => ?_
    rw [(c.same e).1, (c.same f).1] at id
    rw [inv.unique e mem f memf id]

def keyed (key : Text) (f : Entry → Entry) (e : Entry) : Entry :=
  if e.listed = true ∧ e.key = key then f e else e

variable {f : Entry → Entry}

lemma onKey_onKey {g} (stay : ∀ e, (f e).listed = e.listed ∧ (f e).key = e.key) :
    (s.onKey key f).onKey key g = s.onKey key fun e => g (f e) := by
  have each : ∀ e, keyed key g (keyed key f e) = keyed key (fun e => g (f e)) e := by
    intro e
    by_cases here : e.listed = true ∧ e.key = key
    · have there : (f e).listed = true ∧ (f e).key = key := by
        rw [(stay e).1, (stay e).2]
        exact here
      rw [keyed, keyed, if_pos here, if_pos there, keyed, if_pos here]
    · rw [keyed, keyed, if_neg here, if_neg here, keyed, if_neg here]
  have all : (s.entries.map (keyed key f)).map (keyed key g) =
      s.entries.map (keyed key fun e => g (f e)) := by
    rw [map_map]
    exact map_congr_left fun e _ => each e
  exact congrArg (fun entries => { s with entries := entries }) all

/-- It takes nothing back and moves nothing. -/
structure Marks (f : Entry → Entry) : Prop where
  same : ∀ e, (f e).id = e.id ∧ (f e).data = e.data ∧ (f e).metadata = e.metadata ∧
    (f e).busy = e.busy ∧ (f e).evictions = e.evictions
  stale : ∀ e, e.stale = true → (f e).stale = true

lemma Marks.keyed (m : Marks f) (key : Text) : Marks (keyed key f) := by
  refine ⟨fun e => ?_, fun e stale => ?_⟩
  · rw [Persist.keyed]
    split
    · exact m.same e
    · exact ⟨rfl, rfl, rfl, rfl, rfl⟩
  · rw [Persist.keyed]
    split
    · exact m.stale e stale
    · exact stale

lemma EntryInv.onKey (inv : EntryInv s) (m : Marks f)
    (place : ∀ e ∈ s.entries, e.listed = true → e.key = key → (f e).stale = false ∨ e.busy ≠ 0 →
      (f e).key = key ∧ (f e).listed = true) : EntryInv (s.onKey key f) := by
  refine inv.transport (M := (· = ·)) (g := keyed key f) ⟨rfl, rfl, rfl, rfl, (m.keyed key).same,
    (m.keyed key).stale, fun _ k _ h => ⟨k, h, rfl⟩, ?_, ?_, fun _ h => h,
    fun _ h found => ⟨h, found, rfl, rfl⟩⟩
  · rintro k0 k i rfl h
    exact h
  · rintro e mem k0 k rfl here listed cond
    rw [keyed] at cond ⊢
    split at cond
    · rename_i at_key
      rw [if_pos at_key]
      obtain ⟨found, listed⟩ := place e mem listed at_key.2 cond
      exact ⟨found.trans (at_key.2.symm.trans here), listed⟩
    · rename_i elsewhere
      rw [if_neg elsewhere]
      exact ⟨here, listed⟩

lemma EntryInv.retire (inv : EntryInv s) : EntryInv (s.retire key) := by
  refine inv.onKey ⟨fun _ => ⟨rfl, rfl, rfl, rfl, rfl⟩, fun _ _ => rfl⟩ ?_
  intro e _ listed here _
  exact ⟨here, listed⟩

lemma marks_released (s : Store) (preserve : Bool) : Marks (s.released preserve) := by
  refine ⟨fun e => ?_, fun e stale => ?_⟩
  · rw [released]
    split <;> exact ⟨rfl, rfl, rfl, rfl, rfl⟩
  · rw [released]
    split
    · exact stale
    · rfl

lemma released_stays (s : Store) (preserve : Bool) (e : Entry) :
    (s.released preserve e).listed = e.listed ∧ (s.released preserve e).key = e.key := by
  rw [released]
  split <;> exact ⟨rfl, rfl⟩

lemma EntryInv.release (inv : EntryInv s) (preserve : Bool) :
    EntryInv (s.release key preserve) := by
  refine inv.onKey (marks_released s preserve) ?_
  intro e _ listed here _
  obtain ⟨sameListed, sameKey⟩ := released_stays s preserve e
  exact ⟨sameKey.trans here, sameListed.trans listed⟩

lemma idle_of_not_busy (free : s.busy key = false) (mem : e ∈ s.entries) (listed : e.listed = true)
    (here : e.key = key) : e.busy = 0 := by
  by_contra busy
  have found : s.busy key = true := by
    rw [Store.busy, any_eq_true]
    refine ⟨e, mem, ?_⟩
    rw [listed, here]
    simpa using busy
  cases free.symm.trans found

lemma retire_delist : (s.retire key).delist key =
    s.onKey key fun e => { e with stale := true, listed := false } :=
  onKey_onKey fun _ => ⟨rfl, rfl⟩

lemma EntryInv.vacate (inv : EntryInv s) (free : s.busy key = false) :
    EntryInv ((s.retire key).delist key) ∧ Vacant ((s.retire key).delist key) key ∧
      Idle ((s.retire key).delist key) key := by
  rw [retire_delist]
  refine ⟨?_, ?_, ?_⟩
  · refine inv.onKey ⟨fun _ => ⟨rfl, rfl, rfl, rfl, rfl⟩, fun _ _ => rfl⟩ ?_
    intro e mem listed here cond
    cases cond with
    | inl live => cases live
    | inr busy => exact absurd (idle_of_not_busy free mem listed here) busy
  · intro e' mem
    obtain ⟨e, old, rfl⟩ := mem_map.1 mem
    intro h
    split at h
    · rw [if_pos ‹_›]
    · rename_i elsewhere
      rw [if_neg elsewhere]
      by_contra live
      have owner := (inv.each e old).owner (eq_false_of_ne_true live) key h
      exact elsewhere ⟨owner.2, owner.1⟩
  · intro e' mem
    obtain ⟨e, old, rfl⟩ := mem_map.1 mem
    intro h
    by_contra busy
    split at h
    · rename_i here
      rw [if_pos here] at busy
      have still := idle_of_not_busy free old here.1 here.2
      exact busy still
    · rename_i elsewhere
      rw [if_neg elsewhere] at busy
      have owner := (inv.each e old).busyOwner busy key h
      exact elsewhere ⟨owner.2, owner.1⟩

end

/-! ### New entries -/

structure StoreInv (s : Store) : Prop where
  files : FileInv s
  entries : EntryInv s

def Formatted (s : Store) (key : Text) : Prop :=
  ∀ m, s.names .objects key = some m →
    ∃ h, s.headers m = some h ∧ h.magic = cacheMagic ∧ h.version = kCacheMetaVersion

section
variable {s : Store} {key : Text}

structure Ready (key : Text) (s : Store) : Prop where
  files : FileInv s
  entries : EntryInv s
  apart : ∀ tree, s.aside tree key = none
  vacant : Vacant s key
  idle : Idle s key

lemma Ready.changed {s'} (r : Ready key s) (c : ChangedAt key s s') (files : FileInv s') :
    Ready key s' :=
  ⟨files, r.entries.changedAt c r.vacant, c.apart r.apart, r.vacant.changed r.entries c,
    r.idle.changed r.entries c⟩

lemma Ready.addEntry (r : Ready key s) (valid : Formatted s key) : StoreInv (s.addEntry key) := by
  obtain ⟨files, inv, apart, vacant, idle⟩ := r
  rw [Store.addEntry]
  split
  case h_2 => exact ⟨files, inv⟩
  case h_1 data metadata nameD nameM =>
    have atD : s.At .data key data := .inl nameD
    have atM : s.At .objects key metadata := .inl nameM
    have others : ∀ e ∈ s.entries, e.data = data → e.stale = true ∧ e.busy = 0 := by
      rintro e mem rfl
      exact ⟨vacant e mem (.inl atD), idle e mem atD⟩
    have later {i : Nat} (lt : i < s.next) : i < s.next + 1 := lt.trans (Nat.lt_succ_self _)
    refine ⟨{ files with
        below := fun tree k i h => later (files.below tree k i h)
        known := fun i h => later (files.known i h) }, ?_⟩
    -- the new entry first, then the others
    refine ⟨forall_mem_cons.2 ⟨⟨fun exported => ⟨rfl, rfl, .inr ?_⟩, fun _ =>
      rfl, fun _ k h => ⟨?_, rfl⟩,
        fun busy => absurd rfl busy, fun _ k h => ?_, fun _ => valid metadata nameM,
        Nat.lt_succ_self _, later (files.below _ _ _ atD), later (files.below _ _ _ atM)⟩,
        fun e mem => { inv.each e mem with ids := ?_ }⟩,
      forall_mem_cons.2 ⟨forall_mem_cons.2 ⟨fun _ _ id => absurd rfl id, fun f mem _ same _ =>
        others f mem same.symm⟩, fun e mem => forall_mem_cons.2 ⟨fun live same =>
          ?_, inv.alone e mem⟩⟩,
      forall_mem_cons.2 ⟨forall_mem_cons.2 ⟨fun _ => rfl, fun f mem id => ?_⟩,
        fun e mem => forall_mem_cons.2 ⟨fun id => ?_, inv.unique e mem⟩⟩⟩
    · obtain ⟨m, found, marked⟩ := files.named key data atD exported
      rw [at_iff_names (apart _), nameM] at found
      cases found
      exact marked
    · cases h with
      | inl h => exact files.one _ _ _ _ atD h
      | inr h => exact files.one _ _ _ _ atM h
    · obtain rfl := files.one _ _ _ _ atD h
      exact atM
    · obtain ⟨id, data, metadata⟩ := (inv.each e mem).ids
      exact ⟨later id, later data, later metadata⟩
    · cases live.symm.trans (others e mem same).1
    · exact absurd (inv.each f mem).ids.1 (by rw [← id]; exact Nat.lt_irrefl _)
    · exact absurd (inv.each e mem).ids.1 (by rw [id]; exact Nat.lt_irrefl _)

def HeaderIs (s : Store) (key : Text) (h : CacheMetaHeader) : Prop :=
  ∀ m, s.names .objects key = some m → s.headers m = some h

lemma headerIs_onMeta_const (h : CacheMetaHeader) :
    HeaderIs (s.onMeta key fun _ => some h) key h := by
  intro m named
  rw [onMeta] at named ⊢
  split at named
  · rename_i m' found
    obtain rfl := Option.some.inj (found.symm.trans named)
    exact if_pos rfl
  · rename_i missing
    cases missing.symm.trans named

variable {h : CacheMetaHeader}

lemma HeaderIs.onMeta (is : HeaderIs s key h) (f : CacheMetaHeader → CacheMetaHeader) :
    HeaderIs (s.onMeta key (Option.map f)) key (f h) := by
  intro m named
  rw [Store.onMeta] at named ⊢
  split at named
  · rename_i m' found
    obtain rfl := Option.some.inj (found.symm.trans named)
    have stored : (s.setHeader m' ((s.headers m').map f)).headers m' =
      (s.headers m').map f := if_pos rfl
    rw [stored, is m' found]
    rfl
  · rename_i missing
    cases missing.symm.trans named

lemma HeaderIs.stores (is : HeaderIs s key h) (stores : List (CacheMetaHeader → CacheMetaHeader)) :
    HeaderIs (complete (stores.map fun f => Store.onMeta key (Option.map f)) s) key
      (complete stores h) := by
  induction stores generalizing s h with
  | nil => exact is
  | cons f stores ih => exact ih (is.onMeta f)

lemma headerIs_reset (t s : Store) (read : Bool)
    (stores : List (CacheMetaHeader → CacheMetaHeader)) :
    HeaderIs (complete (t.resetEffects key read stores) s) key (complete stores .zero) := by
  rw [resetEffects, complete_append, complete_append]
  exact (headerIs_onMeta_const .zero).stores stores

lemma HeaderIs.formatted (is : HeaderIs s key h) (magic : h.magic = cacheMagic)
    (version : h.version = kCacheMetaVersion) : Formatted s key :=
  fun m named => ⟨h, is m named, magic, version⟩

lemma changedAt_of_mem_reset {t : Store} {stores}
    {read f} (mem : f ∈ t.resetEffects key read stores) (s : Store) : ChangedAt key s (f s) := by
  simp only [resetEffects, mem_append, mem_cons, not_mem_nil, or_false, mem_map] at mem
  obtain mem | (rfl | rfl | rfl | rfl) | ⟨f, _, rfl⟩ := mem
  · split at mem
    · simp only [mem_cons, not_mem_nil, or_false] at mem
      obtain rfl | rfl := mem
      · exact changedAt_unlink _ s
      · exact changedAt_create _ _ s
    · cases mem
  · exact changedAt_truncateData s
  · exact changedAt_truncateData s
  all_goals exact changedAt_onMeta _ _ s

lemma changedAt_reset (t s : Store) (read : Bool)
    (stores : List (CacheMetaHeader → CacheMetaHeader)) :
    ChangedAt key s (complete (t.resetEffects key read stores) s) :=
  ChangedAt.complete (fun _ mem => changedAt_of_mem_reset mem) s

lemma FileInv.onKey (inv : FileInv s) (key : Text) (f : Entry → Entry) : FileInv (s.onKey key f) :=
  { inv with }

lemma StoreInv.ready (inv : StoreInv s) (apart : Apart s key)
    (free : s.busy key = false) : Ready key ((s.retire key).delist key) := by
  obtain ⟨entries, vacant, idle⟩ := inv.entries.vacate free
  exact ⟨(inv.files.onKey _ _).onKey _ _, entries, apart, vacant, idle⟩

lemma changedAt_createBoth (s : Store) :
    ChangedAt key s (complete [Store.create .data key, Store.create .objects key] s) :=
  (changedAt_create .data key s).trans (changedAt_create .objects key _)

lemma FileInv.header_createBoth (inv : FileInv s) {m} (named : s.names .objects key = some m) :
    (complete [Store.create .data key, Store.create .objects key] s).names .objects key = some m ∧
      (complete [Store.create .data key, Store.create .objects key] s).headers m = s.headers m := by
  have ne : m ≠ s.next := (inv.below _ _ _ (.inl named)).ne
  have name : (s.create .data key).names .objects key = some m := by
    rw [names_create_of_ne]
    · exact named
    · rintro ⟨h, _⟩
      cases h
  have header : (s.create .data key).headers m = s.headers m := by
    rw [Store.create]
    split
    · rfl
    · exact if_neg ne
  have same : complete [Store.create .data key, Store.create .objects key] s =
    s.create .data key := by
    show (s.create .data key).create .objects key = s.create .data key
    rw [Store.create.eq_1 .objects, name]
  rw [same]
  exact ⟨name, header⟩

variable {identity : CacheIdentity} {read : Bool}

lemma formatted_of_accepts (inv : FileInv s) (h : s.accepts identity = true) :
    Formatted (complete [Store.create .data identity.key, Store.create .objects identity.key] s)
      identity.key := by
  rw [accepts, header?, Option.any_eq_true] at h
  obtain ⟨header, found, accepted⟩ := h
  obtain ⟨m, named, stored⟩ := Option.bind_eq_some_iff.1 found
  obtain ⟨name, same⟩ := inv.header_createBoth named
  intro m' named'
  obtain rfl := Option.some.inj (name.symm.trans named')
  refine ⟨header, same.trans stored, ?_⟩
  simp only [cacheIdentityMatches, Bool.and_eq_true, beq_iff_eq] at accepted
  exact accepted.1.1.1.1.1.1.1.1.1.1.1.1.1.1.1.1.1

lemma Ready.openEffects (r : Ready identity.key s) (readable : read = false → Plain s identity.key)
    (intact : Bool) : Ready identity.key (complete (s.openEffects identity intact read) s) ∧
      Formatted (complete (s.openEffects identity intact read) s) identity.key := by
  have files :=
    r.files.openEffects r.apart readable intact (s.openEffects identity intact read).length
  rw [after_of_length_le le_rfl] at files
  refine ⟨r.changed ?_ files, ?_⟩
  · rw [Store.openEffects, complete_append]
    refine (changedAt_createBoth s).trans ?_
    split
    · exact .refl _ _
    · exact changedAt_reset _ _ _ _
  · rw [Store.openEffects, complete_append]
    split
    · rename_i accepted
      rw [Bool.and_eq_true] at accepted
      exact formatted_of_accepts r.files accepted.2
    · exact (headerIs_reset _ _ _ _).formatted rfl rfl

lemma Ready.createWriterEffects (r : Ready key s) (readable : read = false → Plain s key)
    (stores : List (CacheMetaHeader → CacheMetaHeader))
    (magic : (complete stores .zero).magic = cacheMagic)
    (version : (complete stores .zero).version = kCacheMetaVersion) :
    Ready key (complete (s.createWriterEffects key read stores) s) ∧
      Formatted (complete (s.createWriterEffects key read stores) s) key := by
  have files := r.files.createWriterEffects r.apart readable stores
    (s.createWriterEffects key read stores).length
  rw [after_of_length_le le_rfl] at files
  refine ⟨r.changed ?_ files, ?_⟩
  · rw [Store.createWriterEffects, complete_append]
    exact (changedAt_createBoth s).trans (changedAt_reset _ _ _ _)
  · rw [Store.createWriterEffects, complete_append]
    exact (headerIs_reset _ _ _ _).formatted magic version

lemma Ready.punchPending (r : Ready key s) (valid : Formatted s key) :
    Ready key (s.punchPending key) ∧ Formatted (s.punchPending key) key := by
  rw [Store.punchPending]
  split
  · exact ⟨r, valid⟩
  · rename_i unexported
    have plain : Plain s key := by
      refine r.files.plain r.apart (fun h => absurd h.symm Bool.false_ne_true) ?_
      by_contra marked
      obtain ⟨m, named, marked⟩ := (Option.any_eq_true _ _).1 (eq_true_of_ne_false marked)
      have flag := exported_of_marked (e := ⟨0, [], 0, m, false, false, false, false, 0, 0⟩) marked
      rw [header?, named] at unexported
      exact unexported flag
    refine ⟨r.changed (changedAt_truncateData s) (r.files.truncateData r.apart plain), ?_⟩
    intro m named
    rw [Store.truncateData] at named ⊢
    split at named <;> exact valid m named

lemma StoreInv.openKey (inv : StoreInv s) (apart : Apart s identity.key)
    (free : s.busy identity.key = false) (readable : read = false → Plain s identity.key)
    (intact : Bool) : StoreInv (s.openKey identity intact read) := by
  obtain ⟨opened, valid⟩ := (inv.ready apart free).openEffects readable intact
  obtain ⟨punched, valid⟩ := opened.punchPending valid
  exact punched.addEntry valid

lemma StoreInv.createWriter (inv : StoreInv s) (apart : Apart s key) (free : s.busy key = false)
    (readable : read = false → Plain s key) (etag versionId writeId : Text) (epoch : Nat)
    (config : WriteConfig) :
    StoreInv (s.createWriter key read (writerStores key etag versionId writeId epoch config)) := by
  obtain ⟨created, valid⟩ := (inv.ready apart free).createWriterEffects readable
    (writerStores key etag versionId writeId epoch config) rfl rfl
  exact created.addEntry valid

lemma StoreInv.recoverDirty (inv : StoreInv s) (apart : Apart s key)
    (found : s.header? key = some h) (magic : h.magic = cacheMagic)
    (version : h.version = kCacheMetaVersion)
    (unlisted : s.entries.any (fun e => e.listed && e.key == key) = false) :
    StoreInv (Store.addEntry key (Store.punchPending key s)) := by
  have none : ∀ e ∈ s.entries, e.key = key ∧ e.listed = true → False := by
    rintro e mem ⟨here, listed⟩
    have any : s.entries.any (fun e => e.listed && e.key == key) = true := by
      rw [any_eq_true]
      exact ⟨e, mem, by rw [listed, here]; exact beq_self_eq_true key⟩
    cases unlisted.symm.trans any
  have ready : Ready key s := by
    refine ⟨inv.files, inv.entries, apart, ?_, ?_⟩
    · intro e mem at_key
      by_contra live
      exact none e mem ((inv.entries.each e mem).owner (eq_false_of_ne_true live) key at_key)
    · intro e mem at_key
      by_contra busy
      exact none e mem ((inv.entries.each e mem).busyOwner busy key at_key)
  have valid : Formatted s key := by
    intro m named
    rw [header?, named] at found
    exact ⟨h, found, magic, version⟩
  obtain ⟨punched, valid⟩ := ready.punchPending valid
  exact punched.addEntry valid

end

/-! ### Removal and renaming -/

section
variable {s : Store} {key source target : Text}

lemma names_removed (tree : NameTree) : (complete (removeEffects key) s).names tree key = none := by
  cases tree with
  | data =>
    refine (names_setName_of_ne ?_).trans names_setName_self
    rintro ⟨h, _⟩
    cases h
  | objects => exact names_setName_self

variable {k : Text}

lemma names_removed_of_ne (ne : k ≠ key) (tree : NameTree) :
    (complete (removeEffects key) s).names tree k = s.names tree k :=
  (names_setName_of_ne fun h => ne h.2).trans (names_setName_of_ne fun h => ne h.2)
variable {tree : NameTree} {i : Nat}

lemma at_removed (apart : Apart s key) :
    (complete (removeEffects key) s).At tree k i ↔ k ≠ key ∧ s.At tree k i := by
  have c : ChangedAt key s (complete (removeEffects key) s) :=
    (changedAt_unlink .data s).trans (changedAt_unlink .objects _)
  by_cases same : k = key
  · subst same
    refine ⟨fun h => ?_, fun h => absurd rfl h.1⟩
    rw [at_iff_names (c.apart apart _), names_removed] at h
    cases h
  · rw [c.at_of_ne same]
    exact ⟨fun h => ⟨same, h⟩, And.right⟩

lemma release_delist (preserve : Bool) : (s.release key preserve).delist key =
    s.onKey key fun e => { s.released preserve e with listed := false } :=
  onKey_onKey (released_stays s preserve)

lemma marks_unlisted (preserve : Bool) :
    Marks fun e => { s.released preserve e with listed := false } :=
  ⟨fun e => (marks_released s preserve).same e, fun e => (marks_released s preserve).stale e⟩

lemma EntryInv.removed (inv : EntryInv s) (apart : Apart s key) (preserve : Bool) :
    EntryInv (complete (removeEffects key) ((s.release key preserve).delist key)) := by
  have m := (marks_unlisted (s := s) preserve).keyed key
  have apart' : Apart ((s.release key preserve).delist key) key := apart
  refine inv.transport (M := fun k0 k => k0 = k ∧ k ≠ key) ⟨?_, rfl, rfl, rfl, m.same, m.stale,
    ?_, ?_, ?_, fun _ h => h, fun _ h found => ⟨h, found, rfl, rfl⟩⟩
  · exact congrArg Store.entries (release_delist preserve)
  · intro tree k i h
    rw [at_removed apart'] at h
    exact ⟨k, h.2, rfl, h.1⟩
  · rintro k0 k i ⟨rfl, ne⟩ h
    rw [at_removed apart']
    exact ⟨ne, h⟩
  · rintro e mem k0 k ⟨rfl, ne⟩ here listed _
    have elsewhere : ¬(e.listed = true ∧ e.key = key) := by
      rintro ⟨_, at_key⟩
      exact ne (here.symm.trans at_key)
    rw [keyed, if_neg elsewhere]
    exact ⟨here, listed⟩

lemma FileInv.removed (inv : FileInv s) (apart : Apart s key) :
    FileInv (complete (Store.removeEffects key) s) :=
  inv.removeEffects apart 2

lemma StoreInv.remove (inv : StoreInv s) (apart : Apart s key)
    (preserve : Bool) : StoreInv (s.remove key preserve) := by
  rw [Store.remove]
  split
  · exact ⟨inv.files.onKey _ _, inv.entries.release preserve⟩
  · have files := (inv.files.onKey key (s.released preserve)).onKey key fun e =>
      { e with listed := false }
    exact ⟨files.removed apart, inv.entries.removed apart preserve⟩

lemma names_move (ne : source ≠ target) (clear : s.names tree target = none) (k : Text) :
    (s.move tree source target).names tree k =
      if k = target then s.names tree source else if k = source then none else s.names tree k := by
  cases found : s.names tree source with
  | none =>
    rw [Store.move, found]
    split_ifs with at_target at_source
    · rw [at_target]
      exact clear
    · rw [at_source]
      exact found
    · rfl
  | some i =>
    rw [Store.move, found]
    by_cases at_source : k = source
    · subst at_source
      rw [names_setName_self, if_neg ne, if_pos rfl]
    · rw [names_setName_of_ne fun h => at_source h.2]
      by_cases at_target : k = target
      · subst at_target
        rw [names_setName_self, if_pos rfl]
      · rw [names_setName_of_ne fun h => at_target h.2, if_neg at_target, if_neg at_source]

lemma names_move_of_ne {t} (ne : t ≠ tree) (k : Text) :
    (s.move tree source target).names t k = s.names t k := by
  rw [Store.move]
  split
  · exact (names_setName_of_ne fun h => ne h.1).trans (names_setName_of_ne fun h => ne h.1)
  · rfl

structure SameBut (s s' : Store) : Prop where
  aside : s'.aside = s.aside
  headers : s'.headers = s.headers
  next : s'.next = s.next
  exported : s'.exported = s.exported
  touched : s'.touched = s.touched
  entries : s'.entries = s.entries
  unlimited : s'.unlimited = s.unlimited

lemma sameBut_move (s : Store) (tree : NameTree) (source target : Text) :
    SameBut s (s.move tree source target) := by
  rw [Store.move]
  split <;> exact ⟨rfl, rfl, rfl, rfl, rfl, rfl, rfl⟩

variable {u : Store}

lemma SameBut.apart (c : SameBut s u) (apart : Apart s k) : Apart u k := by
  rw [Apart, c.aside]
  exact apart

lemma SameBut.trans {t} (first : SameBut s t) (second : SameBut t u) : SameBut s u :=
  ⟨second.aside.trans first.aside, second.headers.trans first.headers, second.next.trans first.next,
    second.exported.trans first.exported, second.touched.trans first.touched,
    second.entries.trans first.entries, second.unlimited.trans first.unlimited⟩

def Renamed (source target k0 k : Text) : Prop :=
  k0 = source ∧ k = target ∨ k0 = k ∧ k ≠ source ∧ k ≠ target

def NamesRenamed (source target : Text) (s u : Store) (tree : NameTree) : Prop :=
  ∀ k, u.names tree k =
    if k = target then s.names tree source else if k = source then none else s.names tree k

lemma at_renamed (c : SameBut s u) (apartS : s.aside tree source = none)
    (apartT : s.aside tree target = none) (names : NamesRenamed source target s u tree) :
    u.At tree k i ↔ ∃ k0, s.At tree k0 i ∧ Renamed source target k0 k := by
  rw [At, names, c.aside]
  split_ifs with at_target at_source
  · subst at_target
    refine ⟨fun h => ⟨source, ?_, .inl ⟨rfl, rfl⟩⟩, ?_⟩
    · cases h with
      | inl h => exact .inl h
      | inr h => cases apartT.symm.trans h
    · rintro ⟨k0, h, ⟨rfl, _⟩ | ⟨_, _, ne⟩⟩
      · exact .inl ((at_iff_names apartS).1 h)
      · exact absurd rfl ne
  · subst at_source
    refine ⟨fun h => ?_, ?_⟩
    · cases h with
      | inl h => cases h
      | inr h => cases apartS.symm.trans h
    · rintro ⟨k0, h, ⟨_, same⟩ | ⟨_, ne, _⟩⟩
      · exact absurd same at_target
      · exact absurd rfl ne
  · refine ⟨fun h => ⟨k, h, .inr ⟨rfl, at_source, at_target⟩⟩, ?_⟩
    rintro ⟨k0, h, ⟨_, same⟩ | ⟨rfl, _, _⟩⟩
    · exact absurd same at_target
    · exact h

lemma Renamed.unique {k0 k'} (h : Renamed source target k0 k) (h' : Renamed source target k0 k') :
    k = k' := by
  obtain ⟨rfl, rfl⟩ | ⟨rfl, ne, _⟩ := h
  · obtain ⟨_, rfl⟩ | ⟨rfl, ne, _⟩ := h'
    · rfl
    · exact absurd rfl ne
  · obtain ⟨rfl, _⟩ | ⟨rfl, _, _⟩ := h'
    · exact absurd rfl ne
    · rfl

lemma FileInv.remark (inv : FileInv s) (names : u.names = s.names) (aside : u.aside = s.aside)
    (next : u.next = s.next) (exported : u.exported = s.exported) (touched : u.touched = s.touched)
    (marked : ∀ m, s.marked m = true → u.marked m = true) : FileInv u := by
  have same : ∀ tree k i, u.At tree k i ↔ s.At tree k i := by
    intro tree k i
    rw [At, At, names, aside]
  refine ⟨?_, ?_, ?_, ?_, ?_, ?_⟩
  · intro k i h flag
    rw [exported] at flag
    obtain ⟨m, found, mark⟩ := inv.named k i ((same _ _ _).1 h) flag
    exact ⟨m, (same _ _ _).2 found, marked m mark⟩
  · intro tree k k' i h h'
    exact inv.one tree k k' i ((same _ _ _).1 h) ((same _ _ _).1 h')
  · rw [aside, names]
    exact inv.away
  · intro tree k i h
    rw [next]
    exact inv.below tree k i ((same _ _ _).1 h)
  · rw [exported, next]
    exact inv.known
  · rw [touched, exported]
    exact inv.untouched

lemma headers_rewrite (s : Store) (key : Text) (m : Nat) :
    (s.onMeta key (Option.map (rewrite key))).headers m = s.headers m ∨
      (s.onMeta key (Option.map (rewrite key))).headers m = (s.headers m).map (rewrite key) := by
  rw [Store.onMeta]
  split
  · rename_i i _
    by_cases same : m = i
    · subst same
      exact .inr (if_pos rfl)
    · exact .inl (if_neg same)
  · exact .inl rfl

lemma marked_rewrite (s : Store) (key : Text) (m : Nat) :
    (s.onMeta key (Option.map (rewrite key))).marked m = s.marked m := by
  cases headers_rewrite s key m with
  | inl same => exact marked_congr same
  | inr new =>
    rw [marked, marked, new]
    cases s.headers m with
    | none | some h => rfl

lemma FileInv.rewrite (inv : FileInv s) :
    FileInv (s.onMeta key (Option.map (Store.rewrite key))) := by
  have marks := marked_rewrite s key
  have same : ∀ {α : Type} (f : Store → α), (∀ i h, f (s.setHeader i h) = f s) →
      f (s.onMeta key (Option.map (Store.rewrite key))) = f s := by
    intro α f kept
    rw [Store.onMeta]
    split
    · exact kept _ _
    · rfl
  exact inv.remark (same _ fun _ _ => rfl) (same _ fun _ _ => rfl) (same _ fun _ _ => rfl)
    (same _ fun _ _ => rfl) (same _ fun _ _ => rfl) fun m h => (marks m).trans h

lemma FileInv.relocated (inv : FileInv s) (c : SameBut s u) (R : NameTree → Text → Text → Prop)
    (back : ∀ tree k i, u.At tree k i → ∃ k0, s.At tree k0 i ∧ R tree k0 k)
    (unique : ∀ tree k0 k k', R tree k0 k → R tree k0 k' → k = k')
    (away : ∀ tree k i, s.aside tree k = some i → u.names tree k = none)
    (named : ∀ k i, u.At .data k i → s.exported i = true →
      ∃ m, u.At .objects k m ∧ s.marked m = true) : FileInv u where
  named k i h flag := by
    rw [c.exported] at flag
    obtain ⟨m, found, mark⟩ := named k i h flag
    exact ⟨m, found, (marked_congr (by rw [c.headers])).trans mark⟩
  one tree k k' i h h' := by
    obtain ⟨k0, h, r⟩ := back tree k i h
    obtain ⟨k1, h', r'⟩ := back tree k' i h'
    obtain rfl := inv.one tree k0 k1 i h h'
    exact unique tree k0 k k' r r'
  away tree k i h := by
    rw [c.aside] at h
    exact away tree k i h
  below tree k i h := by
    rw [c.next]
    obtain ⟨k0, h, _⟩ := back tree k i h
    exact inv.below tree k0 i h
  known i h := by
    rw [c.exported] at h
    rw [c.next]
    exact inv.known i h
  untouched i h := by
    rw [c.touched] at h
    rw [c.exported]
    exact inv.untouched i h

lemma NamesRenamed.away (names : NamesRenamed source target s u tree) (inv : FileInv s)
    (apartT : s.aside tree target = none) (h : s.aside tree k = some i) :
    u.names tree k = none := by
  rw [names]
  split_ifs with at_target at_source
  · subst at_target
    cases apartT.symm.trans h
  · rfl
  · exact inv.away tree k i h

lemma FileInv.moved (inv : FileInv s) (c : SameBut s u)
    (apartS : Apart s source) (apartT : Apart s target)
    (names : ∀ tree, NamesRenamed source target s u tree) : FileInv u := by
  have back : ∀ {tree k i}, u.At tree k i ↔ ∃ k0, s.At tree k0 i ∧ Renamed source target k0 k :=
    fun {tree k i} => at_renamed c (apartS tree) (apartT tree) (names tree)
  refine inv.relocated c (fun _ => Renamed source target) (fun _ _ _ => back.1)
    (fun _ _ _ _ => Renamed.unique) (fun tree _ _ => (names tree).away inv (apartT tree)) ?_
  intro k i h flag
  obtain ⟨k0, h0, r⟩ := back.1 h
  obtain ⟨m, found, mark⟩ := inv.named k0 i h0 flag
  exact ⟨m, back.2 ⟨k0, found, r⟩, mark⟩

lemma FileInv.moveData (inv : FileInv s) (ne : source ≠ target)
    (apartS : Apart s source) (apartT : Apart s target)
    (clear : s.names .data target = none) (plain : Plain s source) :
    FileInv (s.move .data source target) := by
  have c := sameBut_move s .data source target
  have names : NamesRenamed source target s (s.move .data source target) .data :=
    names_move ne clear
  have other : ∀ k, (s.move .data source target).names .objects k = s.names .objects k :=
    names_move_of_ne fun h => by cases h
  have data : ∀ {k i}, (s.move .data source target).At .data k i ↔
      ∃ k0, s.At .data k0 i ∧ Renamed source target k0 k :=
    at_renamed c (apartS _) (apartT _) names
  have objects : ∀ {k i}, (s.move .data source target).At .objects k i ↔ s.At .objects k i := by
    intro k i
    rw [At, At, other, c.aside]
  refine inv.relocated c (fun tree k0 k => tree.casesOn (Renamed source target k0 k) (k0 = k))
    ?_ ?_ ?_ ?_
  · intro tree k i h
    cases tree with
    | data => exact data.1 h
    | objects => exact ⟨k, objects.1 h, rfl⟩
  · intro tree k0 k k' r r'
    cases tree with
    | data => exact r.unique r'
    | objects => exact r.symm.trans r'
  · intro tree k i h
    cases tree with
    | data => exact names.away inv (apartT _) h
    | objects =>
      rw [other]
      exact inv.away _ k i h
  · intro k i h flag
    obtain ⟨k0, h0, r⟩ := data.1 h
    obtain ⟨rfl, _⟩ | ⟨rfl, _, _⟩ := r
    · rw [at_iff_names (apartS _)] at h0
      cases flag.symm.trans (plain i h0)
    · obtain ⟨m, found, mark⟩ := inv.named k0 i h0 flag
      exact ⟨m, objects.2 found, mark⟩

def moveBoth (source target : Text) : List (Store → Store) :=
  [Store.move .data source target, Store.move .objects source target]

lemma sameBut_moveBoth (source target : Text) (s : Store) :
    SameBut s (complete (moveBoth source target) s) :=
  (sameBut_move s .data source target).trans (sameBut_move _ .objects source target)

lemma names_moveBoth (ne : source ≠ target) (clear : ∀ tree, s.names tree target = none)
    (tree : NameTree) :
    NamesRenamed source target s (complete (moveBoth source target) s) tree := by
  intro k
  have other : ∀ k, (s.move .data source target).names .objects k = s.names .objects k :=
    names_move_of_ne fun h => by cases h
  cases tree with
  | data =>
    refine (names_move_of_ne (fun h => by cases h) k).trans ?_
    exact names_move ne (clear .data) k
  | objects =>
    refine (names_move ne ((other target).trans (clear .objects)) k).trans ?_
    rw [other, other]

lemma FileInv.renameTail (inv : FileInv s) (apartS : Apart s source)
    (apartT : Apart s target) (succeeds : Bool) (n : Nat) :
    FileInv (after (if succeeds then [Store.onMeta target (Option.map (Store.rewrite target))]
      else Store.removeEffects source ++ Store.removeEffects target) n s) := by
  cases succeeds with
  | true =>
    refine after_cons inv (fun n => ?_) n
    rw [after_nil]
    exact inv.rewrite
  | false =>
    exact after_append (inv.removeEffects apartS) ((inv.removed apartS).removeEffects apartT) n

lemma FileInv.renameEffects (inv : FileInv s) (ne : source ≠ target)
    (apartS : Apart s source) (apartT : Apart s target) {n}
    (whole : n = 3 → Plain s source) : FileInv (after (s.renameEffects source target) n s) := by
  have cleared := inv.removed apartT
  have plain : n = 3 → Plain (complete (Store.removeEffects target) s) source := by
    intro three i h
    rw [names_removed_of_ne ne] at h
    exact whole three i h
  have same := sameBut_moveBoth source target (complete (Store.removeEffects target) s)
  have moved := cleared.moved same apartS apartT (names_moveBoth ne names_removed)
  match n, plain with
  | 0, _ => exact inv
  | 1, _ => exact inv.removeEffects apartT 1
  | 2, _ => exact cleared
  | 3, plain => exact cleared.moveData ne apartS apartT (names_removed .data) (plain rfl)
  | n + 4, _ => exact moved.renameTail (same.apart apartS) (same.apart apartT) (s.renames source) n

lemma moveBoth_absent (data : s.names .data source = none)
    (objects : s.names .objects source = none) : complete (moveBoth source target) s = s := by
  show (s.move .data source target).move .objects source target = s
  have first : s.move .data source target = s := by
    rw [Store.move, data]
  rw [first, Store.move, objects]

lemma EntryInv.renamed (inv : EntryInv s) (ne : source ≠ target)
    (apartS : Apart s source) (apartT : Apart s target)
    (clear : ∀ tree, s.names tree target = none) :
    EntryInv (((complete (moveBoth source target) s).onMeta target
      (Option.map (Store.rewrite target))).onKey source fun e => { e with key := target }) := by
  have c := sameBut_moveBoth source target s
  set u := complete (moveBoth source target) s with moved
  have r := changedAt_onMeta target (Option.map (Store.rewrite target)) u
  have names : (u.onMeta target (Option.map (Store.rewrite target))).names = u.names := by
    rw [Store.onMeta]
    split <;> rfl
  have back : ∀ {tree k i}, (u.onMeta target (Option.map (Store.rewrite target))).At tree k i ↔
      ∃ k0, s.At tree k0 i ∧ Renamed source target k0 k := by
    intro tree k i
    rw [At, names, r.aside]
    exact at_renamed c (apartS tree) (apartT tree) (names_moveBoth ne clear tree)
  have m : Marks fun e : Entry => { e with key := target } :=
    ⟨fun _ => ⟨rfl, rfl, rfl, rfl, rfl⟩, fun _ h => h⟩
  have g := m.keyed source
  refine inv.transport (M := Renamed source target) ⟨?_, r.unlimited.trans c.unlimited,
    r.exported.trans c.exported, ?_, g.same, g.stale, fun _ _ _ => back.1, ?_, ?_, ?_, ?_⟩
  · exact congrArg (map _) (r.entries.trans c.entries)
  · refine Eq.trans ?_ c.next
    show (u.onMeta target (Option.map (Store.rewrite target))).next = u.next
    rw [Store.onMeta]
    split <;> rfl
  · intro k0 k i r h
    exact back.2 ⟨k0, h, r⟩
  · rintro e _ k0 k (⟨rfl, rfl⟩ | ⟨rfl, ne, _⟩) here listed _
    · rw [keyed, if_pos ⟨listed, here⟩]
      exact ⟨rfl, listed⟩
    · have elsewhere : ¬(e.listed = true ∧ e.key = source) := fun h => ne (here.symm.trans h.2)
      rw [keyed, if_neg elsewhere]
      exact ⟨here, listed⟩
  · intro m h
    refine (marked_rewrite u target m).trans ?_
    exact (marked_congr (by rw [c.headers])).trans h
  · intro m h found
    rw [← c.headers] at found
    cases headers_rewrite u target m with
    | inl same => exact ⟨h, same.trans found, rfl, rfl⟩
    | inr new =>
      rw [found] at new
      exact ⟨_, new, rfl, rfl⟩

lemma EntryInv.rolledBack {v} (inv : EntryInv s) (c : SameBut s u)
    (apartS : Apart s source) (apartT : Apart s target)
    (names : ∀ tree, NamesRenamed source target s u tree)
    (removed : v = complete (removeEffects target) (complete (removeEffects source) u)) :
    EntryInv ((v.release source false).onKey source fun e => { e with listed := e.busy != 0 }) := by
  have back : ∀ {tree k i}, v.At tree k i ↔ k ≠ target ∧ k ≠ source ∧ s.At tree k i := by
    intro tree k i
    have apartT : Apart (complete (removeEffects source) u) target := c.apart apartT
    rw [removed, at_removed apartT, at_removed (c.apart apartS)]
    refine and_congr_right fun at_target => and_congr_right fun at_source => ?_
    rw [At, At, names, if_neg at_target, if_neg at_source, c.aside]
  have m : Marks fun e => { v.released false e with listed := (v.released false e).busy != 0 } :=
    ⟨fun e => (marks_released v false).same e, fun e => (marks_released v false).stale e⟩
  have g := m.keyed source
  refine inv.transport (M := fun k0 k => k0 = k ∧ k ≠ target ∧ k ≠ source) ⟨?_, ?_, ?_, ?_, g.same,
    g.stale, ?_, ?_, ?_, ?_, ?_⟩
  · refine Eq.trans (congrArg Store.entries (onKey_onKey (released_stays v false))) ?_
    rw [removed]
    exact congrArg (map _) c.entries
  · rw [removed]
    exact c.unlimited
  · rw [removed]
    exact c.exported
  · rw [removed]
    exact c.next
  · intro tree k i h
    have h := back.1 h
    exact ⟨k, h.2.2, rfl, h.1, h.2.1⟩
  · rintro k0 k i ⟨rfl, neT, neS⟩ h
    exact back.2 ⟨neT, neS, h⟩
  · rintro e _ k0 k ⟨rfl, _, ne⟩ here listed _
    have elsewhere : ¬(e.listed = true ∧ e.key = source) := fun h => ne (here.symm.trans h.2)
    rw [keyed, if_neg elsewhere]
    exact ⟨here, listed⟩
  · intro m h
    refine (marked_congr ?_).trans h
    rw [removed]
    exact congrFun c.headers m
  · intro m h found
    refine ⟨h, ?_, rfl, rfl⟩
    rw [removed]
    exact (congrFun c.headers m).trans found

lemma StoreInv.rename (inv : StoreInv s) (apartS : Apart s source)
    (apartT : Apart s target) : StoreInv (s.rename source target) := by
  rw [Store.rename]
  split
  · exact inv
  rename_i ne
  split
  · exact ⟨inv.files.onKey _ _, inv.entries.release false⟩
  -- the target is removed, then the source moves
  set cleared := (s.release target false).delist target
  have files : FileInv cleared := (inv.files.onKey _ _).onKey _ _
  have emptied := inv.entries.removed apartT false
  have final : FileInv (complete (s.renameEffects source target) cleared) := by
    have each : FileInv (after (s.renameEffects source target)
        (4 + (s.renameEffects source target).length) cleared) :=
      files.renameEffects ne apartS apartT fun h => by omega
    rwa [after_of_length_le (Nat.le_add_left _ _)] at each
  have shape : complete (s.renameEffects source target) cleared =
      complete (if s.renames source then [Store.onMeta target (Option.map (Store.rewrite target))]
        else removeEffects source ++ removeEffects target) (complete (moveBoth source target)
          (complete (removeEffects target) cleared)) := by
    rw [Store.renameEffects, complete_append, moveEffects, complete_append]
    rfl
  by_cases rewritable : s.rewritable source = true
  · have succeeds : s.renames source = true := by
      rw [Store.renames, rewritable, Bool.true_or]
    rw [if_pos succeeds] at shape
    rw [if_pos rewritable]
    refine ⟨final.onKey _ _, ?_⟩
    rw [shape]
    exact emptied.renamed ne apartS apartT names_removed
  · dsimp only
    rw [if_neg rewritable]
    split
    · rename_i absent
      -- there is nothing to move, and nothing to rewrite
      rw [if_pos absent] at shape
      rw [Store.renames, eq_false_of_ne_true rewritable, Bool.false_or, Bool.and_eq_true,
        Option.isNone_iff_eq_none, Option.isNone_iff_eq_none] at absent
      have same : complete (s.renameEffects source target) cleared =
          complete (removeEffects target) cleared := by
        rw [shape, moveBoth_absent]
        · show Store.onMeta _ _ _ = _
          rw [Store.onMeta, names_removed]
        · exact (names_removed_of_ne ne _).trans absent.1
        · exact (names_removed_of_ne ne _).trans absent.2
      refine ⟨final, ?_⟩
      rw [same]
      exact emptied
    · rename_i fails
      rw [if_neg fails, complete_append] at shape
      refine ⟨(final.onKey _ _).onKey _ _, ?_⟩
      exact emptied.rolledBack (sameBut_moveBoth _ _ _) apartS apartT
        (names_moveBoth ne names_removed) shape

end

end Ngs3fs.Persist
