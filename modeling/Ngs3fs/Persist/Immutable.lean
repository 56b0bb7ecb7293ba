import Ngs3fs.Persist.Live

/-!
# Exported inodes stay as they are

The calls on an entry, the promotions and the restarts keep the invariant of names and entries, so
no step writes, truncates or punches an exported inode. `rename` moves the data before the metadata
and `cache_promote_file` takes a name away; a process that dies between, or a call on the key
meanwhile, finds the inode without its flag and truncates it. -/

namespace Ngs3fs.Persist
open Store Crash Machine CacheOp List

/-! ### Calls on an entry -/

section
variable {s : Store} {e : Entry}

lemma EntryOk.unexported (ok : EntryOk s e) (live : e.stale = false)
    (flag : (s.mapped e).exported = false) : s.exported e.data = false := by
  by_contra exported
  obtain ⟨_, _, safe⟩ := ok.quiet (eq_true_of_ne_false exported)
  cases safe with
  | inl stale => cases live.symm.trans stale
  | inr marked => cases flag.symm.trans (exported_of_marked marked)

/-- A call that changes what works on an entry. -/
structure Works (f : Entry → Entry) (s : Store) (e : Entry) : Prop where
  same : f e = { e with
    evictionDisabled := (f e).evictionDisabled, busy := (f e).busy, evictions := (f e).evictions }
  quiet : s.exported e.data = true → (f e).busy = 0 ∧ (f e).evictions = 0
  mode : s.unlimited = true → (f e).evictions = 0
  busy : (f e).busy ≠ 0 → e.stale = false ∨ e.busy ≠ 0

lemma EntryOk.works {f} (ok : EntryOk s e) (w : Works f s e) : EntryOk s (f e) := by
  obtain ⟨same, quiet, mode, busy⟩ := w
  rw [same]
  refine { ok with quiet := fun exported => ?_, mode := mode, busyOwner := fun active k h => ?_ }
  · obtain ⟨idle, still⟩ := quiet exported
    exact ⟨idle, still, (ok.quiet exported).2.2⟩
  · cases busy active with
    | inl live => exact ok.owner live k (.inl h)
    | inr active => exact ok.busyOwner active k h

section
variable (inv : StoreInv s)
include inv

lemma StoreInv.touches {touched : List Nat} (untouched : ∀ i ∈ touched, s.exported i = false) :
    StoreInv { s with touched } :=
  ⟨{ inv.files with untouched },
    { inv.entries with each := fun e mem => { inv.entries.each e mem with } }⟩

lemma StoreInv.touch {i} (unexported : s.exported i = false) : StoreInv (s.touch i) :=
  inv.touches (forall_mem_cons.2 ⟨unexported, inv.files.untouched⟩)

lemma StoreInv.onEntry (mem : e ∈ s.entries) {f} (w : Works f s e) :
    StoreInv (s.onEntry e.id f) := by
  obtain ⟨files, inv⟩ := inv
  have image : ∀ e' ∈ (s.onEntry e.id f).entries, e' = f e ∨ e' ∈ s.entries ∧ e'.id ≠ e.id := by
    intro e' mem'
    obtain ⟨e0, mem0, rfl⟩ := mem_map.1 mem'
    by_cases id : e0.id = e.id
    · rw [if_pos id, inv.unique e0 mem0 e mem id]
      exact .inl rfl
    · rw [if_neg id]
      exact .inr ⟨mem0, id⟩
  have id : (f e).id = e.id := by rw [w.same]
  have data : (f e).data = e.data := by rw [w.same]
  have stale : (f e).stale = e.stale := by rw [w.same]
  refine ⟨{ files with }, ⟨fun e' mem' => ?_, ?_, ?_⟩⟩
  · obtain rfl | ⟨old, _⟩ := image e' mem'
    · exact { (inv.each e mem).works w with }
    · exact { inv.each e' old with }
  · intro e' mem' f' memf' live same id'
    obtain rfl | ⟨old, _⟩ := image e' mem'
    · obtain rfl | ⟨oldf, _⟩ := image f' memf'
      · exact absurd rfl id'
      · rw [stale] at live
        rw [data] at same
        rw [id] at id'
        exact inv.alone e mem f' oldf live same id'
    · obtain rfl | ⟨oldf, _⟩ := image f' memf'
      · rw [data] at same
        rw [id] at id'
        obtain ⟨isStale, idle⟩ := inv.alone e' old e mem live same id'
        refine ⟨stale.trans isStale, ?_⟩
        by_contra active
        cases w.busy active with
        | inl live => cases live.symm.trans isStale
        | inr active => exact active idle
      · exact inv.alone e' old f' oldf live same id'
  · intro e' mem' f' memf' same
    obtain rfl | ⟨old, ne⟩ := image e' mem'
    · obtain rfl | ⟨_, nef⟩ := image f' memf'
      · rfl
      · exact absurd (same.symm.trans id) nef
    · obtain rfl | ⟨oldf, _⟩ := image f' memf'
      · exact absurd (same.trans id) ne
      · exact inv.unique e' old f' oldf same

lemma StoreInv.store (m : Nat) {f}
    (kept : ∀ h, (f h).magic = h.magic ∧ (f h).version = h.version ∧
      (h.exported = true → (f h).exported =
        true)) : StoreInv (s.setHeader m ((s.headers m).map f)) := by
  obtain ⟨files, entries⟩ := inv
  have headers : ∀ i h, s.headers i = some h → ∃ h',
    (s.setHeader m ((s.headers m).map f)).headers i =
      some h' ∧ h'.magic = h.magic ∧ h'.version = h.version ∧
        (h.exported = true → h'.exported = true) := by
    intro i h found
    by_cases same : i = m
    · subst same
      refine ⟨f h, ?_, kept h⟩
      refine (if_pos rfl).trans ?_
      rw [found, Option.map_some]
    · exact ⟨h, (if_neg same).trans found, rfl, rfl, id⟩
  have marked : ∀ i, s.marked i = true → (s.setHeader m ((s.headers m).map f)).marked i = true := by
    intro i mark
    cases found : s.headers i with
    | none =>
      rw [Store.marked, found] at mark
      cases mark
    | some h =>
      obtain ⟨h', found', magic, version, flag⟩ := headers i h found
      rw [marked_of_header found, Bool.and_eq_true, Bool.and_eq_true] at mark
      rw [marked_of_header found', Bool.and_eq_true, Bool.and_eq_true, magic, version]
      exact ⟨mark.1, flag mark.2⟩
  refine ⟨files.remark rfl rfl rfl rfl rfl marked, { entries with
    each := fun e mem =>
      { entries.each e mem with quiet := fun exported => ?_, valid := fun live => ?_ } }⟩
  · obtain ⟨busy, evictions, safe⟩ := (entries.each e mem).quiet exported
    exact ⟨busy, evictions, safe.imp id (marked _)⟩
  · obtain ⟨h, found, magic, version⟩ := (entries.each e mem).valid live
    obtain ⟨h', found', magic', version', _⟩ := headers _ h found
    exact ⟨h', found', magic'.trans magic, version'.trans version⟩

lemma StoreInv.setDirty (dirty : Bool) (e : Entry) : StoreInv (s.setDirty dirty e) :=
  inv.store e.metadata fun _ => ⟨rfl, rfl, id⟩

/-- The flag is on the metadata of every key that names the inode, and every other entry on it is
stale. -/
lemma StoreInv.export (mem : e ∈ s.entries) (unlimited : s.unlimited = true)
    (live : e.stale = false) (idle : e.busy = 0) (clean : s.touched = []) :
    StoreInv (s.export e) := by
  have ok := inv.entries.each e mem
  obtain ⟨h, found, magic, version⟩ := ok.valid live
  have flagged : StoreInv (s.setHeader e.metadata ((s.headers e.metadata).map
      fun h => { h with exported := true })) :=
    inv.store e.metadata fun _ => ⟨rfl, rfl, fun _ => rfl⟩
  have noted := flagged.onEntry (e := e) mem (f := fun e => { e with evictionDisabled := true })
    ⟨rfl, fun _ => ⟨idle, ok.mode unlimited⟩, fun _ => ok.mode unlimited, fun active =>
      absurd idle active⟩
  have mark : (s.export e).marked e.metadata = true := by
    have stored : (s.export e).headers e.metadata = some { h with exported := true } := by
      refine (if_pos rfl).trans ?_
      rw [found, Option.map_some]
    rw [marked_of_header stored, magic, version]
    rfl
  have exported : ∀ i, (s.export e).exported i = true ↔ i = e.data ∨ s.exported i = true := by
    intro i
    show (i == e.data || s.exported i) = true ↔ _
    rw [Bool.or_eq_true, beq_iff_eq]
  obtain ⟨files, entries⟩ := noted
  refine ⟨⟨?_, files.one, files.away, files.below, ?_, ?_⟩, { entries with
    each := fun f' memf => { entries.each f' memf with quiet := fun flag => ?_ } }⟩
  · intro k i h flag
    obtain rfl | flag := (exported i).1 flag
    · exact ⟨e.metadata, ok.paired live k h, mark⟩
    · exact files.named k i h flag
  · intro i flag
    obtain rfl | flag := (exported i).1 flag
    · exact ok.ids.2.1
    · exact files.known i flag
  · intro i mem
    have mem : i ∈ s.touched := mem
    rw [clean] at mem
    cases mem
  · obtain same | flag := (exported f'.data).1 flag
    · obtain ⟨f, old, rfl⟩ := mem_map.1 memf
      have still := (inv.entries.each f old).mode unlimited
      by_cases id : f.id = e.id
      · rw [if_pos id, inv.entries.unique f old e mem id]
        exact ⟨idle, ok.mode unlimited, .inr mark⟩
      · rw [if_neg id] at same ⊢
        obtain ⟨stale, quiet⟩ := inv.entries.alone e mem f old live same.symm fun h => id h.symm
        exact ⟨quiet, still, .inl stale⟩
    · exact (entries.each f' memf).quiet flag

lemma StoreInv.call {s'} (clean : s.touched = []) (mem : e ∈ s.entries) (call : EntryCall)
    (h : call.step s e = some s') : StoreInv s' := by
  have ok := inv.entries.each e mem
  have evicting : s.evictable e = true → s.unlimited = false ∧ s.exported e.data = false := by
    intro h
    simp only [evictable, Bool.and_eq_true, Bool.not_eq_true'] at h
    exact ⟨h.1.1.1.1, ok.unexported h.1.1.1.2 h.2⟩
  have claiming : e.stale = false → (s.mapped e).exported = false →
      StoreInv (s.onEntry e.id fun e => { e with busy := e.busy + 1 }) := by
    intro live flag
    refine inv.onEntry mem ⟨rfl, fun exported => ?_, ok.mode, fun _ => .inl live⟩
    cases (ok.unexported live flag).symm.trans exported
  have working : e.busy ≠ 0 → s.exported e.data = false := by
    intro busy
    by_contra exported
    exact busy (ok.quiet (eq_true_of_ne_false exported)).1
  cases call <;> simp only [EntryCall.step, Option.ite_none_right_eq_some,
    Option.some.injEq] at h <;>
    obtain ⟨guard, rfl⟩ := h
  case claimFetch =>
    simp only [Bool.and_eq_true, Bool.not_eq_true'] at guard
    exact claiming guard.1.1 guard.2
  case claimChecksum =>
    simp only [Bool.and_eq_true, Bool.not_eq_true'] at guard
    exact claiming guard.1 guard.2
  case transfer => exact inv.touch (working guard)
  case finish =>
    refine (inv.touch (working guard)).onEntry (e := e) mem
      ⟨rfl, fun exported => ?_, ok.mode, fun _ => .inr guard⟩
    cases (working guard).symm.trans exported
  case evictOneRegion => exact inv.touch (evicting guard).2
  case claimLiveRegion =>
    obtain ⟨limited, unexported⟩ := evicting guard
    refine inv.onEntry mem ⟨rfl, fun exported => ?_, fun unlimited => ?_, .inr⟩
    · cases unexported.symm.trans exported
    · cases limited.symm.trans unlimited
  case punchRegion =>
    refine inv.touch ?_
    by_contra exported
    exact guard (ok.quiet (eq_true_of_ne_false exported)).2.1
  case finishEviction =>
    exact inv.onEntry mem ⟨rfl, fun exported => absurd (ok.quiet exported).2.1 guard,
      fun unlimited => absurd (ok.mode unlimited) guard, .inr⟩
  case tryExport settled =>
    simp only [Bool.and_eq_true, Bool.not_eq_true', beq_iff_eq] at guard
    exact inv.export mem guard.1.1.1.1.1 guard.1.1.1.1.2 guard.1.2 clean
  case write =>
    simp only [Bool.and_eq_true, Bool.not_eq_true'] at guard
    exact (inv.touch (ok.unexported guard.1 guard.2)).setDirty true e
  case beginWrite => exact inv.setDirty true e
  case commitWrite => exact inv.setDirty false e
  case close =>
    obtain ⟨files, entries⟩ := inv
    have old : ∀ f ∈ s.entries.filter (fun f => f.id != e.id), f ∈ s.entries := fun f h =>
      mem_of_mem_filter h
    exact ⟨{ files with }, ⟨fun f h => { entries.each f (old f h) with },
      fun f h g h' => entries.alone f (old f h) g (old g h'),
      fun f h g h' => entries.unique f (old f h) g (old g h')⟩⟩

end

end

/-! ### Promotions and restarts -/

section
variable {s s' : Store}

lemma StoreInv.relabel (inv : StoreInv s) (same : ∀ tree k i, s'.At tree k i ↔ s.At tree k i)
    (away : ∀ tree k i, s'.aside tree k = some i → s'.names tree k = none)
    (rest : s' = { s with names := s'.names, aside := s'.aside }) : StoreInv s' := by
  obtain ⟨files, entries⟩ := inv
  rw [rest] at same away ⊢
  refine ⟨⟨?_, ?_, away, ?_, files.known, files.untouched⟩, { entries with
    each := fun e mem => { entries.each e mem with
      owner := fun live k h => ?_
      busyOwner := fun busy k h => ?_
      paired := fun live k h => ?_ } }⟩
  · intro k i h exported
    obtain ⟨m, found, marked⟩ := files.named k i ((same _ _ _).1 h) exported
    exact ⟨m, (same _ _ _).2 found, marked⟩
  · intro tree k k' i h h'
    exact files.one tree k k' i ((same _ _ _).1 h) ((same _ _ _).1 h')
  · intro tree k i h
    exact files.below tree k i ((same _ _ _).1 h)
  · exact (entries.each e mem).owner live k (h.imp (same _ _ _).1 (same _ _ _).1)
  · exact (entries.each e mem).busyOwner busy k ((same _ _ _).1 h)
  · exact (same _ _ _).2 ((entries.each e mem).paired live k ((same _ _ _).1 h))

variable {tree : NameTree} {key : Text}

lemma StoreInv.move (inv : StoreInv s) {named aside}
    (same : ∀ j, named = some j ∨ aside = some j ↔ At s tree key j)
    (away : ∀ j, aside = some j → named = none) :
    StoreInv ((s.setName tree key named).setAside tree key aside) := by
  refine inv.relabel ?_ ?_ rfl
  · intro t k j
    show (if t = tree ∧ k = key then named else s.names t k) = some j ∨
      (if t = tree ∧ k = key then aside else s.aside t k) = some j ↔ _
    split
    · rename_i here
      obtain ⟨rfl, rfl⟩ := here
      exact same j
    · rfl
  · intro t k j
    show (if t = tree ∧ k = key then aside else s.aside t k) = some j →
      (if t = tree ∧ k = key then named else s.names t k) = none
    split
    · exact away j
    · exact inv.files.away t k j

lemma StoreInv.promoteBegin (inv : StoreInv s) {i} (named : s.names tree key = some i)
    (here : s.aside tree key = none) :
    StoreInv ((s.setName tree key none).setAside tree key (some i)) := by
  refine inv.move (fun j => ?_) fun _ _ => rfl
  rw [At, named, here]
  simp

lemma StoreInv.promoteEnd (inv : StoreInv s) {i} (away : s.aside tree key = some i) :
    StoreInv ((s.setName tree key (some i)).setAside tree key none) := by
  refine inv.move (fun j => ?_) nofun
  rw [At, inv.files.away tree key i away, away]
  simp

lemma FileInv.restart (inv : FileInv s) (unlimited : Bool)
    (here : ∀ key i, s.names .data key = some i → s.exported i = true →
      s.aside .objects key = none) :
    StoreInv (s.restart unlimited) := by
  have at_restart : ∀ {tree k i}, (s.restart unlimited).At tree k i ↔ s.names tree k = some i := by
    intro tree k i
    show s.names tree k = some i ∨ none = some i ↔ _
    simp
  refine ⟨⟨?_, ?_, ?_, ?_, inv.known, inv.untouched⟩, ⟨nofun, nofun, nofun⟩⟩
  · intro k i h exported
    have h := at_restart.1 h
    obtain ⟨m, found, marked⟩ := inv.named k i (.inl h) exported
    exact ⟨m, at_restart.2 ((at_iff_names (here k i h exported)).1 found), marked⟩
  · intro tree k k' i h h'
    exact inv.one tree k k' i (.inl (at_restart.1 h)) (.inl (at_restart.1 h'))
  · intro tree k i h
    cases h
  · intro tree k i h
    exact inv.below tree k i (.inl (at_restart.1 h))

/-- The keys whose names an operation looks up. -/
def CacheOp.keys : CacheOp → List Text
  | .openKey identity _ _ => [identity.key]
  | .createWriter key _ _ _ _ _ => [key]
  | .recoverDirty key => [key]
  | .remove key _ => [key]
  | .rename source target => [source, target]
  | _ => []

/-- The old header can be read, where it is read. -/
def CacheOp.reads : CacheOp → Bool
  | .openKey _ _ read | .createWriter _ _ _ _ _ read => read
  | _ => true

/-- Steps that keep an exported inode under its flag: no operation on a key a promotion is at, no
failing read of the header of an exported inode, no death while its metadata is promoted, and none
between the two moves of a rename of one. -/
structure Orderly (s : Store) (step : CacheStep) : Prop where
  apart : ∀ key ∈ step.op.keys, ∀ tree, s.aside tree key = none
  readable : step.op.reads = false → ∀ key ∈ step.op.keys, Plain s key
  whole : step.death ≠ none → ∀ key i, s.names .data key = some i → s.exported i = true →
    s.aside .objects key = none
  together : ∀ source target unlimited, step.op = .rename source target →
    step.death = some (3, unlimited) → ∀ i, s.names .data source = some i → s.exported i = false

structure Outside (keys : List Text) (s t : Store) : Prop where
  aside : t.aside = s.aside
  exported : t.exported = s.exported
  names : ∀ tree k, k ∉ keys → t.names tree k = s.names tree k

lemma Outside.changed {keys t u} (o : Outside keys s t) (mem : key ∈ keys)
    (c : ChangedAt key t u) : Outside keys s u := by
  refine ⟨c.aside.trans o.aside, c.exported.trans o.exported, ?_⟩
  intro tree k out
  have ne : k ≠ key := fun h => out (h ▸ mem)
  exact (c.names tree k ne).trans (o.names tree k out)

lemma Outside.move {t source target} (o : Outside [source, target] s t) (tree : NameTree) :
    Outside [source, target] s (t.move tree source target) := by
  have c := sameBut_move t tree source target
  refine ⟨c.aside.trans o.aside, c.exported.trans o.exported, ?_⟩
  intro tree' k out
  simp only [mem_cons, not_mem_nil, or_false, not_or] at out
  refine Eq.trans ?_ (o.names tree' k (by simp [out]))
  rw [Store.move]
  split
  · exact (names_setName_of_ne fun h => out.1 h.2).trans (names_setName_of_ne fun h => out.2 h.2)
  · rfl

lemma CacheOp.outside (op : CacheOp) (s : Store) (n : Nat) :
    Outside op.keys s (after (op.effects s) n s) := by
  refine after_inv (I := Outside op.keys s) ?_ ⟨rfl, rfl, fun _ _ _ => rfl⟩
  intro f mem t o
  cases op <;> simp only [effects, not_mem_nil, Bool.or_eq_true, decide_eq_true_eq] at mem
  case openKey identity intact read =>
    have here : identity.key ∈ (openKey identity intact read).keys := mem_cons_self
    refine o.changed here ?_
    split at mem
    · cases mem
    simp only [Store.openEffects, mem_append, mem_cons, not_mem_nil, or_false] at mem
    obtain (rfl | rfl) | mem := mem
    · exact changedAt_create _ _ t
    · exact changedAt_create _ _ t
    · split at mem
      · cases mem
      · exact changedAt_of_mem_reset mem t
  case createWriter key etag versionId writeId config read =>
    have here : key ∈ (createWriter key etag versionId writeId config read).keys :=
      mem_cons_self
    refine o.changed here ?_
    split at mem
    · cases mem
    simp only [Store.createWriterEffects, mem_append, mem_cons, not_mem_nil, or_false] at mem
    obtain (rfl | rfl) | mem := mem
    · exact changedAt_create _ _ t
    · exact changedAt_create _ _ t
    · exact changedAt_of_mem_reset mem t
  case remove key preserve =>
    have here : key ∈ (remove key preserve).keys := mem_cons_self
    refine o.changed here ?_
    split at mem
    · cases mem
    simp only [Store.removeEffects, mem_cons, not_mem_nil, or_false] at mem
    obtain rfl | rfl := mem
    all_goals exact changedAt_unlink _ t
  case rename source target =>
    have atS : source ∈ (rename source target).keys := mem_cons_self
    have atT : target ∈ (rename source target).keys := mem_cons_of_mem _ mem_cons_self
    split at mem
    · cases mem
    simp only [Store.renameEffects, moveEffects, Store.removeEffects, mem_append, mem_cons,
      not_mem_nil, or_false] at mem
    obtain ((rfl | rfl) | rfl | rfl) | mem := mem
    · exact o.changed atT (changedAt_unlink _ t)
    · exact o.changed atT (changedAt_unlink _ t)
    · exact o.move .data
    · exact o.move .objects
    · split at mem
      · simp only [mem_cons, not_mem_nil, or_false] at mem
        obtain rfl := mem
        exact o.changed atT (changedAt_onMeta _ _ t)
      · simp only [mem_append, mem_cons, not_mem_nil, or_false] at mem
        obtain (rfl | rfl) | rfl | rfl := mem
        · exact o.changed atS (changedAt_unlink _ t)
        · exact o.changed atS (changedAt_unlink _ t)
        all_goals exact o.changed atT (changedAt_unlink _ t)

variable {op : CacheOp}

lemma StoreInv.effects (inv : StoreInv s) (apart : ∀ key ∈ op.keys, Apart s key)
    (readable : op.reads = false → ∀ key ∈ op.keys, Plain s key) {n}
    (together : ∀ source target, op = .rename source target → n = 3 → Plain s source) :
    FileInv (after (op.effects s) n s) := by
  have nothing : FileInv (after [] n s) := by
    rw [after_nil]
    exact inv.files
  cases op with
  | openKey identity intact read =>
    rw [effects]
    split
    · exact nothing
    · exact inv.files.openEffects (apart _ mem_cons_self)
        (fun unread => readable unread _ mem_cons_self) intact n
  | createWriter key etag versionId writeId config read =>
    rw [effects]
    split
    · exact nothing
    · exact inv.files.createWriterEffects (apart _ mem_cons_self)
        (fun unread => readable unread _ mem_cons_self) _ n
  | remove key preserve =>
    rw [effects]
    split
    · exact nothing
    · exact inv.files.removeEffects (apart _ mem_cons_self) n
  | rename source target =>
    rw [effects]
    split
    · exact nothing
    · rename_i guard
      simp only [Bool.or_eq_true, decide_eq_true_eq, not_or] at guard
      exact inv.files.renameEffects guard.1 (apart _ mem_cons_self)
        (apart _ (mem_cons_of_mem _ mem_cons_self)) (together source target rfl)
  | idle | entry _ _ | recoverDirty _ | promoteBegin _ _ | promoteEnd _ _ => exact nothing

lemma StoreInv.operation (inv : StoreInv s) (clean : s.touched = [])
    (apart : ∀ key ∈ op.keys, Apart s key)
    (readable : op.reads = false → ∀ key ∈ op.keys, Plain s key) (h : op.step s = some s') :
    StoreInv s' := by
  cases op with
  | idle =>
    cases h
    exact inv
  | entry id call =>
    obtain ⟨e, found, h⟩ := Option.bind_eq_some_iff.1 h
    exact inv.call clean (mem_of_find?_eq_some found) call h
  | openKey identity intact read =>
    rw [step] at h
    split at h
    · cases h
      exact inv
    split at h
    · cases h
      exact ⟨inv.files.onKey _ _, inv.entries.retire⟩
    · rename_i free
      cases h
      exact inv.openKey (apart _ mem_cons_self) (eq_false_of_ne_true free)
        (fun unread => readable unread _ mem_cons_self) intact
  | createWriter key etag versionId writeId config read =>
    rw [step] at h
    split at h
    · cases h
      exact ⟨inv.files.onKey _ _, inv.entries.retire⟩
    · rename_i free
      cases h
      exact inv.createWriter (apart _ mem_cons_self) (eq_false_of_ne_true free)
        (fun unread => readable unread _ mem_cons_self) _ _ _ _ _
  | recoverDirty key =>
    rw [step] at h
    split at h
    · rename_i header found
      obtain ⟨guard, h⟩ := Option.ite_none_right_eq_some.1 h
      simp only [Bool.and_eq_true, beq_iff_eq, Bool.not_eq_true'] at guard
      cases h
      exact inv.recoverDirty (apart _ mem_cons_self) found guard.1.1.1 guard.1.1.2 guard.2
    · cases h
  | remove key preserve =>
    cases h
    exact inv.remove (apart _ mem_cons_self) preserve
  | rename source target =>
    cases h
    exact inv.rename (apart _ mem_cons_self) (apart _ (mem_cons_of_mem _ mem_cons_self))
  | promoteBegin tree key =>
    rw [step] at h
    split at h
    · rename_i named here
      cases h
      exact inv.promoteBegin named here
    · cases h
  | promoteEnd tree key =>
    rw [step] at h
    split at h
    · rename_i away
      cases h
      exact inv.promoteEnd away
    · cases h

lemma StoreInv.step {step} (inv : StoreInv s) (orderly : Orderly s step)
    (h : storeStep s step = some s') : StoreInv s' := by
  have fresh : StoreInv { s with touched := [] } := inv.touches nofun
  obtain ⟨op, death⟩ := step
  cases death with
  | none => exact fresh.operation rfl orderly.apart orderly.readable h
  | some death =>
    obtain ⟨n, unlimited⟩ := death
    cases h
    have files :=
      fresh.effects (n := n) orderly.apart orderly.readable fun source target same three =>
      orderly.together source target unlimited same (by rw [three])
    have o := op.outside { s with touched := [] } n
    refine files.restart unlimited ?_
    intro key i named exported
    rw [o.aside]
    by_cases mem : key ∈ op.keys
    · exact orderly.apart key mem .objects
    · rw [o.names .data key mem] at named
      rw [o.exported] at exported
      exact orderly.whole nofun key i named exported

lemma storeInv_empty (unlimited : Bool) : StoreInv (emptyStore unlimited) := by
  refine ⟨⟨?_, ?_, nofun, ?_, nofun, nofun⟩, ⟨nofun, nofun, nofun⟩⟩
  · rintro key i (h | h)
    all_goals cases h
  · rintro tree key key' i (h | h)
    all_goals cases h
  · rintro tree key i (h | h)
    all_goals cases h

/-- In every run whose steps keep exported inodes under their flag, no step writes, truncates or
punches a data inode that `try_export` has accepted. -/
theorem exported_untouched {unlimited : Bool} {steps : List CacheStep}
    (orderly : Machine.Along storeStep Orderly (emptyStore unlimited) steps)
    (ran : run storeStep (emptyStore unlimited) steps = some s) :
    ∀ i ∈ s.touched, s.exported i = false :=
  (run_inv_along (fun _ _ _ inv cond h =>
    StoreInv.step inv cond h) (storeInv_empty unlimited) orderly
    ran).files.untouched

lemma orderly_of_settled (settled : s.aside = fun _ _ => none) (reads : op.reads = true) :
    Orderly s ⟨op, none⟩ := by
  refine ⟨fun key _ tree => ?_, fun unread => ?_, nofun, nofun⟩
  · rw [settled]
  · cases reads.symm.trans unread

def fiveBytes (key : Text) : CacheIdentity := ⟨key, [1], [], 5, 0⟩

def exportSteps : List CacheStep :=
  [⟨.openKey (fiveBytes [97]) true true, none⟩, ⟨.entry 2 .claimFetch, none⟩,
    ⟨.entry 2 .transfer, none⟩,
    ⟨.entry 2 .finish, none⟩, ⟨.entry 2 (.tryExport true), none⟩]

theorem exported_untouched_reopened :
    let s := final storeStep (emptyStore true)
      (exportSteps ++ [⟨.openKey ⟨[97], [2], [], 5, 0⟩ true true, none⟩])
    s.exported 0 = true ∧ ∀ i ∈ s.touched, s.exported i = false := by
  refine ⟨by decide +kernel, ?_⟩
  refine @exported_untouched _ true _ ?_ (run_final (by decide +kernel))
  refine .cons rfl (orderly_of_settled rfl rfl) ?_
  refine .cons rfl (orderly_of_settled rfl rfl) ?_
  refine .cons rfl (orderly_of_settled rfl rfl) ?_
  refine .cons rfl (orderly_of_settled rfl rfl) ?_
  refine .cons rfl (orderly_of_settled rfl rfl) ?_
  exact ⟨orderly_of_settled rfl rfl, fun _ _ => trivial⟩

/-- The daemon dies between the two moves of a rename; the next `open` of the new key finds the
exported inode without its metadata and truncates it. -/
theorem exported_truncated_after_rename :
    let s := final storeStep (emptyStore true)
      (exportSteps ++
        [⟨.rename [97] [98], some (3, true)⟩, ⟨.openKey (fiveBytes [98]) true true, none⟩])
    (run storeStep (emptyStore true) (exportSteps ++
      [⟨.rename [97] [98], some (3, true)⟩,
        ⟨.openKey (fiveBytes [98]) true true, none⟩])).isSome = true ∧
      0 ∈ s.touched ∧ s.exported 0 = true := by
  decide +kernel

end

end Ngs3fs.Persist
