import Ngs3fs.Persist.Inodes

/-!
# Names keep the flag of an exported inode

An exported inode is named only by a key whose metadata has the flag (`FileInv`). The lemmas follow
the system calls of `open`, `create_writer` and `remove` one by one, so that the invariant holds
wherever a process dies. A call at one key is described by what it may change (`ChangedAt`). -/

namespace Ngs3fs.Persist
open Cache Store Crash List

structure FileInv (s : Store) : Prop where
  named : ∀ key i, s.At .data key i → s.exported i = true → ∃ m, s.At .objects key m ∧
    s.marked m = true
  one : ∀ tree key key' i, s.At tree key i → s.At tree key' i → key = key'
  away : ∀ tree key i, s.aside tree key = some i → s.names tree key = none
  below : ∀ tree key i, s.At tree key i → i < s.next
  known : ∀ i, s.exported i = true → i < s.next
  untouched : ∀ i ∈ s.touched, s.exported i = false

def Apart (s : Store) (key : Text) : Prop := ∀ tree, s.aside tree key = none

/-! ### Names -/

section
variable {s : Store} {tree t : NameTree} {key k : Text} {i : Nat} {inode : Option Nat}

lemma names_setName_self : (s.setName tree key inode).names tree key = inode :=
  if_pos ⟨rfl, rfl⟩

lemma names_setName_of_ne (h : ¬(t = tree ∧ k = key)) :
    (s.setName tree key inode).names t k = s.names t k :=
  if_neg h

lemma names_create_of_ne (h : ¬(t = tree ∧ k = key)) :
    (s.create tree key).names t k = s.names t k := by
  rw [create]
  split
  · rfl
  · exact if_neg h

lemma at_iff_names (apart : s.aside tree key = none) :
    s.At tree key i ↔ s.names tree key = some i := by
  refine or_iff_left ?_
  intro h
  cases apart.symm.trans h

end

/-! ### Marks -/

section
variable {s : Store} {m : Nat} {h : CacheMetaHeader}

lemma marked_congr {s' : Store} (same : s'.headers m = s.headers m) : s'.marked m = s.marked m := by
  rw [marked, marked, same]

lemma marked_of_header (found : s.headers m = some h) :
    s.marked m = (h.magic == cacheMagic && h.version == kCacheMetaVersion && h.exported) := by
  rw [marked, found]

lemma exported_of_marked {e} (marked : s.marked e.metadata = true) :
    (s.mapped e).exported = true := by
  rw [Store.marked] at marked
  rw [mapped]
  split at marked
  · rename_i h found
    rw [found]
    simp only [Bool.and_eq_true] at marked
    exact marked.2
  · cases marked

end

/-! ### Changes at one key -/

structure ChangedAt (key : Text) (s s' : Store) : Prop where
  entries : s'.entries = s.entries
  unlimited : s'.unlimited = s.unlimited
  exported : s'.exported = s.exported
  aside : s'.aside = s.aside
  next : s.next ≤ s'.next
  names : ∀ tree k, k ≠ key → s'.names tree k = s.names tree k
  own : ∀ tree i, s'.names tree key = some i → s.names tree key = some i ∨ s.next ≤ i ∧ i < s'.next
  headers : ∀ i, s'.headers i = s.headers i ∨ s.names .objects key = some i ∨ s.next ≤ i

namespace ChangedAt
variable {key : Text} {s s' s'' : Store}

lemma refl (key : Text) (s : Store) : ChangedAt key s s where
  entries := rfl
  unlimited := rfl
  exported := rfl
  aside := rfl
  next := le_rfl
  names _ _ _ := rfl
  own _ _ h := .inl h
  headers _ := .inl rfl

lemma trans (first : ChangedAt key s s') (second : ChangedAt key s' s'') : ChangedAt key s s'' where
  entries := second.entries.trans first.entries
  unlimited := second.unlimited.trans first.unlimited
  exported := second.exported.trans first.exported
  aside := second.aside.trans first.aside
  next := first.next.trans second.next
  names tree k ne := (second.names tree k ne).trans (first.names tree k ne)
  own tree i h := by
    have n1 := first.next
    have n2 := second.next
    cases second.own tree i h with
    | inl h =>
      cases first.own tree i h with
      | inl h => exact .inl h
      | inr h => exact .inr ⟨h.1, by omega⟩
    | inr h => exact .inr ⟨by omega, h.2⟩
  headers i := by
    have n1 := first.next
    cases second.headers i with
    | inl h =>
      cases first.headers i with
      | inl h' => exact .inl (h.trans h')
      | inr h' => exact .inr h'
    | inr h =>
      refine .inr ?_
      cases h with
      | inl h =>
        cases first.own .objects i h with
        | inl h => exact .inl h
        | inr h => exact .inr h.1
      | inr h => exact .inr (n1.trans h)

lemma complete {effects} (each : ∀ f ∈ effects, ∀ s, ChangedAt key s (f s))
    (s : Store) : ChangedAt key s (complete effects s) := by
  induction effects generalizing s with
  | nil => exact refl key s
  | cons f effects ih =>
    have rest := ih (fun g mem => each g (mem_cons_of_mem _ mem)) (f s)
    exact (each f mem_cons_self s).trans rest

lemma apart (c : ChangedAt key s s') {k} (apart : Apart s k) : Apart s' k := by
  rw [Apart, c.aside]
  exact apart

lemma at_of_ne (c : ChangedAt key s s') {tree k i} (ne : k ≠ key) :
    s'.At tree k i ↔ s.At tree k i := by
  rw [At, At, c.names tree k ne, c.aside]

lemma at_cases (c : ChangedAt key s s') {tree k i} (h : s'.At tree k i) :
    s.At tree k i ∨ k = key ∧ s.next ≤ i ∧ i < s'.next := by
  by_cases same : k = key
  · subst same
    cases h with
    | inl h =>
      cases c.own tree i h with
      | inl h => exact .inl (.inl h)
      | inr h => exact .inr ⟨rfl, h⟩
    | inr h =>
      rw [c.aside] at h
      exact .inl (.inr h)
  · exact .inl ((c.at_of_ne same).1 h)

lemma marked_of_ne (c : ChangedAt key s s') (inv : FileInv s) {k m} (ne : k ≠ key)
    (h : s.At .objects k m) : s'.marked m = s.marked m := by
  refine marked_congr ?_
  cases c.headers m with
  | inl same => exact same
  | inr other =>
    cases other with
    | inl named => exact absurd (inv.one _ k key m h (.inl named)) ne
    | inr new => exact absurd (inv.below _ _ _ h) (by omega)

end ChangedAt

section
variable {s s' : Store} {key : Text}

lemma changedAt_create (tree : NameTree) (key : Text) (s : Store) :
    ChangedAt key s (s.create tree key) := by
  rw [create]
  split
  · exact .refl key s
  · refine ⟨rfl, rfl, rfl, rfl, Nat.le_succ _, ?_, ?_, ?_⟩
    · intro t k ne
      exact if_neg fun h => ne h.2
    · intro t i h
      have h : (if t = tree ∧ key = key then some s.next else s.names t key) = some i := h
      split at h
      · cases h
        exact .inr ⟨le_rfl, Nat.lt_succ_self _⟩
      · exact .inl h
    · intro i
      show (if i = s.next then none else s.headers i) = s.headers i ∨ _
      split
      · rename_i same
        exact .inr (.inr same.ge)
      · exact .inl rfl

lemma changedAt_unlink (tree : NameTree) (s : Store) : ChangedAt key s (s.unlink tree key) := by
  refine ⟨rfl, rfl, rfl, rfl, le_rfl, ?_, ?_, fun i => .inl rfl⟩
  · intro t k ne
    exact if_neg fun h => ne h.2
  · intro t i h
    have h : (if t = tree ∧ key = key then none else s.names t key) = some i := h
    split at h
    · cases h
    · exact .inl h

lemma changedAt_truncateData (s : Store) : ChangedAt key s (s.truncateData key) := by
  rw [truncateData]
  split
  · exact ⟨rfl, rfl, rfl, rfl, le_rfl, fun _ _ _ => rfl, fun _ _ h => .inl h, fun _ => .inl rfl⟩
  · exact .refl key s

lemma changedAt_onMeta (key : Text) (f : Option CacheMetaHeader → Option CacheMetaHeader)
    (s : Store) : ChangedAt key s (s.onMeta key f) := by
  rw [onMeta]
  split
  · rename_i m named
    refine ⟨rfl, rfl, rfl, rfl, le_rfl, fun _ _ _ => rfl, fun _ _ h => .inl h, ?_⟩
    intro i
    show (if i = m then _ else s.headers i) = s.headers i ∨ _
    split
    · rename_i same
      subst same
      exact .inr (.inl named)
    · exact .inl rfl
  · exact .refl key s

lemma FileInv.changedAt (inv : FileInv s) (c : ChangedAt key s s')
    (apart : Apart s key)
    (own : ∀ i, s'.names .data key = some i → s.exported i = true →
      ∃ m, s'.names .objects key = some m ∧ s'.marked m = true)
    (touched : ∀ i ∈ s'.touched, s.exported i = false) : FileInv s' where
  named k i h exported := by
    rw [c.exported] at exported
    by_cases same : k = key
    · subst same
      rw [at_iff_names (c.apart apart _)] at h
      obtain ⟨m, named, marked⟩ := own i h exported
      exact ⟨m, .inl named, marked⟩
    · obtain ⟨m, named, marked⟩ := inv.named k i ((c.at_of_ne same).1 h) exported
      exact ⟨m, (c.at_of_ne same).2 named, (c.marked_of_ne inv same named).trans marked⟩
  one tree k k' i h h' := by
    obtain h | h := c.at_cases h
    · obtain h' | h' := c.at_cases h'
      · exact inv.one tree k k' i h h'
      · exact absurd (inv.below _ _ _ h) (by omega)
    · obtain h' | h' := c.at_cases h'
      · exact absurd (inv.below _ _ _ h') (by omega)
      · exact h.1.trans h'.1.symm
  away tree k i h := by
    rw [c.aside] at h
    have ne : k ≠ key := by
      rintro rfl
      cases (apart tree).symm.trans h
    rw [c.names tree k ne]
    exact inv.away tree k i h
  below tree k i h := by
    obtain h | h := c.at_cases h
    · exact (inv.below _ _ _ h).trans_le c.next
    · exact h.2.2
  known i h := by
    rw [c.exported] at h
    exact (inv.known i h).trans_le c.next
  untouched i h := by
    rw [c.exported]
    exact touched i h

def Plain (s : Store) (key : Text) : Prop := ∀ i, s.names .data key = some i → s.exported i = false

section
variable (inv : FileInv s) (apart : Apart s key)
include inv apart

lemma FileInv.create (tree : NameTree) : FileInv (s.create tree key) := by
  refine inv.changedAt (changedAt_create tree key s) apart ?_ ?_
  · intro i h exported
    cases named : s.names tree key with
    | some j =>
      rw [Store.create, named] at h ⊢
      obtain ⟨m, found, marked⟩ := inv.named key i (.inl h) exported
      exact ⟨m, (at_iff_names (apart _)).1 found, marked⟩
    | none =>
      have known := inv.known i exported
      rw [Store.create, named] at h ⊢
      cases tree with
      | data =>
        have h : (s.setName .data key (some s.next)).names .data key = some i := h
        rw [names_setName_self] at h
        cases h
        exact absurd known (Nat.lt_irrefl _)
      | objects =>
        obtain ⟨m, found, _⟩ := inv.named key i (.inl h) exported
        rw [at_iff_names (apart _), named] at found
        cases found
  · intro i h
    refine inv.untouched i ?_
    rw [Store.create] at h
    split at h <;> exact h

lemma FileInv.unlinkData : FileInv (s.unlink .data key) := by
  refine inv.changedAt (changedAt_unlink .data s) apart ?_ inv.untouched
  intro i h
  rw [unlink, names_setName_self] at h
  cases h

lemma FileInv.unlinkObjects (gone : s.names .data key = none) :
    FileInv (s.unlink .objects key) := by
  refine inv.changedAt (changedAt_unlink .objects s) apart ?_ inv.untouched
  intro i h
  cases gone.symm.trans h

lemma FileInv.truncateData (plain : Plain s key) : FileInv (s.truncateData key) := by
  refine inv.changedAt (changedAt_truncateData s) apart ?_ ?_
  · intro i h exported
    have h : s.names .data key = some i := by
      rw [Store.truncateData] at h
      split at h <;> exact h
    cases exported.symm.trans (plain i h)
  · intro i h
    rw [Store.truncateData] at h
    split at h
    · rename_i j named
      cases h with
      | head => exact plain _ named
      | tail _ h => exact inv.untouched i h
    · exact inv.untouched i h

lemma FileInv.onMeta (plain : Plain s key) (f : Option CacheMetaHeader → Option CacheMetaHeader) :
    FileInv (s.onMeta key f) := by
  refine inv.changedAt (changedAt_onMeta key f s) apart ?_ ?_
  · intro i h exported
    have h : s.names .data key = some i := by
      rw [Store.onMeta] at h
      split at h <;> exact h
    cases exported.symm.trans (plain i h)
  · intro i h
    rw [Store.onMeta] at h
    split at h <;> exact inv.untouched i h

end

end

/-! ### The file operations -/

section
variable {s : Store} {key : Text}

structure Resetting (key : Text) (s : Store) : Prop where
  files : FileInv s
  apart : ∀ tree, s.aside tree key = none
  plain : Plain s key

lemma Resetting.truncateData (r : Resetting key s) : Resetting key (s.truncateData key) := by
  have c : ChangedAt key s (s.truncateData key) := changedAt_truncateData s
  refine ⟨r.files.truncateData r.apart r.plain, c.apart r.apart, ?_⟩
  rw [Plain, c.exported]
  intro i h
  rw [Store.truncateData] at h
  split at h <;> exact r.plain i h

lemma Resetting.onMeta (r : Resetting key s) (f : Option CacheMetaHeader → Option CacheMetaHeader) :
    Resetting key (s.onMeta key f) := by
  have c := changedAt_onMeta key f s
  refine ⟨r.files.onMeta r.apart r.plain f, c.apart r.apart, ?_⟩
  rw [Plain, c.exported]
  intro i h
  rw [Store.onMeta] at h
  split at h <;> exact r.plain i h

section
variable (inv : FileInv s)
include inv

lemma FileInv.plain (apart : Apart s key) {read} (readable : read = false → Plain s key)
    (h : s.existingExported key read = false) : Plain s key := by
  cases read with
  | false => exact readable rfl
  | true =>
    intro i named
    by_contra exported
    obtain ⟨m, found, marked⟩ := inv.named key i (.inl named) (by simpa using exported)
    rw [at_iff_names (apart _)] at found
    rw [existingExported, found, Option.any_some, marked] at h
    cases h

/-- A new inode is not exported. -/
lemma FileInv.plain_create (plain : Plain s key) (tree : NameTree) :
    Plain (s.create tree key) key := by
  intro i h
  rw [(changedAt_create tree key s).exported]
  obtain h | ⟨new, -⟩ := (changedAt_create tree key s).own .data i h
  · exact plain i h
  · by_contra exported
    exact absurd (inv.known i (eq_true_of_ne_false exported)) (by omega)

lemma FileInv.replace (apart : Apart s key) :
    Resetting key ((s.unlink .data key).create .data key) := by
  have c := changedAt_create .data key (s.unlink .data key)
  refine ⟨(inv.unlinkData apart).create apart .data, c.apart apart, ?_⟩
  rw [Plain, c.exported]
  intro i h
  have gone : (s.unlink .data key).names .data key = none := names_setName_self
  rw [Store.create, gone] at h
  have h : ((s.unlink .data key).setName .data key (some s.next)).names .data key = some i := h
  rw [names_setName_self] at h
  cases h
  by_contra exported
  have exported : s.exported s.next = true := eq_true_of_ne_false exported
  exact absurd (inv.known s.next exported) (Nat.lt_irrefl _)

lemma FileInv.reset (apart : Apart s key) {read} (readable : read = false → Plain s key)
    (stores : List (CacheMetaHeader → CacheMetaHeader)) (n : Nat) :
    FileInv (after (s.resetEffects key read stores) n s) := by
  have tail : ∀ t, Resetting key t → ∀ n, FileInv (after
      ([Store.truncateData key, Store.truncateData key, Store.onMeta key fun _ => none,
        Store.onMeta key fun _ => some .zero] ++
        stores.map fun f => Store.onMeta key (Option.map f)) n t) := by
    intro t r n
    refine (after_inv (I := Resetting key) ?_ r).files
    intro effect mem t r
    simp only [mem_append, mem_cons, not_mem_nil, or_false, mem_map] at mem
    obtain (rfl | rfl | rfl | rfl) | ⟨f, _, rfl⟩ := mem
    · exact r.truncateData
    · exact r.truncateData
    all_goals exact r.onMeta _
  rw [resetEffects]
  split
  · refine after_append ?_ ?_ n
    · refine after_cons inv ?_
      refine after_cons (inv.unlinkData apart) fun n => ?_
      rw [after_nil]
      exact (inv.replace apart).files
    · exact tail _ (inv.replace apart)
  · rename_i unmarked
    exact tail s ⟨inv, apart, inv.plain apart readable (eq_false_of_ne_true unmarked)⟩ n

lemma FileInv.existingExported_create (tree : NameTree) (read : Bool) :
    (s.create tree key).existingExported key read = s.existingExported key read := by
  cases named : s.names tree key with
  | some i => rw [Store.create, named]
  | none =>
    rw [Store.existingExported, Store.existingExported]
    refine congrArg (read && ·) ?_
    cases tree with
    | data =>
      have same : (s.create .data key).names .objects key = s.names .objects key := by
        refine names_create_of_ne ?_
        rintro ⟨h, _⟩
        cases h
      rw [same]
      cases found : s.names .objects key with
      | none => rfl
      | some m =>
        have ne : m ≠ s.next := (inv.below _ _ _ (.inl found)).ne
        refine marked_congr ?_
        rw [Store.create, named]
        exact if_neg ne
    | objects =>
      have new : (s.create .objects key).names .objects key = some s.next := by
        rw [Store.create, named]
        exact names_setName_self
      have unmarked : (s.create .objects key).headers s.next = none := by
        rw [Store.create, named]
        exact if_pos rfl
      rw [new, named, Option.any_some, Option.any_none, marked, unmarked]

lemma FileInv.createThen (apart : Apart s key) {read} (readable : read = false → Plain s key)
    {effects} (rest : ∀ t, FileInv t → Apart t key → (read = false → Plain t key) →
      t.existingExported key read = s.existingExported key read →
        ∀ n, FileInv (after effects n t)) (n : Nat) :
    FileInv (after ([Store.create .data key, Store.create .objects key] ++ effects) n s) := by
  have data := inv.create apart .data
  have apart1 := (changedAt_create .data key s).apart apart
  have objects := data.create apart1 .objects
  have apart2 := (changedAt_create .objects key _).apart apart1
  refine after_append ?_ ?_ n
  · refine after_cons inv ?_
    refine after_cons data fun n => ?_
    rw [after_nil]
    exact objects
  · have same := (data.existingExported_create .objects read).trans
      (inv.existingExported_create .data read)
    exact rest _ objects apart2 (fun unread =>
      data.plain_create (inv.plain_create (readable unread) .data) .objects) same

lemma FileInv.createWriterEffects (apart : Apart s key) {read}
    (readable : read = false → Plain s key)
    (stores : List (CacheMetaHeader → CacheMetaHeader)) (n : Nat) :
    FileInv (after (s.createWriterEffects key read stores) n s) := by
  refine inv.createThen apart readable ?_ n
  intro t files apart readable same n
  have reset := files.reset apart readable stores n
  rwa [resetEffects, same] at reset

lemma FileInv.openEffects {identity} (apart : Apart s identity.key) {read}
    (readable : read = false → Plain s identity.key) (intact : Bool) (n : Nat) :
    FileInv (after (s.openEffects identity intact read) n s) := by
  refine inv.createThen apart readable ?_ n
  intro t files apart readable same n
  split
  · rw [after_nil]
    exact files
  · have reset :=
      files.reset apart readable (cacheInitializeHeader identity kCacheBitmapUnit s.next) n
    rwa [resetEffects, same] at reset

lemma FileInv.removeEffects (apart : Apart s key) (n : Nat) :
    FileInv (after (Store.removeEffects key) n s) := by
  have data := inv.unlinkData apart
  refine after_cons inv ?_ n
  refine after_cons data fun n => ?_
  rw [after_nil]
  exact data.unlinkObjects apart names_setName_self

end

end

end Ngs3fs.Persist
