import Ngs3fs.Lib.Machine
import Ngs3fs.Open.Entry

/-!
# The registry is right about its handles

`Sound` is kept by every call that meets `Orderly`; `Sound.replace` is what a change of one entry
has to show, and the calls go through it. -/

namespace Ngs3fs.Open
open Machine List Function AList Option

structure Sound (s : State) : Prop where
  entry : ∀ p o, s.openFiles.lookup p = some o → EntryOk s.handles o
  inhabited : ∀ p o, s.openFiles.lookup p = some o → o.handles ≠ []
  once : ∀ p q o o' h, s.openFiles.lookup p = some o → s.openFiles.lookup q = some o' →
    h ∈ o.handles → h ∈ o'.handles → p = q
  live : ∀ h, (s.handles h).live = true ↔ ∃ p o, s.openFiles.lookup p = some o ∧ h ∈ o.handles
  fresh : ∀ h, s.count ≤ h → (s.handles h).live = false

/-- In `register_open_handle` no allocation fails in `inode_io`; a rename is between two paths, none
of its allocations fails, and two entries are merged only if neither has a writer and the readers of
no inode use ordinary I/O under one path and a registration under the other. -/
def Orderly (s : State) : Action → Prop
  | .register _ _ _ _ fault => fault ≠ some .inodeIo
  | .rename source destination _ _ _ fault => source ≠ destination ∧ fault = none ∧
      ∀ src dst, s.openFiles.lookup source = some src → s.openFiles.lookup destination = some dst →
        src.writer = false ∧ dst.writer = false ∧ ∀ i,
          ((src.io i).normalReaders = 0 ∨ (dst.io i).passthroughReaders = 0) ∧
          ((src.io i).passthroughReaders = 0 ∨ (dst.io i).normalReaders = 0) ∧
          ((src.io i).backingId = 0 ∨ (dst.io i).backingId = 0 ∨
            (src.io i).backingId = (dst.io i).backingId)
  | _ => True

section
variable {s s' : State} {p q : Path} {o : OpenFile} {h : HandleId}

def Handle.Alike (x y : Handle) : Prop :=
  x.writable = y.writable ∧ x.inode = y.inode ∧ x.ioMode = y.ioMode

lemma alike_refl (x : Handle) : x.Alike x := ⟨rfl, rfl, rfl⟩

def State.Listed (s : State) (p : Path) (h : HandleId) : Prop :=
  ∃ o, s.openFiles.lookup p = some o ∧ h ∈ o.handles

lemma listed_iff (found : s.openFiles.lookup p = some o) : s.Listed p h ↔ h ∈ o.handles := by
  simp [State.Listed, found]

lemma iff_or_of_imp {a b : Prop} (h : b → a) : a ↔ b ∨ a ∧ ¬b :=
  ⟨fun x => (em b).imp id fun out => ⟨x, out⟩, fun x => x.elim h And.left⟩

section
variable (sound : Sound s)
include sound

lemma Sound.listed_once (first : s.Listed p h) (second : s.Listed q h) : p = q := by
  obtain ⟨o, found, mem⟩ := first
  obtain ⟨o', found', mem'⟩ := second
  exact sound.once p q o o' h found found' mem mem'

lemma Sound.replace (gone : Path → Prop) (here : HandleId → Prop)
    (at_here : ∀ {q g}, s.Listed q g → (here g ↔ q = p ∨ gone q))
    (others : ∀ q, q ≠ p → ¬gone q → s'.openFiles.lookup q = s.openFiles.lookup q)
    (erased : ∀ q, q ≠ p → gone q → s'.openFiles.lookup q = none)
    (alike : ∀ g, (s.handles g).live = true → ¬here g → (s'.handles g).Alike (s.handles g))
    (entry : ∀ o, s'.openFiles.lookup p = some o → EntryOk s'.handles o ∧ o.handles ≠ [])
    (inside : ∀ g, s'.Listed p g → here g ∨ (s.handles g).live = false)
    (live : ∀ g, (s'.handles g).live = true ↔ s'.Listed p g ∨ (s.handles g).live = true ∧ ¬here g)
    (fresh : ∀ g, s'.count ≤ g → (s'.handles g).live = false) : Sound s' := by
  -- an entry elsewhere has been there before
  have before {q : Path} {o : OpenFile} (away : q ≠ p) (found : s'.openFiles.lookup q = some o) :
      s.openFiles.lookup q = some o ∧ ∀ g ∈ o.handles, (s.handles g).live = true ∧ ¬here g := by
    by_cases erase : gone q
    · rw [erased q away erase] at found
      cases found
    · rw [others q away erase] at found
      refine ⟨found, fun g mem => ⟨(sound.live g).2 ⟨q, o, found, mem⟩, fun h => ?_⟩⟩
      exact ((at_here ⟨o, found, mem⟩).1 h).elim away erase
  have apart {q : Path} {o : OpenFile} (away : q ≠ p) (found : s'.openFiles.lookup q = some o)
      {g : HandleId} (mem : g ∈ o.handles) (listed : s'.Listed p g) : False := by
    obtain ⟨lives, out⟩ := (before away found).2 g mem
    obtain h | dead := inside g listed
    · exact out h
    · cases lives.symm.trans dead
  refine ⟨fun q o found => ?_, fun q o found => ?_, fun q q' o o' h found found' mem mem' => ?_,
    fun h => ?_, fresh⟩
  · by_cases here : q = p
    · subst here
      exact (entry o found).1
    · obtain ⟨found, handles⟩ := before here found
      exact (sound.entry q o found).congr fun g mem =>
        alike g (handles g mem).1 (handles g mem).2
  · by_cases here : q = p
    · subst here
      exact (entry o found).2
    · exact sound.inhabited q o (before here found).1
  · by_cases here : q = p
    · by_cases here' : q' = p
      · rw [here, here']
      · subst here
        exact (apart here' found' mem' ⟨o, found, mem⟩).elim
    · by_cases here' : q' = p
      · subst here'
        exact (apart here found mem ⟨o', found', mem'⟩).elim
      · exact sound.once q q' o o' h (before here found).1 (before here' found').1 mem mem'
  · rw [live]
    constructor
    · rintro (⟨o, found, mem⟩ | ⟨lives, out⟩)
      · exact ⟨p, o, found, mem⟩
      · obtain ⟨q, o, found, mem⟩ := (sound.live h).1 lives
        obtain ⟨away, stays⟩ := not_or.1 (mt (at_here ⟨o, found, mem⟩).2 out)
        exact ⟨q, o, (others q away stays).trans found, mem⟩
    · rintro ⟨q, o, found, mem⟩
      by_cases here : q = p
      · subst here
        exact .inl ⟨o, found, mem⟩
      · exact .inr ((before here found).2 h mem)

lemma Sound.live_iff : (s.handles h).live = true ↔
    s.Listed p h ∨ (s.handles h).live = true ∧ ¬s.Listed p h :=
  iff_or_of_imp fun listed => (sound.live h).2 ⟨p, listed⟩

variable (others : ∀ q, q ≠ p → s'.openFiles.lookup q = s.openFiles.lookup q)
  (alike : ∀ g, (s.handles g).live = true → ¬s.Listed p g → (s'.handles g).Alike (s.handles g))
  (entry : ∀ o, s'.openFiles.lookup p = some o → EntryOk s'.handles o ∧ o.handles ≠ [])
include others alike entry

lemma Sound.change (inside : ∀ g, s'.Listed p g → s.Listed p g ∨ (s.handles g).live = false)
    (live : ∀ g, (s'.handles g).live = true ↔
      s'.Listed p g ∨ (s.handles g).live = true ∧ ¬s.Listed p g)
    (fresh : ∀ g, s'.count ≤ g → (s'.handles g).live = false) : Sound s' := by
  refine sound.replace (fun _ => False) (s.Listed p) (fun listed => ?_) (fun q away _ =>
    others q away)
    (fun _ _ none => none.elim) alike entry inside live fresh
  rw [or_false]
  exact ⟨sound.listed_once listed, fun same => same ▸ listed⟩

lemma Sound.change_same (same : ∀ g, s'.Listed p g ↔ s.Listed p g)
    (lives : ∀ g, (s'.handles g).live = (s.handles g).live) (count : s'.count = s.count) :
    Sound s' := by
  refine sound.change others alike entry (fun g h => .inl ((same g).1 h)) (fun g =>
    ?_) fun g le => ?_
  · rw [lives, same]
    exact sound.live_iff
  · rw [lives]
    exact sound.fresh g (count ▸ le)

end

lemma findOpenFile_some (found : s.findOpenFile p h = some (q, o)) :
    s.openFiles.lookup q = some o ∧ h ∈ o.handles := by
  have search : ∀ {q o}, State.findOpenFile.search s h = some (q, o) →
      s.openFiles.lookup q = some o ∧ h ∈ o.handles := by
    intro q o found
    obtain ⟨e, first, same⟩ := map_eq_some_iff.1 found
    cases same
    refine ⟨mem_lookup_iff.2 (mem_of_find?_eq_some first), ?_⟩
    simpa using find?_some first
  rw [State.findOpenFile] at found
  split at found
  · rename_i o' entry
    split at found
    · rename_i mem
      cases found
      exact ⟨entry, mem⟩
    · exact search found
  · exact search found

lemma keep_lookup (o : OpenFile) : (s.keep p o).openFiles.lookup p =
    if !o.writer && decide (o.readers = 0) then none else some o := by
  rw [State.keep]
  split
  · exact lookup_erase ..
  · exact lookup_insert ..

lemma keep_lookup_ne (away : q ≠ p) : (s.keep p o).openFiles.lookup q = s.openFiles.lookup q := by
  rw [State.keep]
  split
  · exact lookup_erase_ne away
  · exact lookup_insert_ne away

lemma Sound.opened (sound : Sound s) (p : Path) :
    EntryOk s.handles ((s.openFiles.lookup p).getD .none) := by
  cases found : s.openFiles.lookup p with
  | none => exact entryOk_none
  | some o => exact sound.entry p o found

lemma mem_opened : h ∈ ((s.openFiles.lookup p).getD .none).handles ↔ s.Listed p h := by
  rw [State.Listed]
  cases found : s.openFiles.lookup p with
  | none => simp [OpenFile.none]
  | some o => simp

lemma keep_listed {handles} (ok : EntryOk handles o) : (s.keep p o).Listed p h ↔ h ∈ o.handles := by
  rw [State.Listed, keep_lookup]
  split
  · rename_i idle
    simp [ok.idle_iff.1 idle]
  · simp

lemma keep_present {handles o'} (ok : EntryOk handles o)
    (found : (s.keep p o).openFiles.lookup p = some o') : o' = o ∧ o.handles ≠ [] := by
  rw [keep_lookup] at found
  split at found
  · cases found
  · rename_i busy
    cases found
    exact ⟨rfl, fun empty => busy (ok.idle_iff.2 empty)⟩

lemma Sound.keep_same (sound : Sound s) (ok : EntryOk s.handles o)
    (hs : o.handles = ((s.openFiles.lookup p).getD .none).handles) : Sound (s.keep p o) := by
  refine sound.change_same (p := p) (fun q away => keep_lookup_ne away) (fun _ _ _ => alike_refl _)
    (fun o' found => ?_) (fun g => ?_) (fun _ => rfl) rfl
  · obtain ⟨rfl, busy⟩ := keep_present ok found
    exact ⟨ok, busy⟩
  · rw [keep_listed ok, hs, mem_opened]

lemma Sound.count_notMem (sound : Sound s) (found : s.openFiles.lookup p = some o) :
    s.count ∉ o.handles := by
  intro mem
  have live := (sound.live s.count).2 ⟨p, o, found, mem⟩
  rw [sound.fresh _ (Nat.le_refl _)] at live
  cases live

lemma push_drop (new : h ∉ o.handles) : (o.push h).drop h = o := by
  have all : o.handles.filter (· ≠ h) = o.handles :=
    filter_eq_self.2 fun g mem => decide_eq_true fun same => new (same ▸ mem)
  rw [OpenFile.push, OpenFile.drop]
  simp only [filter_append, all]
  simp

lemma enter_handles (i : Inode) (writable : Bool) : (o.enter i writable).handles = o.handles := by
  cases writable <;> rfl

lemma rollback_handles (i : Inode) (writable : Bool) :
    (o.rollback i writable).handles = o.handles := by
  cases writable with
  | true => rfl
  | false =>
    rw [OpenFile.rollback, if_neg Bool.false_ne_true]
    split <;> rfl

lemma Sound.push (sound : Sound s) {x} (live : x.live = true) (pending : x.ioMode = .pending)
    (free : ((s.openFiles.lookup p).getD .none).conflicts x.writable = false) :
    Sound { openFiles := s.openFiles.insert p
              ((((s.openFiles.lookup p).getD .none).enter x.inode x.writable).push s.count)
            handles := update s.handles s.count x
            count := s.count + 1 } := by
  have ok := sound.opened p
  have members (g : HandleId) := mem_opened (s := s) (p := p) (h := g)
  have new : s.count ∉ ((s.openFiles.lookup p).getD .none).handles := by
    intro mem
    obtain ⟨o, found, mem⟩ := mem_opened.1 mem
    exact sound.count_notMem found mem
  generalize (s.openFiles.lookup p).getD .none = opened at ok members new free
  have pushed := ok.push free new pending
  have hs : ((opened.enter x.inode x.writable).push s.count).handles = opened.handles
      ++ [s.count] := by
    rw [OpenFile.push, enter_handles]
  have old : ∀ g, (s.handles g).live = true → g ≠ s.count := by
    rintro g lives rfl
    cases lives.symm.trans (sound.fresh _ (Nat.le_refl _))
  refine sound.change (p := p) (fun q away => lookup_insert_ne away) (fun g lives _ => ?_)
    (fun o found => ?_) (fun g listed => ?_) (fun g => ?_) (fun g le => ?_)
  · show (update s.handles s.count x g).Alike _
    rw [update_of_ne (old g lives)]
    exact alike_refl _
  · rw [lookup_insert] at found
    cases found
    exact ⟨pushed, by rw [hs]; simp⟩
  · rw [listed_iff (lookup_insert _), hs, mem_append, members, mem_singleton] at listed
    refine listed.imp id ?_
    rintro rfl
    exact sound.fresh _ (Nat.le_refl _)
  · show (update s.handles s.count x g).live = true ↔ _
    rw [listed_iff (lookup_insert _), hs, mem_append, members, mem_singleton]
    by_cases here : g = s.count
    · subst here
      rw [update_self]
      exact iff_of_true live (.inl (.inr rfl))
    · rw [update_of_ne here, or_iff_left here]
      exact sound.live_iff
  · have other : g ≠ s.count := Nat.ne_of_gt le
    show (update s.handles s.count x g).live = false
    rw [update_of_ne other]
    exact sound.fresh g (Nat.le_of_succ_le le)

lemma Sound.register (sound : Sound s) (i : Inode) (p : Path) (key : String) (writable : Bool)
    {fault} (orderly : fault ≠ some .inodeIo) :
    Sound (registerOpenHandle s i p key writable fault).1 := by
  rw [registerOpenHandle]
  have ok := sound.opened p
  split
  · exact sound
  · split
    · exact sound
    · rename_i free
      rw [Bool.not_eq_true] at free
      have undone : Sound (s.keep p ((((s.openFiles.lookup p).getD .none).enter i writable).rollback
          i writable)) := by
        refine sound.keep_same (ok.rollback writable free) ?_
        rw [rollback_handles, enter_handles]
      have new : s.count ∉ (((s.openFiles.lookup p).getD .none).enter i writable).handles := by
        rw [enter_handles]
        intro mem
        obtain ⟨o, found, mem⟩ := mem_opened.1 mem
        exact sound.count_notMem found mem
      split
      · exact sound
      · split
        · rename_i failed
          simp only [Bool.and_eq_true, decide_eq_true_eq] at failed
          exact absurd failed.1.1 orderly
        · split
          · exact undone
          · split
            · rw [push_drop new]
              exact undone
            · exact sound.push (x := ⟨i, p, key, writable, .pending, 0, false, false, true⟩)
                  rfl rfl free

lemma Sound.update (sound : Sound s) {o' x}
    (found : s.openFiles.lookup p = some o) (mem : h ∈ o.handles) (hs : o'.handles = o.handles)
    (live : x.live = (s.handles h).live) (ok : EntryOk (Function.update s.handles h x) o') :
    Sound { s with
      openFiles := s.openFiles.insert p o'
      handles := Function.update s.handles h x } := by
  have lives : ∀ g, (Function.update s.handles h x g).live = (s.handles g).live := by
    intro g
    by_cases here : g = h
    · rw [here, update_self, live]
    · rw [update_of_ne here]
  refine sound.change_same (p := p) (fun q away => lookup_insert_ne away) (fun g _ out => ?_)
    (fun o₁ found₁ => ?_) (fun g => ?_) lives rfl
  · have other : g ≠ h := by
      rintro rfl
      exact out ⟨o, found, mem⟩
    show (Function.update s.handles h x g).Alike _
    rw [update_of_ne other]
    exact alike_refl _
  · rw [lookup_insert] at found₁
    cases found₁
    refine ⟨ok, ?_⟩
    rw [hs]
    exact sound.inhabited p o found
  · rw [listed_iff (lookup_insert _), hs, listed_iff found]

lemma Sound.select (sound : Sound s) (h : HandleId) (eligible : Bool) (granted : Nat) :
    Sound (selectPassthroughIo s h eligible granted).1 := by
  rw [selectPassthroughIo]
  split
  · exact sound
  · rename_i asks
    simp only [Bool.or_eq_true, decide_eq_true_eq, not_or, Bool.not_eq_true, not_not] at asks
    obtain ⟨reader, pending⟩ := asks
    split
    · exact sound
    · rename_i p o found
      obtain ⟨entry, mem⟩ := findOpenFile_some found
      have ok := sound.entry p o entry
      split
      · exact sound
      · rename_i x record
        have apart := ok.apart (s.handles h).inode
        have backing := ok.backing (s.handles h).inode
        rw [io_eq record] at apart backing
        have chosen {mode : IoMode} {b : Nat} (fits : mode = .normal ∧ x.passthroughReaders = 0 ∧
            b = 0 ∨
            mode = .passthrough ∧ x.normalReaders = 0 ∧ b ≠ 0) : Sound (choose s p o h x mode b) :=
          sound.update entry mem rfl rfl (ok.choose mem reader pending record fits)
        split
        · exact sound
        · split
          · rename_i normal
            have none := apart.resolve_left normal
            exact chosen (.inl ⟨rfl, none, of_not_not fun h => backing.1 h none⟩)
          · rename_i normal
            rw [not_not] at normal
            split
            · split
              · exact sound
              · rename_i none
                rw [not_not] at none
                exact chosen (.inl ⟨rfl, none, of_not_not fun h => backing.1 h none⟩)
            · split
              · rename_i unregistered
                split
                · refine chosen (.inl ⟨rfl, of_not_not fun h => ?_, rfl⟩)
                  exact backing.2 h unregistered
                · rename_i granted
                  exact chosen (.inr ⟨rfl, normal, granted⟩)
              · rename_i registered
                exact chosen (.inr ⟨rfl, normal, registered⟩)

lemma leave_handles (i : Inode) (mode : IoMode) : (o.leave i mode).handles = o.handles := by
  rw [OpenFile.leave]
  split
  · rfl
  · split <;> rfl

section
variable (sound : Sound s)
include sound

lemma Sound.unregister (p : Path) (h : HandleId) : Sound (unregisterOpenHandle s p h) := by
  rw [unregisterOpenHandle]
  split
  · exact sound
  · rename_i p o found
    obtain ⟨entry, mem⟩ := findOpenFile_some found
    have ok := sound.entry p o entry
    dsimp only
    generalize kept : (if (s.handles h).writable then { o.drop h with writer := false }
        else (o.drop h).leave (s.handles h).inode (s.handles h).ioMode) = o'
    have left : EntryOk s.handles o' := by
      rw [← kept]
      split
      · exact ok.dropWriter mem ‹_›
      · exact ok.dropReader mem (Bool.eq_false_iff.2 ‹_›)
    have hs : o'.handles = o.handles.filter (· ≠ h) := by
      rw [← kept]
      split
      · rfl
      · exact leave_handles _ _
    have alike : ∀ g, (Function.update s.handles h { s.handles h with live := false } g).Alike
        (s.handles g) := by
      intro g
      by_cases here : g = h
      · rw [here, update_self]
        exact alike_refl _
      · rw [update_of_ne here]
        exact alike_refl _
    have listed {g : HandleId} : (s.keep p o').Listed p g ↔ s.Listed p g ∧ g ≠ h := by
      rw [keep_listed left, hs, listed_iff entry, mem_filter, decide_eq_true_eq]
    refine sound.change (p := p) (fun q away => keep_lookup_ne away) (fun g _ _ => alike g)
      (fun o₁ found₁ => ?_) (fun g h => .inl (listed.1 h).1) (fun g => ?_) (fun g le => ?_)
    · obtain ⟨rfl, busy⟩ := keep_present left found₁
      exact ⟨left.congr fun g _ => alike g, busy⟩
    · show (Function.update s.handles h _ g).live = true ↔ (s.keep p o').Listed p g ∨ _
      rw [listed]
      by_cases here : g = h
      · subst here
        rw [update_self]
        refine iff_of_false Bool.false_ne_true ?_
        rintro (⟨-, other⟩ | ⟨-, out⟩)
        · exact other rfl
        · exact out ⟨o, entry, mem⟩
      · rw [update_of_ne here, and_iff_left here]
        exact sound.live_iff
    · show (Function.update s.handles h _ g).live = false
      by_cases here : g = h
      · rw [here, update_self]
      · rw [update_of_ne here]
        exact sound.fresh g le

lemma Sound.relabel (files : s'.openFiles = s.openFiles) (count : s'.count = s.count)
    (alike : ∀ h, (s'.handles h).Alike (s.handles h) ∧ (s'.handles h).live = (s.handles h).live) :
    Sound s' := by
  refine ⟨fun p o found => ?_, fun p o found => ?_, fun p q o o' h found found' => ?_, fun h => ?_,
    fun h le => ?_⟩
  · rw [files] at found
    exact (sound.entry p o found).congr fun h _ => (alike h).1
  · rw [files] at found
    exact sound.inhabited p o found
  · rw [files] at found found'
    exact sound.once p q o o' h found found'
  · rw [(alike h).2, files]
    exact sound.live h
  · rw [(alike h).2]
    exact sound.fresh h (count ▸ le)

lemma Sound.markStale (destination : Path) (preserved : Bool) :
    Sound (Open.markStale s destination preserved) ∧
      (Open.markStale s destination preserved).openFiles = s.openFiles := by
  rw [Open.markStale]
  split
  · exact ⟨sound, rfl⟩
  · split
    · exact ⟨sound, rfl⟩
    · refine ⟨sound.relabel rfl rfl fun h => ?_, rfl⟩
      dsimp only
      split
      all_goals exact ⟨alike_refl _, rfl⟩

lemma Sound.renameHandles (hs : List HandleId) (destination : Path) (key : String) :
    Sound (Open.renameHandles s hs destination key) := by
  refine sound.relabel rfl rfl fun h => ?_
  rw [Open.renameHandles]
  dsimp only
  split
  all_goals exact ⟨alike_refl _, rfl⟩

lemma Sound.gather {source destination src out} (other : source ≠ destination)
    (found : s.openFiles.lookup source = some src)
    (files : s'.openFiles.lookup destination = some out) (gone : s'.openFiles.lookup source = none)
    (others : ∀ q, q ≠ destination → q ≠ source → s'.openFiles.lookup q = s.openFiles.lookup q)
    (handles : s'.handles = s.handles) (count : s'.count = s.count) (ok : EntryOk s.handles out)
    (hs : ∀ h, h ∈ out.handles ↔ h ∈ src.handles ∨ s.Listed destination h) : Sound s' := by
  have listed (g : HandleId) :
      s'.Listed destination g ↔ s.Listed source g ∨ s.Listed destination g := by
    rw [listed_iff files, hs, listed_iff found]
  refine sound.replace (· = source) (fun g => s.Listed source g ∨ s.Listed destination g)
    (fun here => ?_) others (fun q _ here => here ▸ gone)
    (fun _ _ _ => by rw [handles]; exact alike_refl _) (fun o found' => ?_)
    (fun g h => .inl ((listed g).1 h)) (fun g => ?_) (fun g le => ?_)
  · refine ⟨fun h => h.symm.imp (sound.listed_once here) (sound.listed_once here), ?_⟩
    rintro (rfl | rfl)
    · exact .inr here
    · exact .inl here
  · obtain rfl := some.inj (files.symm.trans found')
    obtain ⟨h, mem⟩ := exists_mem_of_ne_nil _ (sound.inhabited source src found)
    exact ⟨handles ▸ ok, ne_nil_of_mem ((hs h).2 (.inl mem))⟩
  · rw [handles, listed]
    exact iff_or_of_imp fun h => (sound.live g).2 (h.elim (⟨_, ·⟩) (⟨_, ·⟩))
  · rw [handles]
    exact sound.fresh g (count ▸ le)

lemma Sound.rename {source destination} (key : String) (preserved : Bool) (snapshot : List HandleId)
    {fault} (orderly : Orderly s (.rename source destination key preserved snapshot fault)) :
    Sound (finishOpenFileRename s source destination key preserved snapshot fault).1 := by
  obtain ⟨other, rfl, merges⟩ := orderly
  obtain ⟨stale, files⟩ := sound.markStale destination preserved
  rw [← files] at merges
  rw [finishOpenFileRename]
  generalize Open.markStale s destination preserved = s at stale merges
  split
  · split
    all_goals exact stale
  · rename_i src found
    split
    · exact stale
    · have named := stale.renameHandles (src.handles.filter (· ∈ snapshot)) destination key
      have kept : (Open.renameHandles s (src.handles.filter (· ∈ snapshot)) destination
          key).openFiles =
        s.openFiles := rfl
      dsimp only
      rw [← kept] at found merges
      generalize Open.renameHandles s (src.handles.filter (· ∈ snapshot)) destination key = t at *
      split
      · rename_i absent
        refine named.gather other found (lookup_insert _) ?_ (fun q away stays => ?_) rfl rfl
          (named.entry source src found) fun h => ?_
        · rw [lookup_insert_ne other, lookup_erase]
        · rw [lookup_insert_ne away, lookup_erase_ne stays]
        · simp [State.Listed, absent]
      · rename_i dst present
        obtain ⟨reads, reads', modes⟩ := merges src dst found present
        have backing : ∀ i x y, src.inodeIo.entries.dlookup i = some x →
            dst.inodeIo.lookup i = some y →
            x.backingId = 0 ∨ y.backingId = 0 ∨ x.backingId = y.backingId := by
          intro i x y first second
          have h := (modes i).2.2
          rw [io_eq (o := src) first, io_eq second] at h
          exact h
        obtain ⟨ended, lookup⟩ := mergeIo_lookup src.inodeIo.nodupKeys backing
        rw [ended]
        have apart : ∀ h ∈ dst.handles, h ∉ src.handles := fun h mem mem' =>
          other (named.once source destination src dst h found present mem' mem)
        have ok : EntryOk t.handles
            { handles := dst.handles ++ src.handles
              inodeIo := (mergeIo none src.inodeIo.entries dst.inodeIo).1
              readers := dst.readers + src.readers
              writer := dst.writer || src.writer } := by
          refine (named.entry source src found).merge (named.entry destination dst present) apart
            ⟨reads, reads'⟩ (fun i => ⟨(modes i).1, (modes i).2.1⟩) rfl rfl ?_ lookup
          rw [reads, reads']
          rfl
        refine named.gather other found ?_ (lookup_erase ..) (fun q away stays => ?_) rfl rfl ok
          fun h => ?_
        · rw [lookup_erase_ne (Ne.symm other), lookup_insert]
        · rw [lookup_erase_ne stays, lookup_insert_ne away]
        · simp [State.Listed, present, or_comm]

lemma Sound.step {a} (orderly : Orderly s a) : Sound (Open.step s a) := by
  cases a with
  | register i p key writable fault => exact sound.register i p key writable orderly
  | select h eligible granted => exact sound.select h eligible granted
  | unregister p h => exact sound.unregister p h
  | rename source destination key preserved snapshot fault =>
    exact sound.rename key preserved snapshot orderly
  | closing h =>
    refine sound.relabel rfl rfl fun g => ?_
    show (Function.update s.handles h { s.handles h with closing := true } g).Alike (s.handles g) ∧
      (Function.update s.handles h { s.handles h with closing := true } g).live = (s.handles g).live
    by_cases here : g = h
    · subst here
      rw [update_self]
      exact ⟨alike_refl _, rfl⟩
    · rw [update_of_ne here]
      exact ⟨alike_refl _, rfl⟩

end

end

lemma sound_start : Sound start := by
  refine ⟨nofun, nofun, nofun, fun h => ?_, fun _ _ => rfl⟩
  refine iff_of_false Bool.false_ne_true ?_
  rintro ⟨p, o, found, -⟩
  cases found

/-- In every run whose calls meet the condition, each entry has a handle, counts its readers, has a
writer only alone, and its records sum up to the readers; each reader is counted for its inode
under its own mode, no inode has both kinds of I/O, and an inode has a registration exactly if a
reader uses it. A handle that is registered is in one entry. -/
theorem registry_sound (as : List Action) {s : State}
    (orderly : Machine.Along (fun s a => some (step s a)) Orderly start as)
    (run : run (fun s a => some (step s a)) start as = some s) :
    Sound s ∧ ∀ p o, s.openFiles.lookup p = some o → o.sum = o.readers := by
  have sound : Sound s := by
    refine run_inv_along (I := Sound) (P := Orderly) (fun s a s' sound orderly h =>
        ?_) sound_start
      orderly run
    cases h
    exact sound.step orderly
  exact ⟨sound, fun p o found => (sound.entry p o found).sum_eq⟩

def renameOver : List Action :=
  [.register 1 "a" "a" false none, .register 2 "b" "b" false none, .select 1 false 0,
    .rename "a" "b" "b" true [0] none, .select 0 true 7, .unregister "b" 1]

theorem registry_sound_renameOver : ∃ s,
    run (fun s a => some (step s a)) start renameOver = some s ∧ Sound s ∧
      (s.openFiles.lookup "b").map (fun o => (o.handles, o.readers, o.sum)) = some ([0], 1, 1) := by
  refine ⟨_, rfl, (registry_sound renameOver ?_ rfl).1, by decide⟩
  refine ⟨nofun, ?_⟩
  rintro _ ⟨⟩
  refine ⟨nofun, ?_⟩
  rintro _ ⟨⟩
  refine ⟨trivial, ?_⟩
  rintro _ ⟨⟩
  refine ⟨⟨by decide, rfl, ?_⟩, ?_⟩
  · intro src dst found found'
    have records : src.inodeIo.entries = [⟨1, 1, 0, 0, 0⟩] :=
      (some.inj (congrArg (Option.map fun o => o.inodeIo.entries) found)).symm
    have reads : src.writer = false :=
      (some.inj (congrArg (Option.map OpenFile.writer) found)).symm
    have reads' : dst.writer = false :=
      (some.inj (congrArg (Option.map OpenFile.writer) found')).symm
    refine ⟨reads, reads', fun i => ?_⟩
    rw [OpenFile.io, AList.lookup, records]
    obtain rfl | other := eq_or_ne i 1
    · exact ⟨.inl rfl, .inl rfl, .inl rfl⟩
    · rw [dlookup_cons_ne _ _ other]
      exact ⟨.inl rfl, .inl rfl, .inl rfl⟩
  · rintro _ ⟨⟩
    refine ⟨trivial, ?_⟩
    rintro _ ⟨⟩
    refine ⟨trivial, ?_⟩
    rintro _ ⟨⟩
    trivial

/-- An allocation that fails in `inode_io` leaves an entry without a handle. -/
theorem register_leaves_empty_entry :
    ((step start (.register 1 "a" "a" false (some .inodeIo))).openFiles.lookup "a").map
      (fun o => (o.handles, o.readers, o.writer)) = some ([], 0, false) := by
  decide

end Ngs3fs.Open
