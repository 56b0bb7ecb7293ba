import Mathlib.Algebra.BigOperators.Group.Finset.Basic
import Ngs3fs.Open.Registry

/-!
# What an entry counts

`EntryOk` ties the counters of one entry to its handles. One lemma for each way an entry changes: a
handle enters or is given up, a reader gets its mode, a handle leaves. -/

namespace Ngs3fs.Open
open List AList Function

def Handle.reads (x : Handle) (i : Inode) (mode : IoMode) : Bool :=
  !x.writable && x.inode == i && decide (x.ioMode = mode)

def OpenFile.sum (o : OpenFile) : Nat := (o.inodeIo.entries.map fun e => e.2.total).sum

/-- The readers are the handles that read, a writer is alone, each reader is counted for its inode
under its own mode, and no record is kept for nothing. -/
structure EntryOk (handles : HandleId → Handle) (o : OpenFile) : Prop where
  nodup : o.handles.Nodup
  readers : o.readers = o.handles.countP fun h => !(handles h).writable
  writer : o.writer = true ↔ ∃ h ∈ o.handles, (handles h).writable = true
  alone : o.writer = true → o.handles.length = 1
  io : ∀ i mode, (o.io i).of mode = o.handles.countP fun h => (handles h).reads i mode
  used : ∀ i x, o.inodeIo.lookup i = some x → x.total ≠ 0
  apart : ∀ i, (o.io i).normalReaders = 0 ∨ (o.io i).passthroughReaders = 0
  backing : ∀ i, (o.io i).backingId ≠ 0 ↔ (o.io i).passthroughReaders ≠ 0

section
variable {α : Type} {l : List α} {a : α} {P Q : α → Bool}

lemma countP_change (nodup : l.Nodup) (mem : a ∈ l) (same : ∀ b ∈ l, b ≠ a → Q b = P b) :
    l.countP Q + (P a).toNat = l.countP P + (Q a).toNat := by
  induction l with
  | nil => cases mem
  | cons b l ih =>
    obtain ⟨fresh, nodup⟩ := nodup_cons.1 nodup
    rw [countP_cons, countP_cons]
    obtain rfl | mem := mem_cons.1 mem
    · have rest : l.countP Q = l.countP P := by
        refine countP_congr fun b mem => ?_
        rw [same b (mem_cons_of_mem _ mem) fun h => fresh (h ▸ mem)]
      rw [rest]
      cases P a <;> cases Q a <;> simp
    · have other : b ≠ a := fun h => fresh (h ▸ mem)
      have h := ih nodup mem fun c mem => same c (mem_cons_of_mem _ mem)
      rw [same b mem_cons_self other]
      omega

lemma countP_drop [DecidableEq α] (nodup : l.Nodup) (mem : a ∈ l) :
    (l.filter (· ≠ a)).countP P + (P a).toNat = l.countP P := by
  have h := countP_change (P := P) (Q := fun b => P b && decide (b ≠ a)) nodup mem fun b _
      other => by
    simp [other]
  rw [countP_filter]
  simpa using h

end

section
variable {handles handles' : HandleId → Handle} {o : OpenFile} {h : HandleId} {i : Inode}
    {mode : IoMode}

@[simp] lemma none_of (m : IoMode) : InodeIo.none.of m = 0 := by
  cases m <;> rfl

lemma io_eq {x} (found : o.inodeIo.lookup i = some x) : o.io i = x := by
  rw [OpenFile.io, found]
  rfl

lemma EntryOk.congr (ok : EntryOk handles o) (same : ∀ h ∈ o.handles,
    (handles' h).writable = (handles h).writable ∧ (handles' h).inode = (handles h).inode ∧
      (handles' h).ioMode = (handles h).ioMode) : EntryOk handles' o := by
  have reads (i : Inode) (mode : IoMode) : ∀ h ∈ o.handles,
      (handles' h).reads i mode = (handles h).reads i mode := by
    intro h mem
    rw [Handle.reads, (same h mem).1, (same h mem).2.1, (same h mem).2.2]
    rfl
  refine { ok with readers := ?_, writer := ?_, io := fun i mode => ?_ }
  · rw [ok.readers]
    exact countP_congr fun h mem => by rw [(same h mem).1]
  · rw [ok.writer]
    exact exists_congr fun h => and_congr_right fun mem => by rw [(same h mem).1]
  · rw [ok.io]
    exact countP_congr fun h mem => by rw [reads i mode h mem]

lemma EntryOk.lookup (ok : EntryOk handles o) (mem : h ∈ o.handles)
    (reader : (handles h).writable = false) :
    ∃ x, o.inodeIo.lookup (handles h).inode = some x ∧ x.of (handles h).ioMode ≠ 0 := by
  have counted : (o.io (handles h).inode).of (handles h).ioMode ≠ 0 := by
    rw [ok.io]
    refine Nat.ne_of_gt (countP_pos_iff.2 ⟨h, mem, ?_⟩)
    simp only [Handle.reads, reader, Bool.not_false, beq_self_eq_true, decide_true, Bool.and_self]
  cases found : o.inodeIo.lookup (handles h).inode with
  | none =>
    rw [OpenFile.io, found] at counted
    exact absurd (none_of _) counted
  | some x =>
    rw [io_eq found] at counted
    exact ⟨x, rfl, counted⟩

lemma total_eq (x : InodeIo) : x.total = x.of .pending + x.of .normal + x.of .passthrough := rfl

lemma EntryOk.total_eq_count (ok : EntryOk handles o) (i : Inode) :
    (o.io i).total = ((o.handles.filter fun h => !(handles h).writable).map
      fun h => (handles h).inode).count i := by
  rw [total_eq, ok.io, ok.io, ok.io, count, countP_map, countP_filter]
  generalize o.handles = hs
  induction hs with
  | nil => rfl
  | cons h hs ih =>
    simp only [countP_cons, comp, Handle.reads] at ih ⊢
    rw [← ih]
    cases (handles h).writable <;> cases (handles h).inode == i <;> cases (handles h).ioMode <;>
      simp <;> omega

lemma EntryOk.sum_eq (ok : EntryOk handles o) : o.sum = o.readers := by
  have totals : o.sum = (o.inodeIo.keys.map fun i => (o.io i).total).sum := by
    rw [OpenFile.sum, AList.keys, List.keys, map_map]
    refine congrArg _ (map_congr_left fun e mem => ?_)
    obtain ⟨i, x⟩ := e
    rw [Function.comp, io_eq (mem_lookup_iff.2 mem)]
  rw [totals, ok.readers, ← sum_toFinset _ o.inodeIo.keys_nodup]
  simp only [ok.total_eq_count]
  rw [countP_eq_length_filter, ← length_map (fun h => (handles h).inode)]
  simp only [← Multiset.coe_count, ← Multiset.coe_card]
  refine Multiset.sum_count_eq_card fun i mem => ?_
  obtain ⟨h, member, rfl⟩ := mem_map.1 (Multiset.mem_coe.1 mem)
  obtain ⟨member, reader⟩ := mem_filter.1 member
  obtain ⟨x, found, -⟩ := ok.lookup member (by simpa using reader)
  exact mem_toFinset.2 (mem_keys.1 (lookup_isSome.1 (by rw [found]; rfl)))

lemma EntryOk.of_same {o'} (ok : EntryOk handles o) (hs : o'.handles = o.handles)
    (readers : o'.readers = o.readers) (writer : o'.writer = o.writer) (io : ∀ i, o'.io i = o.io i)
    (used : ∀ i x, o'.inodeIo.lookup i = some x → x.total ≠ 0) : EntryOk handles o' := by
  refine ⟨?_, ?_, ?_, ?_, fun i mode => ?_, used, fun i => ?_, fun i => ?_⟩
  · rw [hs]
    exact ok.nodup
  · rw [readers, hs]
    exact ok.readers
  · rw [writer, hs]
    exact ok.writer
  · rw [writer, hs]
    exact ok.alone
  · rw [io, hs]
    exact ok.io i mode
  · rw [io]
    exact ok.apart i
  · rw [io]
    exact ok.backing i

lemma entryOk_none : EntryOk handles .none := by
  refine ⟨nodup_nil, rfl, ?_, ?_, fun i mode => ?_, fun i x found => ?_, fun i => ?_, fun i => ?_⟩
  · simp [OpenFile.none]
  · exact fun h => (Bool.false_ne_true h).elim
  · exact none_of mode
  · cases found
  · exact .inl rfl
  · exact Iff.rfl

lemma EntryOk.idle_iff (ok : EntryOk handles o) :
    (!o.writer && decide (o.readers = 0)) = true ↔ o.handles = [] := by
  rw [Bool.and_eq_true, decide_eq_true_eq, Bool.not_eq_true', ok.readers, countP_eq_zero]
  constructor
  · rintro ⟨idle, none⟩
    refine eq_nil_iff_forall_not_mem.2 fun h mem => ?_
    have writes := none h mem
    have busy := ok.writer.2 ⟨h, mem, by simpa using writes⟩
    rw [idle] at busy
    cases busy
  · intro empty
    refine ⟨Bool.eq_false_iff.2 fun busy => ?_, fun h mem => ?_⟩
    · obtain ⟨h, mem, -⟩ := ok.writer.1 busy
      rw [empty] at mem
      cases mem
    · rw [empty] at mem
      cases mem

lemma setIo_io (x : InodeIo) (j : Inode) :
    (o.setIo i x).io j = if j = i then (if x.total = 0 then .none else x) else o.io j := by
  rw [OpenFile.io, OpenFile.setIo]
  by_cases here : j = i
  · subst here
    rw [if_pos rfl]
    split
    · rw [lookup_erase]
      rfl
    · rw [lookup_insert]
      rfl
  · rw [if_neg here]
    split
    · rw [lookup_erase_ne here]
      rfl
    · rw [lookup_insert_ne here]
      rfl

lemma setIo_used (used : ∀ j x, o.inodeIo.lookup j = some x → x.total ≠ 0) (x : InodeIo) :
    ∀ j y, (o.setIo i x).inodeIo.lookup j = some y → y.total ≠ 0 := by
  intro j y found
  rw [OpenFile.setIo] at found
  by_cases here : j = i
  · subst here
    split at found
    · rw [lookup_erase] at found
      cases found
    · rw [lookup_insert] at found
      cases found
      assumption
  · split at found
    · rw [lookup_erase_ne here] at found
      exact used j y found
    · rw [lookup_insert_ne here] at found
      exact used j y found

lemma enter_io (j : Inode) : (o.enter i false).io j =
    if j = i then { o.io i with pendingReaders := (o.io i).pendingReaders + 1 } else o.io j := by
  rw [OpenFile.io, OpenFile.enter, if_neg Bool.false_ne_true]
  by_cases here : j = i
  · subst here
    rw [if_pos rfl, lookup_insert]
    rfl
  · rw [if_neg here, lookup_insert_ne here]
    rfl

lemma enter_used (used : ∀ j x, o.inodeIo.lookup j = some x → x.total ≠ 0) :
    ∀ j x, (o.enter i false).inodeIo.lookup j = some x → x.total ≠ 0 := by
  intro j x found
  rw [OpenFile.enter, if_neg Bool.false_ne_true] at found
  by_cases here : j = i
  · subst here
    rw [lookup_insert] at found
    cases found
    exact Nat.ne_of_gt (Nat.add_pos_left (Nat.add_pos_left (Nat.succ_pos _) _) _)
  · rw [lookup_insert_ne here] at found
    exact used j x found

section
variable (ok : EntryOk handles o)
include ok

lemma EntryOk.io_none (zero : (o.io i).total = 0) : o.io i = .none := by
  rw [OpenFile.io] at zero ⊢
  cases found : o.inodeIo.lookup i with
  | none => rfl
  | some x =>
    rw [found] at zero
    exact absurd zero (ok.used i x found)

lemma EntryOk.rollback (writable : Bool) (free : o.conflicts writable = false) :
    EntryOk handles ((o.enter i writable).rollback i writable) := by
  cases writable with
  | true =>
    have idle : o.writer = false := by
      simp only [OpenFile.conflicts, Bool.true_and, Bool.not_true, Bool.false_and, Bool.or_false,
        Bool.or_eq_false_iff] at free
      exact free.1
    refine ok.of_same rfl rfl idle.symm (fun _ => rfl) ok.used
  | false =>
    have found : (o.enter i false).inodeIo.lookup i =
        some { o.io i with pendingReaders := (o.io i).pendingReaders + 1 } := by
      rw [OpenFile.enter, if_neg Bool.false_ne_true, lookup_insert]
    rw [OpenFile.rollback, if_neg Bool.false_ne_true, found]
    refine ok.of_same ?_ ?_ ?_ (fun j => ?_) (setIo_used (enter_used ok.used) _)
    · simp [OpenFile.setIo, OpenFile.enter]
    · simp [OpenFile.setIo, OpenFile.enter]
    · simp [OpenFile.setIo, OpenFile.enter]
    · rw [setIo_io]
      have same : ({ o.io i with pendingReaders := (o.io i).pendingReaders + 1 - 1 } : InodeIo) =
          o.io i := rfl
      split
      · rename_i here
        subst here
        rw [same]
        split
        · rename_i zero
          rw [ok.io_none zero]
        · rfl
      · rename_i elsewhere
        have h := enter_io (o := o) (i := i) j
        rw [if_neg elsewhere] at h
        exact h

lemma EntryOk.push {x} (free : o.conflicts x.writable = false) (new : h ∉ o.handles)
    (pending : x.ioMode = .pending) :
    EntryOk (update handles h x) ((o.enter x.inode x.writable).push h) := by
  have old : EntryOk (update handles h x) o := by
    refine ok.congr fun g mem => ?_
    have other : g ≠ h := fun same => new (same ▸ mem)
    rw [update_of_ne other]
    exact ⟨rfl, rfl, rfl⟩
  have self : update handles h x h = x := update_self ..
  have nodup : (o.handles ++ [h]).Nodup := by
    refine nodup_append.2 ⟨ok.nodup, nodup_singleton h, ?_⟩
    rintro a mem b member rfl
    obtain rfl := mem_singleton.1 member
    exact new mem
  generalize update handles h x = table at old self
  have counted (P : HandleId → Bool) :
      (o.handles ++ [h]).countP P = o.handles.countP P + (P h).toNat := by
    rw [countP_append, countP_singleton]
    cases P h <;> rfl
  cases kind : x.writable with
  | true =>
    simp only [kind, OpenFile.conflicts, Bool.true_and, Bool.not_true, Bool.false_and,
        Bool.or_false, Bool.or_eq_false_iff, decide_eq_false_iff_not, not_not] at free
    have empty := old.idle_iff.1 (by rw [free.1, free.2]; rfl)
    rw [OpenFile.enter, if_pos rfl, OpenFile.push]
    refine ⟨nodup, ?_, ?_, fun _ => ?_, fun i mode => ?_, old.used, old.apart, old.backing⟩
    · rw [counted, ← old.readers, self, kind]
      rfl
    · simp only [true_iff]
      exact ⟨h, mem_append_right _ (mem_singleton_self h), by rw [self, kind]⟩
    · simp only [empty]
      rfl
    · rw [counted, ← old.io, self, Handle.reads, kind]
      rfl
  | false =>
    simp only [kind, OpenFile.conflicts, Bool.false_and, Bool.not_false, Bool.true_and,
      Bool.false_or] at free
    have hs : (o.enter x.inode false).handles = o.handles := rfl
    have io (j : Inode) := enter_io (o := o) (i := x.inode) j
    rw [OpenFile.push, hs]
    refine ⟨nodup, ?_, ?_, ?_, fun j mode => ?_, ?_, fun j => ?_, fun j => ?_⟩
    · rw [counted, ← old.readers, self, kind]
      rfl
    · show o.writer = true ↔ _
      rw [old.writer]
      constructor
      · rintro ⟨g, mem, writes⟩
        exact ⟨g, mem_append_left _ mem, writes⟩
      · rintro ⟨g, mem, writes⟩
        obtain mem | mem := mem_append.1 mem
        · exact ⟨g, mem, writes⟩
        · obtain rfl := mem_singleton.1 mem
          rw [self, kind] at writes
          cases writes
    · show o.writer = true → _
      rw [free]
      exact fun h => (Bool.false_ne_true h).elim
    · show ((o.enter x.inode false).io j).of mode = _
      rw [io, counted, ← old.io, self, Handle.reads, kind, pending]
      by_cases here : j = x.inode
      · subst here
        rw [if_pos rfl]
        cases mode <;> simp [InodeIo.of]
      · rw [if_neg here, beq_false_of_ne (Ne.symm here)]
        rfl
    · exact enter_used old.used
    · show ((o.enter x.inode false).io j).normalReaders = 0 ∨
        ((o.enter x.inode false).io j).passthroughReaders = 0
      have h := old.apart j
      rw [io]
      split
      · rename_i here
        subst here
        exact h
      · exact h
    · show ((o.enter x.inode false).io j).backingId ≠ 0 ↔
        ((o.enter x.inode false).io j).passthroughReaders ≠ 0
      have h := old.backing j
      rw [io]
      split
      · rename_i here
        subst here
        exact h
      · exact h

lemma EntryOk.choose {x backing b} (mem : h ∈ o.handles)
    (reader : (handles h).writable = false) (pending : (handles h).ioMode = .pending)
    (found : o.inodeIo.lookup (handles h).inode = some x)
    (chosen : mode = .normal ∧ x.passthroughReaders = 0 ∧ backing = 0 ∨ mode = .passthrough ∧
      x.normalReaders = 0 ∧ backing ≠ 0) :
    EntryOk (update handles h { handles h with ioMode := mode, backingId := b })
      { o with inodeIo := o.inodeIo.insert (handles h).inode (x.choose mode backing) } := by
  have known := io_eq found
  have self : update handles h { handles h with ioMode := mode, backingId := b } h =
      { handles h with ioMode := mode, backingId := b } := update_self ..
  have others : ∀ g ≠ h,
      update handles h { handles h with ioMode := mode, backingId := b } g =
      handles g := fun g other => update_of_ne other ..
  generalize update handles h { handles h with ioMode := mode, backingId := b } = table
    at self others
  have writes (g : HandleId) : (table g).writable = (handles g).writable := by
    by_cases here : g = h
    · rw [here, self]
    · rw [others g here]
  have counts (j : Inode) (m : IoMode) := countP_change (P := fun g => (handles g).reads j m)
    (Q := fun g => (table g).reads j m) ok.nodup mem fun g _ other => by rw [others g other]
  have inode := ok.io (handles h).inode
  rw [known] at inode
  refine ⟨ok.nodup, ?_, ?_, ok.alone, fun j m => ?_, fun j y lookup => ?_, fun j => ?_, fun j => ?_⟩
  · rw [ok.readers]
    simp only [writes]
  · rw [ok.writer]
    simp only [writes]
  · have h' := counts j m
    simp only [← ok.io] at h'
    rw [self, Handle.reads, Handle.reads, reader, pending] at h'
    rw [OpenFile.io]
    by_cases here : j = (handles h).inode
    · subst here
      rw [lookup_insert, Option.getD_some]
      rw [known] at h'
      obtain ⟨rfl, -⟩ | ⟨rfl, -⟩ := chosen
      all_goals cases m <;> simp [InodeIo.of, InodeIo.choose, InodeIo.put,
        InodeIo.choose] at h' ⊢ <;> omega
    · rw [lookup_insert_ne here]
      rw [beq_false_of_ne (Ne.symm here)] at h'
      exact h'.symm
  · by_cases here : j = (handles h).inode
    · subst here
      rw [lookup_insert] at lookup
      cases lookup
      obtain ⟨rfl, -⟩ | ⟨rfl, -⟩ :=
        chosen <;> simp [InodeIo.total, InodeIo.choose, InodeIo.put, InodeIo.choose]
    · rw [lookup_insert_ne here] at lookup
      exact ok.used j y lookup
  · rw [OpenFile.io]
    by_cases here : j = (handles h).inode
    · subst here
      rw [lookup_insert, Option.getD_some]
      obtain ⟨rfl, zero, -⟩ | ⟨rfl, zero, -⟩ := chosen
      · exact .inr zero
      · exact .inl zero
    · rw [lookup_insert_ne here]
      exact ok.apart j
  · rw [OpenFile.io]
    by_cases here : j = (handles h).inode
    · subst here
      rw [lookup_insert, Option.getD_some]
      obtain ⟨rfl, zero, none⟩ | ⟨rfl, zero, some⟩ := chosen
      · simp [InodeIo.choose, InodeIo.put, none, zero]
      · simp [InodeIo.choose, InodeIo.put, some, InodeIo.of]
    · rw [lookup_insert_ne here]
      exact ok.backing j

lemma EntryOk.dropWriter (mem : h ∈ o.handles) (writes : (handles h).writable = true) :
    EntryOk handles { o.drop h with writer := false } := by
  have alone := ok.alone (ok.writer.2 ⟨h, mem, writes⟩)
  obtain ⟨g, only⟩ := length_eq_one_iff.1 alone
  rw [only] at mem
  obtain rfl := mem_singleton.1 mem
  have empty : (o.drop h).handles = [] := by simp [OpenFile.drop, only]
  have same (P : HandleId → Bool) (none : P h = false) : o.handles.countP P = 0 := by
    rw [only, countP_singleton, none]
    rfl
  refine ⟨?_, ?_, ?_, nofun, fun i m => ?_, ok.used, ok.apart, ok.backing⟩
  · rw [empty]
    exact nodup_nil
  · rw [empty]
    have readers := ok.readers
    rw [same _ (by simp [writes])] at readers
    exact readers
  · rw [empty]
    simp
  · rw [empty]
    have io := ok.io i m
    rw [same _ (by simp [Handle.reads, writes])] at io
    exact io

end

lemma leave_of (x : InodeIo) (m m' : IoMode) :
    (x.leave m).of m' = if m' = m then x.of m - 1 else x.of m' := by
  cases m <;> cases m' <;> rfl

lemma leave_le (x : InodeIo) (m m' : IoMode) : (x.leave m).of m' ≤ x.of m' := by
  rw [leave_of]
  split
  · rename_i same
    rw [same]
    exact Nat.sub_le _ _
  · exact Nat.le_refl _

lemma leave_backing (x : InodeIo) (m : IoMode) : (x.leave m).backingId =
    if (x.leave m).passthroughReaders = 0 then 0 else x.backingId := by
  cases m <;> rfl

lemma of_zero {x : InodeIo} (none : x.total = 0) (m : IoMode) : x.of m = 0 := by
  rw [total_eq] at none
  cases m <;> omega

lemma EntryOk.dropReader (ok : EntryOk handles o) (mem : h ∈ o.handles)
    (reader : (handles h).writable = false) :
    EntryOk handles ((o.drop h).leave (handles h).inode (handles h).ioMode) := by
  obtain ⟨x, found, counted⟩ := ok.lookup mem reader
  have known := io_eq found
  have drop (P : HandleId → Bool) :
      (o.drop h).handles.countP P + (P h).toNat = o.handles.countP P :=
    countP_drop ok.nodup mem
  have left : (o.drop h).readers ≠ 0 := by
    show o.readers ≠ 0
    rw [ok.readers]
    exact Nat.ne_of_gt (countP_pos_iff.2 ⟨h, mem, by simp [reader]⟩)
  have found' : (o.drop h).inodeIo.lookup (handles h).inode = .some x := found
  rw [OpenFile.leave, if_neg left, found']
  clear left
  refine ⟨?_, ?_, ?_, ?_, fun j m => ?_, setIo_used ok.used _, fun j => ?_, fun j => ?_⟩
  · exact ok.nodup.filter _
  · have h' := drop fun g => !(handles g).writable
    rw [← ok.readers, reader] at h'
    show o.readers - 1 = (o.drop h).handles.countP _
    simp only [Bool.not_false, Bool.toNat_true] at h'
    omega
  · show o.writer = true ↔ ∃ g ∈ o.handles.filter _, _
    rw [ok.writer]
    refine exists_congr fun g =>
        ⟨fun ⟨member, writes⟩ => ⟨?_, writes⟩, fun ⟨member, writes⟩ => ⟨?_, writes⟩⟩
    · refine mem_filter.2 ⟨member, decide_eq_true ?_⟩
      rintro rfl
      rw [reader] at writes
      cases writes
    · exact (mem_filter.1 member).1
  · intro writes
    obtain ⟨g, member, busy⟩ := ok.writer.1 writes
    obtain ⟨a, only⟩ := length_eq_one_iff.1 (ok.alone writes)
    rw [only] at mem member
    obtain rfl := mem_singleton.1 mem
    obtain rfl := mem_singleton.1 member
    rw [reader] at busy
    cases busy
  · have h' := drop fun g => (handles g).reads j m
    rw [← ok.io] at h'
    show (OpenFile.io _ j).of m = (o.drop h).handles.countP _
    rw [setIo_io]
    by_cases here : j = (handles h).inode
    · subst here
      rw [if_pos rfl]
      have reads : (handles h).reads (handles h).inode m = decide ((handles h).ioMode = m) := by
        rw [Handle.reads, reader, beq_self_eq_true]
        rfl
      have value : (x.leave (handles h).ioMode).of m =
          (o.drop h).handles.countP fun g => (handles g).reads (handles h).inode m := by
        rw [known, reads] at h'
        rw [leave_of]
        split
        · rename_i same
          rw [same] at h' ⊢
          simp only [decide_true, Bool.toNat_true] at h'
          omega
        · rename_i other
          rw [decide_eq_false (Ne.symm other)] at h'
          exact h'.symm
      split
      · rename_i none
        rw [none_of, ← value, of_zero none]
      · exact value
    · rw [if_neg here]
      have reads : (handles h).reads j m = false := by
        simp [Handle.reads, Ne.symm here]
      rw [reads] at h'
      exact h'.symm
  · have h' := ok.apart j
    rw [setIo_io]
    split
    · rename_i here
      subst here
      rw [known] at h'
      split
      · exact .inl rfl
      · have normal := leave_le x (handles h).ioMode .normal
        have passthrough := leave_le x (handles h).ioMode .passthrough
        simp only [InodeIo.of] at normal passthrough
        omega
    · exact h'
  · have h' := ok.backing j
    rw [setIo_io]
    split
    · rename_i here
      subst here
      rw [known] at h'
      split
      · exact Iff.rfl
      · rw [leave_backing]
        have passthrough := leave_le x (handles h).ioMode .passthrough
        simp only [InodeIo.of] at passthrough
        split
        · rename_i none
          rw [none]
        · rename_i more
          exact ⟨fun _ => more, fun _ => h'.2 (by omega)⟩
    · exact h'

end

def joinIo : Option InodeIo → Option InodeIo → Option InodeIo
  | none, y => y
  | some x, none => some x
  | some x, some y => some
      { pendingReaders := y.pendingReaders + x.pendingReaders
        normalReaders := y.normalReaders + x.normalReaders
        passthroughReaders := y.passthroughReaders + x.passthroughReaders
        backingId := if y.backingId = 0 then x.backingId else y.backingId }

lemma joinIo_of (x y : Option InodeIo) (m : IoMode) :
    ((joinIo x y).getD .none).of m = (y.getD .none).of m + (x.getD .none).of m := by
  cases x with
  | none => cases m <;> rfl
  | some x =>
    cases y with
    | none => cases m <;> exact (Nat.zero_add _).symm
    | some y => cases m <;> rfl

lemma joinIo_backing (x y : Option InodeIo) : ((joinIo x y).getD .none).backingId =
    if (y.getD .none).backingId = 0 then (x.getD .none).backingId else
        (y.getD .none).backingId := by
  cases x with
  | none =>
    show (y.getD .none).backingId = if (y.getD .none).backingId = 0 then 0 else
        (y.getD .none).backingId
    split
    · assumption
    · rfl
  | some x => cases y <;> rfl

lemma mergeIo_lookup {l io}
    (nodup : l.NodupKeys) (fits : ∀ i x y, l.dlookup i = some x → io.lookup i = some y →
      x.backingId = 0 ∨ y.backingId = 0 ∨ x.backingId = y.backingId) :
    (mergeIo none l io).2 = .ok () ∧
      ∀ j, (mergeIo none l io).1.lookup j = joinIo (l.dlookup j) (io.lookup j) := by
  induction l generalizing io with
  | nil => exact ⟨rfl, fun _ => rfl⟩
  | cons e l ih =>
    obtain ⟨i, x⟩ := e
    obtain ⟨new, nodup⟩ := nodupKeys_cons.1 nodup
    have absent : l.dlookup i = none := dlookup_eq_none.2 new
    have later (v : InodeIo) : ∀ j x y, l.dlookup j = some x → (io.insert i v).lookup j = some y →
        x.backingId = 0 ∨ y.backingId = 0 ∨ x.backingId = y.backingId := by
      intro j x y first second
      have other : j ≠ i := by
        rintro rfl
        rw [absent] at first
        cases first
      rw [lookup_insert_ne other] at second
      exact fits j x y (by rw [dlookup_cons_ne _ _ other]; exact first) second
    -- what the rest of the merge makes of the record just written
    have rest (v : InodeIo) (here : joinIo (some x) (io.lookup i) = some v) (j : Inode) :
        joinIo (l.dlookup j) ((io.insert i v).lookup j) =
          joinIo (dlookup j (⟨i, x⟩ :: l)) (io.lookup j) := by
      by_cases same : j = i
      · subst same
        rw [absent, lookup_insert, dlookup_cons_eq, here]
        rfl
      · rw [lookup_insert_ne same, dlookup_cons_ne _ _ same]
    cases found : io.lookup i with
    | none =>
      have next : mergeIo none (⟨i, x⟩ :: l) io = mergeIo none l (io.insert i x) := by
        rw [mergeIo.eq_def]
        simp only [found]
        rfl
      obtain ⟨ended, lookup⟩ := ih nodup (later x)
      have joined : joinIo (some x) (io.lookup i) = some x := by
        rw [found]
        rfl
      rw [next]
      exact ⟨ended, fun j => (lookup j).trans (rest x joined j)⟩
    | some y =>
      have one := fits i x y (dlookup_cons_eq ..) found
      have single : ¬(decide (y.backingId ≠ 0) && decide (x.backingId ≠ 0) &&
          decide (y.backingId ≠ x.backingId)) = true := by
        simp only [Bool.and_eq_true, decide_eq_true_eq]
        omega
      obtain ⟨v, joined⟩ : ∃ v, joinIo (some x) (io.lookup i) = some v := by
        rw [found]
        exact ⟨_, rfl⟩
      have next : mergeIo none (⟨i, x⟩ :: l) io = mergeIo none l (io.insert i v) := by
        rw [mergeIo.eq_def]
        simp only [found]
        rw [if_neg single]
        rw [found] at joined
        cases joined
        rfl
      obtain ⟨ended, lookup⟩ := ih nodup (later v)
      rw [next]
      exact ⟨ended, fun j => (lookup j).trans (rest v joined j)⟩

lemma EntryOk.merge {handles src dst out} (source : EntryOk handles src)
    (destination : EntryOk handles dst) (apart : ∀ h ∈ dst.handles, h ∉ src.handles)
    (reads : src.writer = false ∧ dst.writer = false)
    (modes : ∀ i, ((src.io i).normalReaders = 0 ∨ (dst.io i).passthroughReaders = 0) ∧
      ((src.io i).passthroughReaders = 0 ∨ (dst.io i).normalReaders = 0))
    (hs : out.handles = dst.handles ++ src.handles)
    (readers : out.readers = dst.readers + src.readers) (writer : out.writer = false)
    (io : ∀ i, out.inodeIo.lookup i = joinIo (src.inodeIo.lookup i) (dst.inodeIo.lookup i)) :
    EntryOk handles out := by
  have joined (i : Inode) : (∀ m, (out.io i).of m = (dst.io i).of m + (src.io i).of m) ∧
      (out.io i).backingId = if (dst.io i).backingId = 0 then (src.io i).backingId
        else (dst.io i).backingId := by
    simp only [OpenFile.io, io]
    exact ⟨joinIo_of _ _, joinIo_backing _ _⟩
  refine ⟨?_, ?_, ?_, ?_, fun i m => ?_, fun i x found => ?_, fun i => ?_, fun i => ?_⟩
  · rw [hs]
    refine nodup_append.2 ⟨destination.nodup, source.nodup, ?_⟩
    rintro a mem b member rfl
    exact apart a mem member
  · rw [hs, readers, countP_append, destination.readers, source.readers]
  · rw [writer, hs]
    refine iff_of_false Bool.false_ne_true ?_
    rintro ⟨h, mem, writes⟩
    obtain mem | mem := mem_append.1 mem
    · have busy := destination.writer.2 ⟨h, mem, writes⟩
      rw [reads.2] at busy
      cases busy
    · have busy := source.writer.2 ⟨h, mem, writes⟩
      rw [reads.1] at busy
      cases busy
  · rw [writer]
    exact nofun
  · rw [(joined i).1, hs, countP_append, destination.io, source.io]
  · rw [io] at found
    cases first : src.inodeIo.lookup i with
    | none =>
      rw [first] at found
      exact destination.used i x found
    | some y =>
      have used := source.used i y first
      cases second : dst.inodeIo.lookup i with
      | none =>
        rw [first, second] at found
        cases found
        exact used
      | some z =>
        rw [first, second] at found
        cases found
        rw [InodeIo.total] at used ⊢
        dsimp only
        omega
  · have normal := (joined i).1 .normal
    have passthrough := (joined i).1 .passthrough
    have h := modes i
    have first := source.apart i
    have second := destination.apart i
    simp only [InodeIo.of] at normal passthrough
    omega
  · have passthrough := (joined i).1 .passthrough
    have first := source.backing i
    have second := destination.backing i
    simp only [InodeIo.of] at passthrough
    rw [(joined i).2]
    split <;> omega

end Ngs3fs.Open
