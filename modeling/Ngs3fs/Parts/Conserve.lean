import Ngs3fs.Parts.Fair

/-!
# Conservation

The parts that are held, in handles, in uploads, in flushes and in the hands of threads, are what
the budget counts; the slots of the tasks are what the scheduler counts. One step of a task keeps
this because it is `Fair`; the steps of the scheduler only move slots. -/

namespace Ngs3fs.Parts
open Sums Machine List Option Nat

namespace Sys
variable (s : Sys)

def opened : Nat := (s.opens.map OpenStage.holds).sum + (s.opens.map OpenStage.hand).sum

def held : Nat := (s.handles.map fun h => h.currentReservation.toNat).sum

def taskUnits : Nat := (s.tasks.map fun t => t.work.units).sum

def owners (k : Nat) : Nat := (s.tasks.map fun t => (t.handle == k && t.work.owns).toNat).sum

def queue : List Nat :=
  s.uploads.ownerJobs ++ s.uploads.cancelled ++ s.uploads.jobs.filterMap Job.task

lemma units_eq : s.reservations + s.parts + s.flushes + s.hand = s.held + s.opened
    + s.taskUnits := by
  have split (l : List Task) : (l.map fun t => t.work.units).sum =
      (l.map fun t => t.work.parts).sum + (l.map fun t => t.work.flushes).sum +
        (l.map fun t => t.work.hand).sum := by
    induction l with
    | nil => rfl
    | cons t l ih =>
      rw [map_cons, sum_cons, ih, Work.units]
      simp only [map_cons, sum_cons]
      omega
  rw [taskUnits, split]
  simp only [reservations, parts, flushes, hand, held, opened]
  omega

end Sys

structure Fits (c : Config) (h : Handle) (t : Task) : Prop where
  ready : Ready h t.work t.slot
  alive : t.work.guards c = true → h.life ≠ .retired
  once : t.admits ≤ 1
  balance : t.admits = t.finishes + t.slot.toNat
  fresh : t.work.fresh = true → t.admits = 0

/-- `a` says whether a `RELEASE` request may have failed. -/
structure Handle.Rests (a : Bool) (h : Handle) : Prop where
  part : h.Backed
  retired : h.life = .retired → h.currentReservation = false
  abandoned : h.life = .abandoned → a = true

structure Body (c : Config) (a : Bool) (s : Sys) : Prop where
  handles : ∀ h ∈ s.handles, h.Rests a
  tasks : ∀ t ∈ s.tasks, ∃ h, s.handles[t.handle]? = some h ∧ Fits c h t
  owners : ∀ k h, s.handles[k]? = some h → s.owners k = h.writeInProgress.toNat
  distinct : s.queue.Nodup
  queued : ∀ i ∈ s.queue, ∃ t, s.tasks[i]? = some t ∧ t.work.queued = true

/-- Before a new task gets the part, or a task the slot, that is meant for it. -/
structure Counters (c : Config) (s : Sys) (part slot : Bool) : Prop where
  pinned : s.pinnedBytes = c.partSize * (s.held + s.opened + s.taskUnits + part.toNat)
  pinned_le : s.pinnedBytes ≤ c.maxPinnedMemory
  no_underflow : s.underflow = false
  active : s.uploads.activeUploads = s.slots + slot.toNat
  active_le : s.uploads.activeUploads ≤ c.maxUploads
  no_abort : s.uploads.aborted = false

structure Inv (c : Config) (a : Bool) (s : Sys) : Prop where
  body : Body c a s
  counters : Counters c s false false

section
variable {c : Config} {a : Bool} {s : Sys} {i : Nat} {t t' : Task} {h h' : Handle}
variable {k : Nat}

lemma two_owners {j u} (ne : j ≠ i) (ht : s.tasks[i]? = some t)
    (hu : s.tasks[j]? = some u) (tk : t.handle = k) (uk : u.handle = k) (town : t.work.owns = true)
    (uown : u.work.owns = true) : 2 ≤ s.owners k := by
  have changed := sum_map_set (fun t : Task => (t.handle == k && t.work.owns).toNat)
    { t with work := .done } ht
  -- the sum without the first task still has the second one
  have still : (s.tasks.set i { t with work := .done })[j]? = some u := by
    rw [getElem?_set_ne (Ne.symm ne)]
    exact hu
  have le := sum_map_eraseIdx (fun t : Task => (t.handle == k && t.work.owns).toNat) still
  rw [Sys.owners]
  have ended : Work.owns .done = false := rfl
  simp only [tk, town, uk, uown, ended, beq_self_eq_true, Bool.and_true, Bool.toNat_true,
    Bool.and_false, Bool.toNat_false] at changed le
  omega

lemma Body.progress (body : Body c a s) (ht : s.tasks[i]? = some t)
    (hh : s.handles[t.handle]? = some h) (own : t.work.owns = true) : h.writeInProgress = true := by
  have le := sum_map_eraseIdx (fun u : Task => (u.handle == t.handle && u.work.owns).toNat) ht
  have count := body.owners _ _ hh
  rw [Sys.owners] at count
  rw [count, own, Bool.and_true, beq_self_eq_true, Bool.toNat_true] at le
  cases busy : h.writeInProgress with
  | true => rfl
  | false =>
    rw [busy, Bool.toNat_false] at le
    omega

def Sys.put (s : Sys) (i : Nat) (t' : Task) (h' : Handle) : Sys :=
  { s with handles := s.handles.set t'.handle h', tasks := s.tasks.set i t' }

variable {w : Work}

lemma Fits.leave {u} (fits : Fits c h u) (leaves : Leaves c w h h')
    (other : u.work.owns = true → w.owns = false ∧ h.writeInProgress = true) : Fits c h' u := by
  refine { fits with
      ready := { fits.ready with
        part := leaves.part
        backing := fun backing => ?_
        settled := fun settling => ?_ }
      alive := ?_ }
  · have own : u.work.owns = true := by
      revert backing
      cases u.work with
      | write => exact fun _ => rfl
      | ownerWrite stage => cases stage <;> first | exact fun _ => rfl | exact nofun
      | _ => exact nofun
    obtain ⟨idle, busy⟩ := other own
    rw [leaves.quiet idle busy]
    exact fits.ready.backing backing
  · exact leaves.settled (fits.ready.settled settling)
  · rw [leaves.life]
    exact fits.alive

lemma Body.put (body : Body c a s) (ht : s.tasks[i]? = some t) (hh : s.handles[t.handle]? = some h)
    (same : t'.handle = t.handle) (leaves : Leaves c t.work h h') (fits : Fits c h' t')
    (owns : t'.work.owns.toNat + h.writeInProgress.toNat =
      t.work.owns.toNat + h'.writeInProgress.toNat)
    (guards : t.work.guards c = true → h.life ≠ .retired)
    (out : i ∉ s.queue ∨ t'.work.queued = true) : Body c a (s.put i t' h') := by
  have place : (s.handles.set t'.handle h')[t'.handle]? = some h' := by
    rw [same, getElem?_set_self (List.getElem?_eq_some_iff.1 hh).1]
  have rests := body.handles h (mem_of_getElem? hh)
  refine ⟨?_, ?_, ?_, body.distinct, ?_⟩
  · refine forall_mem_set body.handles ⟨leaves.part, fun retired => ?_,
      leaves.life ▸ rests.abandoned⟩
    rw [leaves.life] at retired
    -- only stray tasks are left, and those do not reserve
    have stray : t.work.guards c = false := by
      by_contra guarded
      exact guards (by simpa using guarded) retired
    rw [leaves.stray stray]
    exact rests.retired retired
  · intro u mem
    obtain ⟨j, hu⟩ := getElem?_of_mem mem
    by_cases at_i : j = i
    · subst at_i
      rw [Sys.put, getElem?_set_self (List.getElem?_eq_some_iff.1 ht).1] at hu
      cases hu
      exact ⟨h', place, fits⟩
    · rw [Sys.put, getElem?_set_ne (Ne.symm at_i)] at hu
      obtain ⟨g, hg, fits'⟩ := body.tasks u (mem_of_getElem? hu)
      by_cases shared : u.handle = t.handle
      · rw [shared, hh] at hg
        cases hg
        refine ⟨h', by rw [shared, ← same]; exact place, fits'.leave leaves fun own => ?_⟩
        have busy := body.progress hu (shared ▸ hh) own
        refine ⟨?_, busy⟩
        by_contra mine
        have two := two_owners at_i ht hu rfl shared (by simpa using mine) own
        rw [body.owners _ _ hh, busy, Bool.toNat_true] at two
        omega
      · refine ⟨g, ?_, fits'⟩
        rw [Sys.put, same, getElem?_set_ne (Ne.symm shared)]
        exact hg
  · intro k g hg
    have changed := sum_map_set (fun t : Task => (t.handle == k && t.work.owns).toNat) t' ht
    rw [Sys.owners]
    by_cases own : k = t.handle
    · subst own
      rw [Sys.put, ← same, place] at hg
      cases hg
      have count := body.owners _ _ hh
      rw [Sys.owners] at count
      simp only [same, beq_self_eq_true, Bool.true_and] at changed ⊢
      simp only [Sys.put]
      omega
    · rw [Sys.put, same, getElem?_set_ne (Ne.symm own)] at hg
      have count := body.owners _ _ hg
      rw [Sys.owners] at count
      have other : (t.handle == k) = false := by simpa using Ne.symm own
      simp only [same, other, Bool.false_and, Bool.toNat_false, add_zero] at changed
      simp only [Sys.put]
      omega
  · intro j mem
    obtain ⟨u, hu, queued⟩ := body.queued j mem
    by_cases at_i : j = i
    · subst at_i
      refine ⟨t', ?_, out.resolve_left fun no => no mem⟩
      rw [Sys.put, getElem?_set_self (List.getElem?_eq_some_iff.1 ht).1]
    · refine ⟨u, ?_, queued⟩
      rw [Sys.put, getElem?_set_ne (Ne.symm at_i)]
      exact hu

lemma put_held (hh : s.handles[t'.handle]? = some h) :
    (s.put i t' h').held + h.currentReservation.toNat = s.held + h'.currentReservation.toNat :=
  sum_map_set (fun h : Handle => h.currentReservation.toNat) h' hh

lemma put_taskUnits (ht : s.tasks[i]? = some t) :
    (s.put i t' h').taskUnits + t.work.units = s.taskUnits + t'.work.units :=
  sum_map_set (fun t : Task => t.work.units) t' ht

lemma put_slots (ht : s.tasks[i]? = some t) :
    (s.put i t' h').slots + t.slot.toNat = s.slots + t'.slot.toNat :=
  sum_map_set (fun t : Task => t.slot.toNat) t' ht

/-! ### The queues -/

variable {u : Scheduler}

lemma Body.pop (body : Body c a s) (perm : s.queue.Perm (i :: Sys.queue { s with uploads := u })) :
    Body c a { s with uploads := u } ∧ i ∉ Sys.queue { s with uploads := u } ∧
      ∃ t, s.tasks[i]? = some t ∧ t.work.queued = true := by
  obtain ⟨out, distinct⟩ := nodup_cons.1 (perm.nodup_iff.1 body.distinct)
  refine ⟨{ body with distinct := distinct, queued := fun j mem => ?_ }, out, ?_⟩
  · exact body.queued j (perm.mem_iff.2 (mem_cons_of_mem _ mem))
  · exact body.queued i (perm.mem_iff.2 mem_cons_self)

lemma Body.push (body : Body c a s) (perm : (Sys.queue { s with uploads := u }).Perm (i :: s.queue))
    (out : i ∉ s.queue) (ht : s.tasks[i]? = some t) (queued : t.work.queued = true) :
    Body c a { s with uploads := u } := by
  refine { body with distinct := ?_, queued := fun j mem => ?_ }
  · exact perm.nodup_iff.2 (nodup_cons.2 ⟨out, body.distinct⟩)
  · obtain rfl | mem := mem_cons.1 (perm.mem_iff.1 mem)
    · exact ⟨t, ht, queued⟩
    · exact body.queued j mem

lemma Body.same_queue {b} (body : Body c a s) (same : Sys.queue { s with uploads := u } = s.queue) :
    Body c a { s with uploads := u, budget := b } :=
  { body with distinct := same ▸ body.distinct, queued := fun j mem => body.queued j (same ▸ mem) }

lemma queued_cases (queued : w.queued = true) :
    (∃ budgeted creating attempt, w = .part ⟨.queued, budgeted, creating, attempt⟩) ∨
      ∃ ownsSeal prepared reserved attempt,
        w = .flush ⟨.queued, ownsSeal, prepared, reserved, attempt⟩ := by
  cases w with
  | part p =>
    obtain ⟨stage, budgeted, creating, attempt⟩ := p
    simp only [Work.queued, beq_iff_eq] at queued
    subst queued
    exact .inl ⟨budgeted, creating, attempt, rfl⟩
  | flush f =>
    obtain ⟨stage, ownsSeal, prepared, reserved, attempt⟩ := f
    simp only [Work.queued, beq_iff_eq] at queued
    subst queued
    exact .inr ⟨ownsSeal, prepared, reserved, attempt, rfl⟩
  | _ => cases queued

structure Resumes (c : Config) (w w' : Work) : Prop where
  units : w'.units = w.units
  owns : w'.owns = false ∧ w.owns = false
  guards : w'.guards c = w.guards c
  backing : w'.backing = none
  settling : w'.settling = false
  slotted : w'.slotted = true
  fresh : w'.fresh = false
  sound : w.Sound → w'.Sound

lemma queued_resumes (queued : w.queued = true) :
    w.fresh = true ∧ Resumes c w w.wake ∧ Resumes c w w.start := by
  obtain ⟨budgeted, creating, attempt, rfl⟩ | ⟨ownsSeal, prepared, reserved, attempt, rfl⟩ :=
    queued_cases queued
  · refine ⟨rfl, ?_, ?_⟩
    all_goals exact ⟨rfl, ⟨rfl, rfl⟩, rfl, rfl, rfl, rfl, rfl, fun _ => trivial⟩
  · refine ⟨rfl, ?_, ?_⟩
    all_goals exact ⟨rfl, ⟨rfl, rfl⟩, rfl, rfl, rfl, rfl, rfl, fun sound => ⟨sound.1, trivial⟩⟩

lemma Body.resume {w' slot} (body : Body c a s) (ht : s.tasks[i]? = some t)
    (out : i ∉ s.queue) (resumes : Resumes c t.work w') :
    Body c a { s with tasks := s.tasks.set i ⟨t.handle, w', slot, slot.toNat, 0⟩ } := by
  obtain ⟨h, hh, fits⟩ := body.tasks t (mem_of_getElem? ht)
  have alike := Alike.refl h
  have fits' : Fits c h ⟨t.handle, w', slot, slot.toNat, 0⟩ := by
    refine ⟨⟨resumes.sound fits.ready.sound, fits.ready.part, ?_, ?_, fun _ => resumes.slotted,
        ?_⟩, ?_,
      ?_, ?_, ?_⟩
    · rw [resumes.backing]
      exact nofun
    · rw [resumes.settling]
      exact nofun
    · rw [resumes.fresh]
      exact nofun
    · rw [resumes.guards]
      exact fits.alive
    · exact Bool.toNat_le slot
    · exact (zero_add _).symm
    · rw [resumes.fresh]
      exact nofun
  have moved : Body c a (s.put i ⟨t.handle, w', slot, slot.toNat, 0⟩ h) := body.put ht hh rfl
    (alike.leaves fits.ready.part) fits' (by rw [resumes.owns.1, resumes.owns.2]) fits.alive
    (.inl out)
  -- the handle is put back as it was
  rwa [Sys.put, set_of_getElem? hh] at moved

lemma Body.unslotted (body : Body c a s) (ht : s.tasks[i]? = some t)
    (queued : t.work.queued = true) :
    t.slot = false ∧ t.admits = 0 ∧ t.finishes = 0 := by
  obtain ⟨h, -, fits⟩ := body.tasks t (mem_of_getElem? ht)
  have fresh := (queued_resumes (c := c) queued).1
  have none := fits.fresh fresh
  have balance := fits.balance
  exact ⟨fits.ready.fresh fresh, none, by omega⟩

lemma modify_at (ht : s.tasks[i]? = some t) (f : Task → Task) :
    s.modify i f = { s with tasks := s.tasks.set i (f t) } := by
  rw [Sys.modify, modify_eq_set_getElem?, ht]
  rfl

lemma Inv.resume {w'} (slot : Bool) (f : Task → Task) (body : Body c a s)
    (granting : Counters c s false slot) (out : i ∉ s.queue) (ht : s.tasks[i]? = some t)
    (queued : t.work.queued = true) (resumes : Resumes c t.work w')
    (next : t.admits = 0 → t.finishes = 0 → t.slot = false →
      f t = ⟨t.handle, w', slot, slot.toNat, 0⟩) : Inv c a (s.modify i f) := by
  obtain ⟨unslotted, admits, finishes⟩ := body.unslotted ht queued
  rw [modify_at ht, next admits finishes unslotted]
  refine ⟨body.resume ht out resumes, ?_, granting.pinned_le, granting.no_underflow, ?_,
    granting.active_le, granting.no_abort⟩
  · have units := sum_map_set (fun t : Task => t.work.units) ⟨t.handle, w', slot, slot.toNat, 0⟩ ht
    rw [resumes.units] at units
    show s.pinnedBytes = c.partSize * (s.held + s.opened + _)
    rw [granting.pinned, Sys.taskUnits, ← add_right_cancel units]
    rfl
  · have slots := sum_map_set (fun t : Task => t.slot.toNat) ⟨t.handle, w', slot, slot.toNat, 0⟩ ht
    rw [unslotted] at slots
    exact granting.active.trans slots.symm

lemma Inv.admitted (body : Body c a s) (granting : Counters c s false true) (out : i ∉ s.queue)
    (ht : s.tasks[i]? = some t) (queued : t.work.queued = true) : Inv c a (s.admitOwner i) := by
  refine .resume true _ body granting out ht queued (queued_resumes queued).2.1 fun admits finishes
      _ => ?_
  simp only [Task.activate, admits, finishes]
  rfl

lemma Inv.wake (body : Body c a s) (granting : Counters c s false false) (out : i ∉ s.queue)
    (ht : s.tasks[i]? = some t) (queued : t.work.queued = true) :
    Inv c a (s.modify i fun t => { t with work := t.work.wake }) := by
  refine .resume false _ body granting out ht queued (queued_resumes queued).2.1
    fun admits finishes slot => ?_
  simp only [admits, finishes, slot]
  rfl

section
variable (inv : Inv c a s) (out : i ∉ s.queue) (ht : s.tasks[i]? = some t)
  (queued : t.work.queued = true)
include inv out ht queued

lemma Inv.submitOwner (fault : Fault) : Inv c a (s.submitOwner c i fault) := by
  have k := inv.counters
  rw [Sys.submitOwner]
  split
  · exact .wake inv.body k out ht queued
  split
  · rename_i free
    refine .admitted (inv.body.same_queue (b := s.budget) rfl) ?_ out ht queued
    exact { k with active := congrArg (· + 1) k.active, active_le := free }
  split
  · exact .wake inv.body k out ht queued
  · refine ⟨inv.body.push ?_ out ht queued, k.pinned, k.pinned_le, k.no_underflow, k.active,
      k.active_le, k.no_abort⟩
    show (s.uploads.ownerJobs ++ [i] ++ s.uploads.cancelled ++ _).Perm _
    rw [append_assoc, append_assoc]
    refine perm_middle.trans ?_
    rw [Sys.queue, append_assoc]
    rfl

lemma Inv.submitJob (owner : Nat) : Inv c a (s.submitJob i owner) := by
  have k := inv.counters
  refine ⟨inv.body.push ?_ out ht queued, k.pinned, k.pinned_le, k.no_underflow, k.active,
    k.active_le, k.no_abort⟩
  show (s.uploads.ownerJobs ++ s.uploads.cancelled ++
    (s.uploads.jobs ++ [Job.mk owner (some i)]).filterMap Job.task).Perm _
  rw [filterMap_append, ← append_assoc]
  exact perm_append_singleton i s.queue

end

lemma Fits.stray {u} (fits : Fits c h u) (stray : u.work.guards c = false)
    (part : h'.Backed) : Fits c h' u := by
  have plain : u.work.backing = none ∧ u.work.settling = false := by
    revert stray
    cases u.work with
    | part p | retire | done => exact fun _ => ⟨rfl, rfl⟩
    | _ => exact nofun
  refine { fits with
      ready := { fits.ready with part := part, backing := ?_, settled := ?_ }
      alive := ?_ }
  · rw [plain.1]
    exact nofun
  · rw [plain.2]
    exact nofun
  · rw [stray]
    exact nofun

lemma Body.spawn (body : Body c a s) (hh : s.handles[t.handle]? = some h) (fits : Fits c h' t)
    (others : ∀ u ∈ s.tasks, u.handle = t.handle → Fits c h u → Fits c h' u)
    (rests : h'.Rests a)
    (owns : t.work.owns.toNat + h.writeInProgress.toNat = h'.writeInProgress.toNat) :
    Body c a { s with handles := s.handles.set t.handle h', tasks := s.tasks ++ [t] } := by
  have place : (s.handles.set t.handle h')[t.handle]? = some h' :=
    getElem?_set_self (List.getElem?_eq_some_iff.1 hh).1
  refine ⟨forall_mem_set body.handles rests,
      forall_mem_concat (fun u mem => ?_) ⟨h', place, fits⟩, ?_,
    body.distinct, fun i mem => ?_⟩
  · obtain ⟨g, hg, fits'⟩ := body.tasks u mem
    by_cases shared : u.handle = t.handle
    · rw [shared, hh] at hg
      cases hg
      exact ⟨h', by rw [shared]; exact place, others u mem shared fits'⟩
    · refine ⟨g, ?_, fits'⟩
      show (s.handles.set t.handle h')[u.handle]? = some g
      rw [getElem?_set_ne (Ne.symm shared)]
      exact hg
  · intro k g hg
    rw [Sys.owners, sum_map_concat]
    by_cases own : k = t.handle
    · subst own
      rw [show (s.handles.set t.handle h')[t.handle]? = some h' from place] at hg
      cases hg
      have count := body.owners _ _ hh
      rw [Sys.owners] at count
      rw [count, beq_self_eq_true, Bool.true_and]
      omega
    · rw [show (s.handles.set t.handle h')[k]? = s.handles[k]? from
        getElem?_set_ne (Ne.symm own)] at hg
      have count := body.owners _ _ hg
      rw [Sys.owners] at count
      have other : (t.handle == k) = false := by simpa using Ne.symm own
      rw [count, other, Bool.false_and]
      rfl
  · obtain ⟨u, hu, queued⟩ := body.queued i mem
    refine ⟨u, ?_, queued⟩
    rw [getElem?_append_left (List.getElem?_eq_some_iff.1 hu).1]
    exact hu

lemma Inv.concat {part} (body : Body c a s) (granting : Counters c s part false)
    (hh : s.handles[t.handle]? = some h) (fits : Fits c h t) (idle : t.work.owns = false)
    (units : t.work.units = part.toNat) (slot : t.slot = false) :
    Inv c a { s with tasks := s.tasks ++ [t] } := by
  have moved := body.spawn hh fits (fun _ _ _ => id) (body.handles h (mem_of_getElem? hh)) (by
    rw [idle, Bool.toNat_false, zero_add])
  rw [set_of_getElem? hh] at moved
  refine ⟨moved, { granting with pinned := ?_, active := ?_ }⟩
  · rw [Sys.taskUnits, sum_map_concat, units, ← add_assoc]
    exact granting.pinned
  · rw [Sys.slots, sum_map_concat, slot]
    exact granting.active

lemma Inv.submitTask {budgeted} (body : Body c a s) (granting : Counters c s budgeted false)
    (hh : s.handles[k]? = some h) (alive : c.engine ≠ .legacy → h.life ≠ .retired) (fault : Fault) :
    Inv c a (s.submitTask c k budgeted fault) := by
  have part := (body.handles h (mem_of_getElem? hh)).part
  have out : s.tasks.length ∉ s.queue := by
    intro mem
    obtain ⟨t, ht, -⟩ := body.queued _ mem
    exact Nat.lt_irrefl _ (List.getElem?_eq_some_iff.1 ht).1
  have fits : Fits c h (.new k (.part ⟨.queued, budgeted, false, 0⟩)) := by
    refine ⟨⟨trivial, part, nofun, nofun, nofun, fun _ => rfl⟩, fun guards => alive ?_, zero_le _,
      rfl, fun _ => rfl⟩
    simpa [Task.new, Work.guards] using guards
  have inv : Inv c a { s with tasks := s.tasks ++
    [.new k (.part ⟨.queued, budgeted, false, 0⟩)] } :=
    .concat body granting hh fits rfl rfl rfl
  have last : (s.tasks ++ [Task.new k (.part ⟨.queued, budgeted, false, 0⟩)])[s.tasks.length]? =
      some (.new k (.part ⟨.queued, budgeted, false, 0⟩)) := getElem?_concat_length
  rw [Sys.submitTask]
  split
  · exact inv.submitJob out last rfl k
  · exact inv.submitOwner out last rfl fault

lemma Inv.submitFlush (inv : Inv c a s) (out : i ∉ s.queue) (ht : s.tasks[i]? = some t)
    (queued : t.work.queued = true) (owner : Nat) (fault : Fault) :
    Inv c a (s.submitFlush c i owner fault) := by
  rw [Sys.submitFlush]
  split
  · split
    · exact .wake inv.body inv.counters out ht queued
    · exact inv.submitJob out ht queued owner
  · exact inv.submitOwner out ht queued fault

/-! ### One step of a task -/

lemma advance_queued {b stopping slot outcome}
    (queued : w.queued = true) : advance c b stopping slot h w outcome = none := by
  obtain ⟨budgeted, creating, attempt, rfl⟩ | ⟨ownsSeal, prepared, reserved, attempt, rfl⟩ :=
    queued_cases queued
  all_goals rfl

section
variable {n : Next}

lemma Fits.step {slot finishes} (fits : Fits c h t)
    (fair : Fair c s.budget t.slot h t.work n) (same : slot = (t.slot && n.effect != .finishUpload))
    (balance : t.admits = finishes + slot.toNat) :
    Fits c n.handle { t with work := n.work, slot, finishes } := by
  refine ⟨same ▸ fair.ready, fun guards => ?_, fits.once, balance, fun fresh => ?_⟩
  · rw [fair.leaves.life]
    exact fits.alive (fair.guards guards)
  · exact fits.fresh (fair.fresh fresh)

lemma Body.step (slot : Bool) (finishes : Nat) (body : Body c a s) (ht : s.tasks[i]? = some t)
    (hh : s.handles[t.handle]? = some h) (out : i ∉ s.queue) (fits : Fits c h t)
    (fair : Fair c s.budget t.slot h t.work n) (same : slot = (t.slot && n.effect != .finishUpload))
    (balance : t.admits = finishes + slot.toNat) :
    Body c a (s.put i { t with work := n.work, slot, finishes } n.handle) :=
  body.put ht hh rfl fair.leaves (fits.step fair same balance) fair.owns fits.alive (.inl out)

lemma put_units (slot : Bool) (finishes : Nat) (ht : s.tasks[i]? = some t)
    (hh : s.handles[t.handle]? = some h) (fair : Fair c s.budget t.slot h t.work n) :
    let s' := s.put i { t with work := n.work, slot, finishes } n.handle
    s'.held + s'.opened + s'.taskUnits + n.effect.given =
      s.held + s.opened + s.taskUnits + n.effect.taken := by
  intro s'
  have held : s'.held + h.currentReservation.toNat = s.held + n.handle.currentReservation.toNat :=
    put_held hh
  have units : s'.taskUnits + t.work.units = s.taskUnits + n.work.units := put_taskUnits ht
  have balance := fair.units
  have opened : s'.opened = s.opened := rfl
  rw [opened]
  omega

lemma room_for (room : s.available c = true) :
    s.pinnedBytes + c.partSize ≤ c.maxPinnedMemory := by
  have part := c.part_le
  rw [Budget.available, decide_eq_true_eq] at room
  omega

lemma release_eq {b : Budget} (units : Nat) (pinned : b.pinnedBytes = c.partSize * (units + 1)) :
    b.release c = { b with pinnedBytes := c.partSize * units } := by
  rw [mul_succ] at pinned
  rw [Budget.release, if_neg (by omega), pinned, Nat.add_sub_cancel]

lemma finishUpload_cases {u : Scheduler} (active : u.activeUploads ≠ 0) :
    (∃ next rest, u.ownerJobs = next :: rest ∧
      u.finishUpload = (some next, { u with ownerJobs := rest })) ∨
    u.finishUpload = (none, { u with activeUploads := u.activeUploads - 1 }) := by
  rw [Scheduler.finishUpload, if_neg active]
  cases u.stopping with
  | true => exact .inr rfl
  | false =>
    cases jobs : u.ownerJobs with
    | nil => exact .inr rfl
    | cons next rest => exact .inl ⟨next, rest, rfl, rfl⟩

lemma Inv.finishUpload (body : Body c a s) (granting : Counters c s false true) :
    Inv c a (match s.uploads.finishUpload with
      | (none, uploads) => { s with uploads }
      | (some next, uploads) => ({ s with uploads } : Sys).admitOwner next) := by
  have g := granting
  have active : s.uploads.activeUploads ≠ 0 := by
    rw [g.active]
    exact succ_ne_zero _
  obtain ⟨next, rest, jobs, eq⟩ | eq := finishUpload_cases active
  · rw [eq]
    have perm : s.queue.Perm
        (next :: Sys.queue { s with uploads := { s.uploads with ownerJobs := rest } }) := by
      rw [Sys.queue, jobs]
      exact List.Perm.refl _
    obtain ⟨body', out, t, ht, queued⟩ := body.pop perm
    exact .admitted body' { g with }
      out ht queued
  · rw [eq]
    refine ⟨body.same_queue (b := s.budget) rfl, g.pinned, g.pinned_le, g.no_underflow, ?_, ?_,
      g.no_abort⟩
    · show s.uploads.activeUploads - 1 = s.slots
      rw [g.active]
      rfl
    · have le := g.active_le
      show s.uploads.activeUploads - 1 ≤ _
      omega

lemma Counters.same {p part} (k : Counters c s false false)
    (units : p.held + p.opened + p.taskUnits + part.toNat = s.held + s.opened + s.taskUnits)
    (slots : p.slots = s.slots) (budget : p.budget = s.budget) (uploads : p.uploads = s.uploads) :
    Counters c p part false := by
  obtain ⟨b, u, handles, opens, tasks⟩ := p
  cases budget
  cases uploads
  exact { k with
    pinned := k.pinned.trans (congrArg (c.partSize * ·) units.symm)
    active := k.active.trans slots.symm }

/-- So many parts are missing in the budget. -/
structure Moved (c : Config) (a : Bool) (s p : Sys) (taken given : Nat) : Prop where
  body : Body c a p
  units : p.held + p.opened + p.taskUnits + given = s.held + s.opened + s.taskUnits + taken
  slots : p.slots = s.slots
  budget : p.budget = s.budget
  uploads : p.uploads = s.uploads

namespace Moved
variable {p : Sys} {b : Budget}

lemma inv {taken given} (moved : Moved c a s p taken given) (k : Counters c s false false)
    (pinned : b.pinnedBytes = c.partSize * (p.held + p.opened + p.taskUnits))
    (pinned_le : b.pinnedBytes ≤ c.maxPinnedMemory) (no_underflow : b.underflow = false) :
    Inv c a { p with budget := b } := by
  refine ⟨moved.body.same_queue rfl, pinned, pinned_le, no_underflow, ?_, ?_, ?_⟩
  · rw [moved.uploads]
    exact k.active.trans moved.slots.symm
  · rw [moved.uploads]
    exact k.active_le
  · rw [moved.uploads]
    exact k.no_abort

lemma granting {part} (moved : Moved c a s p 0 part.toNat) (k : Counters c s false false) :
    Counters c p part false :=
  k.same moved.units moved.slots moved.budget moved.uploads

lemma idle (moved : Moved c a s p 0 0) (k : Counters c s false false) : Inv c a p :=
  ⟨moved.body, moved.granting k⟩

lemma reserve (moved : Moved c a s p 1 0) (k : Counters c s false false)
    (room : s.available c = true)
    (pinned : b.pinnedBytes = s.pinnedBytes + c.partSize)
    (underflow : b.underflow = s.underflow) : Inv c a { p with budget := b } := by
  have units : p.held + p.opened + p.taskUnits = s.held + s.opened + s.taskUnits + 1 := moved.units
  refine moved.inv k ?_ ?_ ?_
  · rw [pinned, units, k.pinned, mul_succ]
    rfl
  · rw [pinned]
    exact room_for room
  · rw [underflow]
    exact k.no_underflow

lemma release (moved : Moved c a s p 0 1) (k : Counters c s false false) :
    Inv c a { p with budget := p.budget.release c } := by
  have units : p.held + p.opened + p.taskUnits + 1 = s.held + s.opened + s.taskUnits := moved.units
  have pinned := k.pinned
  rw [← units] at pinned
  rw [moved.budget, release_eq _ pinned]
  refine moved.inv k rfl ?_ k.no_underflow
  refine Nat.le_trans ?_ k.pinned_le
  rw [pinned]
  exact Nat.mul_le_mul_left _ (le_succ _)

end Moved

section
variable (inv : Inv c a s) (ht : s.tasks[i]? = some t) (hh : s.handles[t.handle]? = some h)
  (out : i ∉ s.queue) (fits : Fits c h t) (fair : Fair c s.budget t.slot h t.work n)
include inv ht hh out fits fair

lemma Inv.moved (other : n.effect ≠ .finishUpload) :
    Moved c a s (s.put i { t with work := n.work } n.handle) n.effect.taken n.effect.given := by
  refine ⟨inv.body.step t.slot t.finishes ht hh out fits fair ?_ fits.balance,
      put_units t.slot t.finishes ht hh fair, ?_, rfl, rfl⟩
  · have keeps : (n.effect != .finishUpload) = true := by simpa using other
    rw [keeps, Bool.and_true]
  · have slots : (s.put i { t with work := n.work } n.handle).slots + t.slot.toNat =
        s.slots + t.slot.toNat := put_slots ht
    exact add_right_cancel slots

lemma Inv.apply : Inv c a (s.apply c i t n) := by
  have k := inv.counters
  have moved := inv.moved ht hh out fits fair
  have place : (s.handles.set t.handle n.handle)[t.handle]? = some n.handle :=
    getElem?_set_self (List.getElem?_eq_some_iff.1 hh).1
  rw [Sys.apply]
  cases effect : n.effect with
  | none =>
    rw [effect] at moved
    exact (moved nofun).idle k
  | reserve | serve =>
    rw [effect] at moved
    exact (moved nofun).reserve k (fair.room (by rw [effect]; exact Nat.one_pos)) rfl rfl
  | queue =>
    rw [effect] at moved
    have moved := moved nofun
    have units := moved.units
    refine moved.inv (b := s.budget.queue) k ?_ k.pinned_le k.no_underflow
    exact k.pinned.trans (congrArg (c.partSize * ·) units.symm)
  | release =>
    rw [effect] at moved
    exact (moved nofun).release k
  | submit budgeted fault =>
    rw [effect] at moved
    have moved := moved nofun
    refine .submitTask moved.body (moved.granting k) place (fun _ => ?_) fault
    rw [fair.leaves.life]
    exact fits.alive (fair.submits budgeted fault effect)
  | admission fault =>
    rw [effect] at moved
    have queued : n.work.queued = true := fair.queue.1.2 ⟨fault, effect⟩
    have task : (s.tasks.set i { t with work := n.work })[i]? = some { t with work := n.work } :=
      getElem?_set_self (List.getElem?_eq_some_iff.1 ht).1
    exact ((moved nofun).idle k).submitFlush out task queued t.handle fault
  | finishUpload =>
    have slot : t.slot = true := fair.finish effect
    have task : (s.tasks.set i { t with work := n.work })[i]? = some { t with work := n.work } :=
      getElem?_set_self (List.getElem?_eq_some_iff.1 ht).1
    have balance := fits.balance
    have body := inv.body.step false (t.finishes + 1) ht hh out fits fair
      (by rw [effect, slot]; rfl) (by rw [slot] at balance; exact balance)
    have units := put_units false (t.finishes + 1) ht hh fair
    have slots : (s.put i { t with work := n.work, slot := false, finishes := t.finishes + 1 }
        n.handle).slots + t.slot.toNat = s.slots + 0 := put_slots ht
    have given : n.effect.taken = 0 ∧ n.effect.given = 0 := by
      rw [effect]
      exact ⟨rfl, rfl⟩
    rw [given.1, given.2] at units
    have granting : Counters c (s.put i
        { t with work := n.work, slot := false, finishes := t.finishes + 1 } n.handle)
        false true := by
      refine { k with pinned := ?_, active := ?_ }
      · exact k.pinned.trans (congrArg (c.partSize * ·) units.symm)
      · rw [slot] at slots
        exact k.active.trans slots.symm
    have ends := Inv.finishUpload body granting
    show Inv c a (Sys.finishUpload (s.put i { t with work := n.work } n.handle) i)
    rw [Sys.finishUpload, modify_at task, Sys.put, set_set]
    exact ends

end

lemma Inv.taskStep {outcome s'} (inv : Inv c a s)
    (step : s.step c i outcome = some s') : Inv c a s' := by
  obtain ⟨t, ht, step⟩ := bind_eq_some_iff.1 step
  obtain ⟨h, hh, step⟩ := bind_eq_some_iff.1 step
  obtain ⟨n, adv, step⟩ := bind_eq_some_iff.1 step
  cases step
  obtain ⟨g, hg, fits⟩ := inv.body.tasks t (mem_of_getElem? ht)
  obtain rfl := Option.some.inj (hh.symm.trans hg)
  refine inv.apply ht hh ?_ fits (advance_fair fits.ready (inv.body.progress ht hh) adv)
  intro mem
  obtain ⟨u, hu, queued⟩ := inv.body.queued i mem
  obtain rfl := Option.some.inj (ht.symm.trans hu)
  rw [advance_queued queued] at adv
  cases adv

end

/-! ### New requests -/

lemma Body.open (body : Body c a s) (h : Handle) (part : h.Backed) (fresh : h.life = .opened)
    (idle : h.writeInProgress = false) : Body c a { s with handles := s.handles ++ [h] } := by
  have old {k : Nat} {g : Handle} (hg : s.handles[k]? = some g) :
      (s.handles ++ [h])[k]? = some g := by
    rw [getElem?_append_left (List.getElem?_eq_some_iff.1 hg).1]
    exact hg
  refine ⟨?_, fun t mem => ?_, fun k g hg => ?_, body.distinct, body.queued⟩
  · refine forall_mem_concat body.handles ⟨part, ?_, ?_⟩
    all_goals
      rw [fresh]
      exact nofun
  · obtain ⟨g, hg, fits⟩ := body.tasks t mem
    exact ⟨g, old hg, fits⟩
  · by_cases known : k < s.handles.length
    · rw [show (s.handles ++ [h])[k]? = s.handles[k]? from getElem?_append_left known] at hg
      exact body.owners k g hg
    · -- nobody works on a handle that did not exist
      have last : k = s.handles.length := by
        have := (List.getElem?_eq_some_iff.1 hg).1
        rw [length_append, length_singleton] at this
        omega
      subst last
      rw [show (s.handles ++ [h])[s.handles.length]? = some h from getElem?_concat_length]
          at hg
      cases hg
      rw [idle, Sys.owners, Bool.toNat_false, sum_eq_zero]
      intro x found
      obtain ⟨t, mem, rfl⟩ := mem_map.1 found
      obtain ⟨g, hg, -⟩ := body.tasks t mem
      have lt := (List.getElem?_eq_some_iff.1 hg).1
      have other : (t.handle == s.handles.length) = false := by simp; omega
      rw [other]
      rfl

lemma Inv.openMoved {stage} (inv : Inv c a s) (next : OpenStage) (taken given : Nat)
    (found : s.opens[i]? = some stage)
    (units : next.holds + next.hand + given = stage.holds + stage.hand + taken) :
    Moved c a s { s with opens := s.opens.set i next } taken given := by
  have body := inv.body
  refine ⟨{ body with }, ?_, rfl, rfl, rfl⟩
  have holds := sum_map_set OpenStage.holds next found
  have hand := sum_map_set OpenStage.hand next found
  show s.held + (((s.opens.set i next).map OpenStage.holds).sum +
    ((s.opens.set i next).map OpenStage.hand).sum) + s.taskUnits + given = _
  rw [Sys.opened]
  omega

variable {s' : Sys}

lemma Inv.openStep {ok} (inv : Inv c a s) (step : s.openStep c i ok = some s') : Inv c a s' := by
  have k := inv.counters
  obtain ⟨stage, found, step⟩ := bind_eq_some_iff.1 step
  cases stage with
  | start =>
    cases ok with
    | false =>
      cases step
      exact (inv.openMoved .ended 0 0 found rfl).idle k
    | true =>
      dsimp only at step
      split at step
      · rename_i free
        cases step
        exact (inv.openMoved .reserved 1 0 found rfl).reserve k (open_available free) rfl rfl
      · cases step
        exact (inv.openMoved .ended 0 0 found rfl).idle k
  | reserved =>
    cases step
    exact (inv.openMoved .backed 0 0 found rfl).idle k
  | backed =>
    cases ok with
    | false =>
      cases step
      exact (inv.openMoved .ended 0 1 found rfl).release k
    | true =>
      cases step
      -- the handle is published with its reservation
      have moved := inv.openMoved .ended 0 1 found rfl
      have published := moved.body.open (.fresh false true) (fun bytes => absurd rfl bytes) rfl rfl
      refine ⟨published, k.same ?_ rfl rfl rfl⟩
      have units := moved.units
      rw [Sys.held, sum_map_concat]
      simp only [Sys.held, Sys.opened, Sys.taskUnits] at units ⊢
      have flag : (Handle.fresh false true).currentReservation.toNat = 1 := rfl
      rw [flag, Bool.toNat_false]
      omega
  | ended => cases step

lemma Inv.rehandle (inv : Inv c a s) (hh : s.handles[k]? = some h)
    (others : ∀ t, Fits c h t → Fits c h' t) (rests : h'.Rests a)
    (reservation : h'.currentReservation = h.currentReservation)
    (progress : h'.writeInProgress = h.writeInProgress) :
    Inv c a { s with handles := s.handles.set k h' } := by
  have body := inv.body
  have place : (s.handles.set k h')[k]? = some h' :=
    getElem?_set_self (List.getElem?_eq_some_iff.1 hh).1
  refine ⟨⟨?_, fun t mem => ?_, fun j g hg => ?_, body.distinct, body.queued⟩,
    inv.counters.same ?_ rfl rfl rfl⟩
  · exact forall_mem_set body.handles rests
  · obtain ⟨g, hg, fits⟩ := body.tasks t mem
    by_cases own : t.handle = k
    · rw [own, hh] at hg
      cases hg
      exact ⟨h', by rw [own]; exact place, others t fits⟩
    · refine ⟨g, ?_, fits⟩
      show (s.handles.set k h')[t.handle]? = some g
      rw [getElem?_set_ne (Ne.symm own)]
      exact hg
  · by_cases own : j = k
    · subst own
      obtain rfl := Option.some.inj (place.symm.trans hg)
      rw [progress]
      exact body.owners _ _ hh
    · rw [show (s.handles.set k h')[j]? = s.handles[j]? from
        getElem?_set_ne (Ne.symm own)] at hg
      exact body.owners j g hg
  · have held := sum_map_set (fun h : Handle => h.currentReservation.toNat) h' hh
    rw [reservation] at held
    rw [Sys.held, add_right_cancel held]
    rfl

lemma Fits.alike (fits : Fits c h t) (a : Alike h { h' with life := h.life })
    (alive : h.life ≠ .retired → h'.life ≠ .retired) : Fits c h' t := by
  have r := fits.ready
  refine { fits with
      ready := { r with
        part := a.backed r.part
        backing := fun backing => ?_
        settled := fun settling => a.settled (r.settled settling) }
      alive := fun guards => alive (fits.alive guards) }
  exact a.reservation.trans (r.backing backing)

section
variable (inv : Inv c a s)
include inv

lemma Inv.release {fails} (accepted : fails = true → a = true)
    (step : s.release k fails = some s') : Inv c a s' := by
  obtain ⟨h, hh, step⟩ := bind_eq_some_iff.1 step
  split at step
  · cases step
  · cases step
    have alive : (if fails then Life.abandoned else Life.closing) ≠ .retired := by
      cases fails <;> exact nofun
    refine inv.rehandle hh (fun t fits => fits.alike ⟨rfl, rfl, rfl, rfl, id⟩ fun _ => alive)
      ⟨(inv.body.handles h (mem_of_getElem? hh)).part, fun retired => absurd retired alive, ?_⟩
      rfl rfl
    cases fails with
    | false => exact nofun
    | true => exact fun _ => accepted rfl

lemma Inv.unlink (event : step c s (.unlink k) = some s') : Inv c a s' := by
  obtain ⟨h, hh, step⟩ := bind_eq_some_iff.1 event
  cases step
  exact inv.rehandle hh (fun t fits => fits.alike ⟨rfl, rfl, rfl, rfl, id⟩ id)
    { inv.body.handles h (mem_of_getElem? hh) with } rfl rfl

lemma Inv.request (hh : s.handles[k]? = some h) (opened : h.life = .opened) (sound : w.Sound)
    (backing : w.backing = none) (settling : w.settling = false) (idle : w.owns = false)
    (units : w.units = 0) : Inv c a { s with tasks := s.tasks ++ [.new k w] } := by
  have part := (inv.body.handles h (mem_of_getElem? hh)).part
  refine .concat inv.body inv.counters (t := .new k w) hh ?_ idle units rfl
  refine ⟨⟨sound, part, ?_, ?_, nofun, fun _ => rfl⟩, fun _ => ?_, zero_le _, rfl, fun _ => rfl⟩
  · rw [Task.new, backing]
    exact nofun
  · rw [Task.new, settling]
    exact nofun
  · rw [opened]
    exact nofun

lemma Inv.flush (step : s.flush c k = some s') : Inv c a s' := by
  obtain ⟨h, hh, step⟩ := bind_eq_some_iff.1 step
  split at step
  · cases step
  rename_i opened
  rw [not_not] at opened
  split at step
  · split at step
    · cases step
    · cases step
      exact inv.request hh opened rfl rfl rfl rfl rfl
  · cases step
    exact inv.request hh opened ⟨nofun, trivial⟩ rfl rfl rfl rfl

lemma Inv.beginWrite (hh : s.handles[k]? = some h) (opened : h.life = .opened)
    (state : h.writeState = .opened) (free : h.writeInProgress = false) (plain : w.plain = true)
    (own : w.owns = true) (backing : w.backing = none) (units : w.units = 0) :
    Inv c a { s with
      handles := s.handles.set k { h with writeInProgress := true }
      tasks := s.tasks ++ [.new k w] } := by
  obtain ⟨-, fresh, -, settling, sound⟩ := Work.plain_unslotted plain
  have rests := inv.body.handles h (mem_of_getElem? hh)
  have counters := inv.counters
  refine ⟨inv.body.spawn (t := .new k w) hh ?_ (fun u mem own' fits => ?_) { rests with } ?_,
    counters.same ?_ ?_ rfl rfl⟩
  · refine ⟨⟨sound, rests.part, ?_, ?_, nofun, fun _ => rfl⟩, fun _ => ?_, zero_le _,
      rfl, fun _ => rfl⟩
    · rw [Task.new, backing]
      exact nofun
    · rw [Task.new, settling]
      exact nofun
    · show h.life ≠ .retired
      rw [opened]
      exact nofun
  · -- no write was in progress, and none had been stopped
    refine { fits with
        ready := { fits.ready with part := rests.part, settled := fun settling => ?_ } }
    exact absurd state (fits.ready.settled settling).1
  · rw [Task.new, own, free]
    rfl
  · have held := sum_map_set (fun h : Handle => h.currentReservation.toNat)
      { h with writeInProgress := true } hh
    rw [Sys.held, add_right_cancel held, Sys.taskUnits, sum_map_concat]
    show _ + _ + (_ + w.units) = _
    rw [units]
    rfl
  · rw [Sys.slots, sum_map_concat]
    rfl

lemma Inv.write {length} (step : s.write c k length = some s') : Inv c a s' := by
  obtain ⟨h, hh, step⟩ := bind_eq_some_iff.1 step
  split at step
  · cases step
  rename_i request
  rw [not_or, not_not] at request
  split at step
  · split at step
    · cases step
    · rename_i free
      rw [not_or, not_or, Bool.not_eq_true, not_not] at free
      cases step
      split
      all_goals exact inv.beginWrite hh request.1 free.2.1 free.1 rfl rfl rfl rfl
  · cases step
    split
    all_goals exact inv.request hh request.1 trivial rfl rfl rfl rfl

lemma Inv.retire (step : s.retire c k = some s') : Inv c a s' := by
  obtain ⟨h, hh, step⟩ := bind_eq_some_iff.1 step
  split at step
  · cases step
  rename_i last
  rw [not_or, Bool.not_eq_true] at last
  split at step
  · cases step
  cases step
  have counters := inv.counters
  have part : Handle.Backed { h.takePart with
      writeState := if h.writeState = .sealed then .sealed else .failed, life := .retired } :=
    fun bytes => absurd rfl bytes
  refine ⟨inv.body.spawn (t := .new k (.retire h.currentReservation)) hh ?_
      (fun u mem own fits => ?_)
    ⟨part, fun _ => rfl, nofun⟩ (zero_add _), counters.same ?_ ?_ rfl rfl⟩
  · exact ⟨⟨trivial, part, nofun, nofun, nofun, nofun⟩, nofun, zero_le _, rfl, nofun⟩
  · refine fits.stray ?_ part
    by_contra guards
    have any := any_eq_false.1 last.2 u mem
    rw [Bool.not_eq_false] at guards
    simp [own, Task.new, guards] at any
  · -- the reservation goes from the handle to the one who releases it
    have held := sum_map_set (fun h : Handle => h.currentReservation.toNat)
      { h.takePart with
        writeState := if h.writeState = .sealed then .sealed else .failed, life := .retired } hh
    rw [Sys.taskUnits, sum_map_concat]
    simp only [Sys.held, Sys.opened, Sys.taskUnits, Task.new, Work.units, Work.parts, Work.flushes,
      Work.hand, Handle.takePart, Bool.toNat_false] at held ⊢
    omega
  · rw [Sys.slots, sum_map_concat]
    rfl

end

/-! ### The scheduler -/

lemma take_cases {u' job} (took : u.take c = some (job, u')) :
    u.jobs.Perm (job :: u'.jobs) ∧ u'.ownerJobs = u.ownerJobs ∧ u'.cancelled = u.cancelled ∧
      u'.aborted = u.aborted ∧ u'.activeUploads = u.activeUploads + job.task.isSome.toNat ∧
      (job.task.isSome = true → u.activeUploads < c.maxUploads) := by
  obtain ⟨i, selected, took⟩ := bind_eq_some_iff.1 took
  obtain ⟨found, at_i, took⟩ := bind_eq_some_iff.1 took
  obtain ⟨rfl, rfl⟩ := Option.some.inj took
  obtain ⟨lt, here⟩ := List.getElem?_eq_some_iff.1 at_i
  have eligible : u.eligible c job = true := by
    rw [Scheduler.selected, or_eq_some_iff] at selected
    obtain selected | ⟨-, selected⟩ := selected
    · obtain ⟨_, fits, -⟩ := findIdx?_eq_some_iff_getElem.1 selected
      rw [here, Bool.and_eq_true] at fits
      exact fits.2
    · obtain ⟨_, fits, -⟩ := findIdx?_eq_some_iff_getElem.1 selected
      rw [here] at fits
      exact fits
  refine ⟨?_, rfl, rfl, rfl, ?_, fun upload => ?_⟩
  · rw [← here]
    exact (getElem_cons_eraseIdx_perm lt).symm
  · cases job.task with
    | none | some _ => rfl
  · rw [Scheduler.eligible, Bool.or_eq_true, isNone_iff_eq_none, decide_eq_true_eq] at eligible
    refine eligible.resolve_left fun none => ?_
    rw [none] at upload
    cases upload

lemma Inv.worker (inv : Inv c a s) (step : s.worker c = some s') : Inv c a s' := by
  obtain ⟨⟨job, u⟩, took, step⟩ := bind_eq_some_iff.1 step
  obtain ⟨jobs, owner, cancelled, aborted, active, room⟩ := take_cases took
  have k := inv.counters
  have queue : s.queue.Perm (s.uploads.ownerJobs ++ s.uploads.cancelled ++
      (job :: u.jobs).filterMap Job.task) := List.Perm.append_left _ (jobs.filterMap Job.task)
  dsimp only at step
  cases upload : job.task with
  | none =>
    rw [upload] at step active
    cases step
    have same : (job :: u.jobs).filterMap Job.task = u.jobs.filterMap Job.task :=
      filterMap_cons_none upload
    rw [same, ← owner, ← cancelled] at queue
    refine ⟨{ inv.body with
        distinct := queue.nodup_iff.1 inv.body.distinct
        queued := fun i mem => inv.body.queued i (queue.mem_iff.2 mem) },
      k.pinned, k.pinned_le, k.no_underflow,
      active.trans k.active, active ▸ k.active_le, aborted.trans k.no_abort⟩
  | some i =>
    rw [upload] at step active room
    cases step
    have taken : (job :: u.jobs).filterMap Job.task = i :: u.jobs.filterMap Job.task :=
      filterMap_cons_some upload
    rw [taken, ← owner, ← cancelled] at queue
    obtain ⟨body, out, t, ht, queued⟩ := inv.body.pop (queue.trans perm_middle)
    refine .resume true _ body ?_ out ht queued
      (queued_resumes queued).2.2 fun admits finishes _ => ?_
    · refine ⟨k.pinned, k.pinned_le, k.no_underflow, ?_, ?_, aborted.trans k.no_abort⟩
      · exact active.trans (congrArg (· + 1) k.active)
      · exact active ▸ room rfl
    · simp only [Task.activate, admits, finishes]
      rfl

lemma Inv.shutdown (inv : Inv c a s) (step : s.shutdown = some s') : Inv c a s' := by
  rw [Sys.shutdown] at step
  split at step
  · cases step
  · cases step
    have k := inv.counters
    -- what was to be completed by an earlier shutdown is not lost, as there was none
    have fewer : (s.uploads.ownerJobs ++ s.uploads.jobs.filterMap Job.task).Sublist s.queue := by
      rw [Sys.queue]
      exact List.Sublist.append_right (sublist_append_left _ _) _
    exact ⟨{ inv.body with
        distinct := inv.body.distinct.sublist fewer
        queued := fun i mem => inv.body.queued i (fewer.mem mem) }, k.pinned, k.pinned_le,
          k.no_underflow, k.active,
      k.active_le, k.no_abort⟩

lemma Inv.cancel (inv : Inv c a s) (step : s.cancel = some s') : Inv c a s' := by
  have k := inv.counters
  rw [Sys.cancel] at step
  split at step
  · cases step
  · rename_i i rest cancelled
    obtain ⟨-, ⟨⟩⟩ := Option.ite_none_right_eq_some.1 step
    have perm : s.queue.Perm (i :: Sys.queue { s with
        uploads := { s.uploads with cancelled := rest } }) := by
      rw [Sys.queue, cancelled]
      rw [append_assoc]
      refine perm_middle.trans ?_
      rw [Sys.queue, append_assoc]
      rfl
    obtain ⟨body, out, t, ht, queued⟩ := inv.body.pop perm
    exact .wake body { k with }
        out ht
      queued

def Event.rejected : Event → Bool
  | .release _ fails => fails
  | _ => false

lemma Inv.step {event} (inv : Inv c a s) (accepted : event.rejected = true → a = true)
    (step : step c s event = some s') : Inv c a s' := by
  have k := inv.counters
  cases event with
  | «open» cached =>
    cases cached with
    | false =>
      cases step
      have body := inv.body
      refine ⟨{ body with },
        k.same ?_ rfl rfl rfl⟩
      rw [Sys.opened, sum_map_concat, sum_map_concat]
      rfl
    | true =>
      cases step
      refine ⟨inv.body.open (.fresh true false) (fun bytes => absurd rfl bytes) rfl rfl,
        k.same ?_ rfl rfl rfl⟩
      rw [Sys.held, sum_map_concat]
      rfl
  | openStep i ok => exact inv.openStep step
  | write k length => exact inv.write step
  | flush k => exact inv.flush step
  | release k fails => exact inv.release accepted step
  | retire k => exact inv.retire step
  | unlink k => exact inv.unlink step
  | step i outcome => exact inv.taskStep step
  | submit owner =>
    rw [Parts.step] at step
    split at step
    · cases step
    · cases step
      refine ⟨inv.body.same_queue (b := s.budget) ?_, k.pinned, k.pinned_le,
          k.no_underflow, k.active,
        k.active_le, k.no_abort⟩
      rw [Sys.queue, Sys.queue, Scheduler.submit, filterMap_append]
      exact congrArg _ (append_nil _)
  | worker => exact inv.worker step
  | shutdown => exact inv.shutdown step
  | cancel => exact inv.cancel step

lemma inv_initial (c : Config) (a : Bool) : Inv c a Sys.initial := by
  have none {α : Type} {P : α → Prop} : ∀ x ∈ ([] : List α), P x := forall_mem_nil _
  refine ⟨⟨none, none, fun _ _ => nofun, nodup_nil, none⟩, rfl, zero_le _, rfl, rfl, zero_le _, rfl⟩

lemma Inv.conserved (inv : Inv c a s) : Conserved c s := by
  have k := inv.counters
  refine { k with
      pinned := ?_
      admitted_once := fun t mem => ?_
      finished := fun t mem ended => ?_ }
  · rw [s.units_eq]
    exact k.pinned
  · obtain ⟨h, -, fits⟩ := inv.body.tasks t mem
    exact ⟨fits.once, fits.balance⟩
  · obtain ⟨h, -, fits⟩ := inv.body.tasks t mem
    have slotted := fits.ready.slotted
    have balance := fits.balance
    rw [ended] at slotted
    cases slot : t.slot with
    | true => exact absurd (slotted slot) nofun
    | false =>
      rw [slot] at balance
      exact balance.symm

lemma Inv.quiescent (inv : Inv c false s) (quiet : s.Quiescent) :
    s.pinnedBytes = 0 ∧ s.uploads.activeUploads = 0 := by
  obtain ⟨tasks, opens, handles⟩ := quiet
  have k := inv.counters
  have held : s.held = 0 := by
    refine sum_eq_zero fun x found => ?_
    obtain ⟨h, mem, rfl⟩ := mem_map.1 found
    have rests := inv.body.handles h mem
    rw [rests.retired ((handles h mem).resolve_right fun left => nomatch rests.abandoned left)]
    rfl
  have opened : s.opened = 0 := by
    have none (f : OpenStage → Nat) (zero : f .ended = 0) : (s.opens.map f).sum = 0 := by
      refine sum_eq_zero fun x found => ?_
      obtain ⟨stage, mem, rfl⟩ := mem_map.1 found
      rw [opens stage mem, zero]
    rw [Sys.opened, none _ rfl, none _ rfl]
  have units : s.taskUnits = 0 := by
    refine sum_eq_zero fun x found => ?_
    obtain ⟨t, mem, rfl⟩ := mem_map.1 found
    rw [tasks t mem]
    rfl
  have slots : s.slots = 0 := by
    refine sum_eq_zero fun x found => ?_
    obtain ⟨t, mem, rfl⟩ := mem_map.1 found
    obtain ⟨h, -, fits⟩ := inv.body.tasks t mem
    have slotted := fits.ready.slotted
    rw [tasks t mem] at slotted
    cases slot : t.slot with
    | true => exact absurd (slotted slot) nofun
    | false => rfl
  refine ⟨?_, k.active.trans slots⟩
  rw [k.pinned, held, opened, units]
  rfl

end

/-- In every run both counters are exact and within their limits, and an upload gives its slot back
once; and once everything is over both are zero, if no `RELEASE` request has failed. -/
theorem parts_conserved {c : Config} {events : List Event} {s : Sys}
    (run : run (step c) Sys.initial events = some s) :
    Conserved c s ∧ ((∀ e ∈ events, e.rejected = false) → s.Quiescent →
      s.pinnedBytes = 0 ∧ s.uploads.activeUploads = 0) := by
  have inv : Inv c true s :=
    run_inv (fun _ _ _ inv h => inv.step (fun _ => rfl) h) (inv_initial c true) run
  refine ⟨inv.conserved, fun accepted quiet => ?_⟩
  have inv : Inv c false s := by
    refine run_inv_along (P := fun _ e => e.rejected = false) (I := Inv c false)
      (fun _ _ _ inv ok h => inv.step (fun failed => ok.symm.trans failed) h) (inv_initial c false)
      ?_ run
    exact Machine.Along.of_all (fun e mem _ => accepted e mem) _
  exact inv.quiescent quiet

def smallParts : Config := ⟨4, 8, 1, .multi, by decide⟩

def fiveBytes : List Event :=
  -- the write fills the first part, which goes out as task 1, and begins the second one
  [.open false, .openStep 0 true, .openStep 0 true, .openStep 0 true, .write 0 5] ++
  replicate 3 (.step 0 .ok) ++ [.step 0 (.moved 4 .none)] ++
  replicate 3 (.step 0 .ok) ++ [.step 0 (.moved 1 .none), .step 0 .ok] ++
  replicate 9 (.step 1 .ok) ++
  -- the flush sends the second part as task 3, waits for it and completes the upload
  [.flush 0, .step 2 .ok, .step 2 (.submit .none)] ++ replicate 7 (.step 3 .ok) ++
  [.step 2 .ok, .step 2 (.submit .none)] ++ replicate 8 (.step 2 .ok) ++
  [.release 0 false, .retire 0, .step 4 .ok]

theorem parts_conserved_fiveBytes :
    ∃ s, run (step smallParts) Sys.initial fiveBytes = some s ∧
      (s.handles.map Handle.streamOffset, s.tasks.map Task.finishes) = ([5], [0, 1, 1, 1, 0]) ∧
      Conserved smallParts s ∧ s.pinnedBytes = 0 ∧ s.uploads.activeUploads = 0 := by
  have ends : (run (step smallParts) Sys.initial fiveBytes).isSome := by decide +kernel
  have run := run_final ends
  obtain ⟨conserved, zero⟩ := parts_conserved run
  have quiet : (final (step smallParts) Sys.initial fiveBytes).Quiescent := by
    decide +kernel
  exact ⟨_, run, by decide +kernel, conserved, zero (by decide +kernel) quiet⟩

theorem failed_release_keeps_part : ∃ s, run (step smallParts) Sys.initial
        [.open false, .openStep 0 true, .openStep 0 true, .openStep 0 true, .release 0 true] =
        some s ∧ s.Quiescent ∧ s.pinnedBytes ≠ 0 :=
  ⟨_, rfl, by decide, by decide⟩

end Ngs3fs.Parts
