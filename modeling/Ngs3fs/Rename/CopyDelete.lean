import Ngs3fs.Rename.Remote

/-!
# Rename by copy and delete

`copy_remote_object` and the `DELETE` of `rename_remote_object`, for a service without
`RenameObject`. The copy compares the ETag of the source, in one request or in parts; only a copy
that the service has confirmed is followed by the `DELETE` of the source. The content is never
lost, but a `DELETE` that was carried out and not answered is repeated and finds no source: the
rename is reported as failed. -/

namespace Ngs3fs.Rename
open Persist Retry Program List

/-- The ETag and the size of the source, whether its key ends with a slash, and `no_replace`. -/
structure Task where
  etag : Text
  size : Nat
  directory : Bool
  noReplace : Bool
  deriving DecidableEq

def kMaximumSingleCopySize : Nat := 5 * 2 ^ 30

/-- `part_size` of `multipart_copy_object`. -/
def copyPartSize : Nat := 2 ^ 30

def kMaximumMultipartParts : Nat := 10000

def Task.partCount (task : Task) : Nat := (task.size + copyPartSize - 1) / copyPartSize

variable (service : Service) (network : Network) (task : Task)

/-- `abort_copy_upload`. -/
def abortCopyUpload : RemoteM Unit := do
  let _ ← request network .abort 0 abortUpload

def copyParts : List Nat → RemoteM (List Text)
  | [] => pure []
  | part :: rest => do
    let first := part * copyPartSize
    let last := min task.size (first + copyPartSize) - 1
    let (reply, _) ← request network (.part (part + 1)) 3
      (uploadPartCopy service (part + 1) first last task.etag)
    let etag ← requireSuccess network (.part (part + 1)) reply
    if etag = [] then fail .omittedEtag
    else
      let etags ← copyParts rest
      pure (etag :: etags)

def copyAllParts : RemoteM (List Text) :=
  if kMaximumMultipartParts < task.partCount then fail .tooManyParts
  else copyParts service network task (range task.partCount)

def completeCopy (etags : List Text) : RemoteM Unit := do
  let (reply, ambiguous) ← request network .complete 3 (completeUpload service etags task.noReplace)
  handle (requireSuccess network .complete reply) fun failure =>
    if ambiguous then fail .outcomeUnknown
    else do
      abortCopyUpload network
      fail failure

/-- `multipart_copy_object`. -/
def multipartCopyObject : RemoteM Unit := do
  let (reply, _) ← request network .create 0 createUpload
  requireSuccess network .create reply
  let etags ← handle (copyAllParts service network task) fun failure => do
    abortCopyUpload network
    fail failure
  completeCopy service network task etags

/-- Its request is not sent again. -/
def putEmpty : RemoteM Unit := do
  let (reply, _) ← request network .putEmpty 0 (putEmptyObject service task.noReplace)
  requireSuccess network .putEmpty reply

def markerCopyUnsupported (reply : Reply (Except Nat Text)) : Bool :=
  task.size = 0 && task.directory && (network.error .copy).copyUnsupported && rejected reply

def requireEtag (reply : Reply (Except Nat Text)) : RemoteM Unit := do
  let etag ← requireSuccess network .copy reply
  if etag = [] then fail .omittedEtag

def singleCopy : RemoteM Unit := do
  let (reply, ambiguous) ← request network .copy 3 (copyObject service task.etag task.noReplace)
  handle
    (if markerCopyUnsupported network task reply then putEmpty service network task
    else requireEtag network reply)
    fun failure => fail (if ambiguous then .outcomeUnknown else failure)

/-- `copy_remote_object`. -/
def copyRemoteObject : RemoteM Unit :=
  if kMaximumSingleCopySize < task.size then multipartCopyObject service network task
  else singleCopy service network task

/-- A status `rename_remote_object` accepts for its `DELETE`. -/
def Task.deleted (status : Nat) : Bool :=
  status = 200 || status = 204 || (status = 404 && task.directory)

def requireDeleted : Reply (Except Nat Unit) → RemoteM Unit
  | .answer (.error status) => if task.deleted status then pure () else fail (.status status)
  | reply => requireSuccess network .deleteSource reply

/-- The `DELETE` of `rename_remote_object`. -/
def deleteSource : RemoteM Unit := do
  let (reply, _) ← request network .deleteSource 3 (deleteObject service .source task.etag)
  requireDeleted network task reply

/-- `rename_remote_object` without `RenameObject`. -/
def copyAndDelete : RemoteM Unit := do
  copyRemoteObject service network task
  deleteSource service network task

/-! ### The content is never lost -/

def Object.slice (s : Object) (i : Nat) : List UInt8 :=
  (s.body.drop (i * copyPartSize)).take copyPartSize

def HoldsCopy (s : Object) (store : Store) : Prop :=
  ∃ object, store.objects .destination = some object ∧ object.body = s.body

/-- The source is in place, and the parts are parts of it. -/
structure Copying (s : Object) (store : Store) : Prop where
  source : store.objects .source = some s
  parts : ∀ parts, store.upload = some parts → ∀ number etag bytes,
    parts number = some (etag, bytes) → bytes = s.slice (number - 1)

structure Known (task : Task) (s : Object) : Prop where
  etag : s.etag = task.etag
  etag_ne_nil : task.etag ≠ []
  size : s.body.length = task.size

section
variable {service : Service} {network : Network} {task : Task} {s : Object} {store : Store}
  {world : World}
  {I : Store → Prop} {mortal : Bool} {marker : Option Marker}

lemma holdsCopy_create : HoldsCopy s (store.create service .destination s.body) := ⟨_, rfl, rfl⟩

lemma holdsCopy_putEmptyObject (empty : s.body = [])
    (ok : (putEmptyObject service task.noReplace store).1 = .ok ()) :
    HoldsCopy s (putEmptyObject service task.noReplace store).2 := by
  rw [Rename.putEmptyObject] at ok ⊢
  split at ok
  · cases ok
  · rename_i free
    rw [if_neg free, ← empty]
    exact holdsCopy_create

lemma slice_range (size : s.body.length = task.size) (i : Nat)
    (inside : i * copyPartSize < task.size) :
    (s.body.drop (i * copyPartSize)).take
      (min task.size (i * copyPartSize + copyPartSize) - 1 + 1 - i * copyPartSize) = s.slice i := by
  have pos : 0 < copyPartSize := by decide
  rw [Object.slice]
  by_cases full : i * copyPartSize + copyPartSize ≤ task.size
  · rw [Nat.min_eq_right full]
    congr 1
    omega
  · rw [Nat.min_eq_left (by omega), take_of_length_le, take_of_length_le]
    all_goals
      rw [length_drop, size]
      omega

lemma assemble_parts {parts}
    (own : ∀ number etag bytes, parts number = some (etag, bytes) → bytes = s.slice (number - 1))
    (number : Nat) {etags body} (assembled : assemble parts (number + 1) etags = some body) :
    body = (s.body.drop (number * copyPartSize)).take (etags.length * copyPartSize) := by
  induction etags generalizing number body with
  | nil =>
    cases assembled
    rw [length_nil, Nat.zero_mul, take_zero]
  | cons etag etags ih =>
    rw [assemble] at assembled
    split at assembled
    · cases assembled
    · rename_i partEtag bytes found
      obtain ⟨-, assembled⟩ := Option.ite_none_right_eq_some.1 assembled
      obtain ⟨rest, tail, rfl⟩ := Option.map_eq_some_iff.1 assembled
      rw [own _ _ _ found, ih (number + 1) tail, Nat.add_sub_cancel, Object.slice,
        length_cons, Nat.succ_mul, Nat.succ_mul, Nat.add_comm (etags.length * copyPartSize),
        take_add, drop_drop]

structure CopyInvariant (service : Service) (task : Task) (s : Object)
    (I : Store → Prop) : Prop where
  copy : ∀ store, I store → I (copyObject service task.etag task.noReplace store).2
  copied : ∀ store, I store → ∀ etag,
    (copyObject service task.etag task.noReplace store).1 = .ok etag →
    HoldsCopy s (copyObject service task.etag task.noReplace store).2
  empty : s.body = [] → ∀ store, I store → I (putEmptyObject service task.noReplace store).2
  create : ∀ store, I store → I (createUpload store).2
  abort : ∀ store, I store → I (abortUpload store).2
  part : ∀ i, i * copyPartSize < task.size → ∀ store, I store → I (uploadPartCopy service (i + 1)
    (i * copyPartSize) (min task.size (i * copyPartSize + copyPartSize) - 1) task.etag store).2
  complete : ∀ etags : List Text, s.body.length ≤ etags.length * copyPartSize → ∀ store, I store →
    I (completeUpload service etags task.noReplace store).2
  completed : ∀ etags : List Text, s.body.length ≤ etags.length * copyPartSize → ∀ store, I store →
    (completeUpload service etags task.noReplace store).1 = .ok () →
    HoldsCopy s (completeUpload service etags task.noReplace store).2

lemma matchedSource_found {key etag object}
    (matched : matchedSource key etag store = .ok object) : store.objects key = some object := by
  rw [matchedSource] at matched
  split at matched
  · cases matched
  · rename_i found
    split at matched
    · cases matched
    · cases matched
      exact found

/-- The parts are parts of the source. -/
def PartsOf (s : Object) (upload : Option (Nat → Option (Text × List UInt8))) : Prop :=
  ∀ parts, upload = some parts → ∀ number etag bytes,
    parts number = some (etag, bytes) → bytes = s.slice (number - 1)

/-- A copy only makes the destination and changes the upload. -/
lemma CopyInvariant.of_create (size : s.body.length = task.size)
    (source : ∀ {store object}, I store → store.objects .source = some object → object = s)
    (parts : ∀ {store}, I store → PartsOf s store.upload)
    (create : ∀ {store}, I store → I (store.create service .destination s.body))
    (upload : ∀ {store upload serial}, I store → PartsOf s upload →
      I { store with upload := upload, serial := serial }) : CopyInvariant service task s I := by
  have copied (store : Store) (h : I store) :
      I (copyObject service task.etag task.noReplace store).2 ∧
        ∀ etag, (copyObject service task.etag task.noReplace store).1 = .ok etag →
          HoldsCopy s (copyObject service task.etag task.noReplace store).2 := by
    rw [copyObject]
    split
    · exact ⟨h, nofun⟩
    rename_i matched
    split
    · exact ⟨h, nofun⟩
    obtain rfl := source h (matchedSource_found matched)
    exact ⟨create h, fun _ _ => holdsCopy_create⟩
  have completed (etags : List Text) (enough : s.body.length ≤ etags.length * copyPartSize)
      (store : Store) (h : I store) : I (completeUpload service etags task.noReplace store).2 ∧
        ((completeUpload service etags task.noReplace store).1 = .ok () →
          HoldsCopy s (completeUpload service etags task.noReplace store).2) := by
    rw [completeUpload]
    split
    · exact ⟨h, nofun⟩
    split
    · exact ⟨h, nofun⟩
    rename_i body assembled
    split
    · exact ⟨h, nofun⟩
    have whole := assemble_parts (parts h _ ‹_›) 0 assembled
    rw [Nat.zero_mul, drop_zero, take_of_length_le enough] at whole
    subst whole
    exact ⟨upload (create h) nofun, fun _ => ⟨_, rfl, rfl⟩⟩
  refine ⟨fun store h => (copied store h).1, fun store h => (copied store h).2,
    fun none store h => ?_, fun store h => upload h ?_, fun store h => upload h nofun,
    fun i inside store h => ?_, fun etags enough store h => (completed etags enough store h).1,
    fun etags enough store h => (completed etags enough store h).2⟩
  · rw [putEmptyObject]
    split
    · exact h
    · rw [← none]
      exact create h
  · rintro _ ⟨⟩ number etag bytes ⟨⟩
  · rw [uploadPartCopy]
    split
    · exact h
    rename_i old there
    split
    · exact h
    rename_i object matched
    split
    · exact h
    refine upload h ?_
    rintro _ ⟨⟩ number etag bytes found
    by_cases here : number = i + 1
    · subst here
      rw [Function.update_self] at found
      cases found
      obtain rfl := source h (matchedSource_found matched)
      exact slice_range size i inside
    · rw [Function.update_of_ne here] at found
      exact parts h old there number etag bytes found

lemma Copying.invariant (service : Service) (known : Known task s) :
    CopyInvariant service task s (Copying s) :=
  .of_create known.size (fun copying found => Option.some.inj (found.symm.trans copying.source))
    (fun copying => copying.parts) (fun copying => ⟨copying.source, copying.parts⟩)
    fun copying parts => ⟨copying.source, parts⟩

def NoDelete (log : List Sent) : Prop := ∀ store, .sent .deleteSource store ∉ log

/-- A process that is not mortal does not die. -/
structure CopyPhase (I : Store → Prop) (mortal : Bool) (marker : Option Marker)
    (world : World) : Prop where
  store : I world.store
  marker : world.marker = marker
  log : NoDelete world.log
  alive : mortal = false → world.lives = none

def Confirmed (log : List Sent) : Prop :=
  .confirmed .copy ∈ log ∨ .confirmed .putEmpty ∈ log ∨ .confirmed .complete ∈ log

lemma CopyPhase.requested (phase : CopyPhase I mortal marker world) {call world'}
    (other : call ≠ .deleteSource) (requested : Requested I call world world') :
    CopyPhase I mortal marker world' := by
  refine ⟨requested.store, requested.marker.trans phase.marker, ?_,
    fun immortal => requested.alive (phase.alive immortal)⟩
  have sent : NoDelete (.sent call world.store :: world.log) := by
    intro store mem
    cases mem with
    | head => exact other rfl
    | tail _ mem => exact phase.log store mem
  obtain log | log | log := requested.log
  · rw [log]
    exact phase.log
  · rw [log]
    exact sent
  · rw [log]
    intro store mem
    cases mem with
    | tail _ mem => exact sent store mem

lemma CopyPhase.request (phase : CopyPhase I mortal marker world) {α} (call : Call) (left : Nat)
    (other : call ≠ .deleteSource) {serve : Store → Except Nat α × Store}
    (closed : ∀ store, I store → I (serve store).2) :
    Ends (request network call left serve) world
      (fun r world' => CopyPhase I mortal marker world' ∧ Answered I call serve r.1 world')
      (fun _ => CopyPhase I mortal marker) :=
  (request_ends call left closed phase.store).mono
    (fun _ _ h => ⟨phase.requested other h.1, h.2.1⟩) fun _ _ h => phase.requested other h.2

lemma abortCopyUpload_ends (inv : CopyInvariant service task s I)
    (phase : CopyPhase I mortal marker world) (failure : Failure) {α} {good} :
    Ends (do abortCopyUpload network; fail failure : RemoteM α) world good
      (fun _ => CopyPhase I mortal marker) := by
  rw [abortCopyUpload]
  refine Ends.bind (M := fun _ => CopyPhase I mortal marker) ?_ fun _ _ phase => ends_throw phase
  refine (phase.request .abort 0 nofun inv.abort).bind ?_
  intro _ _ h
  exact ends_pure h.1

lemma copyParts_ends (inv : CopyInvariant service task s I) {parts}
    (inside : ∀ i ∈ parts, i * copyPartSize < task.size) (phase : CopyPhase I mortal marker world) :
    Ends (copyParts service network task parts) world
      (fun etags world' => CopyPhase I mortal marker world' ∧ etags.length = parts.length)
      (fun _ => CopyPhase I mortal marker) := by
  induction parts generalizing world with
  | nil => exact ends_pure ⟨phase, rfl⟩
  | cons i parts ih =>
    rw [copyParts]
    refine (phase.request (.part (i + 1)) 3 nofun (inv.part i (inside i mem_cons_self))).bind ?_
    rintro ⟨reply, _⟩ world1 ⟨phase1, _⟩
    refine (requireSuccess_ends (G := fun _ => CopyPhase I mortal marker)
      (fun _ _ => phase1) fun _ => phase1).bind ?_
    intro etag world2 phase2
    refine .ite (fun _ => ends_throw phase2) fun _ => ?_
    refine (ih (fun j mem => inside j (mem_cons_of_mem _ mem)) phase2).bind ?_
    rintro etags world3 ⟨phase3, length⟩
    refine ends_pure ⟨phase3, ?_⟩
    rw [length_cons, length, length_cons]

structure Copied (s : Object) (I : Store → Prop) (mortal : Bool) (marker : Option Marker)
    (world : World) :
    Prop where
  phase : CopyPhase I mortal marker world
  copy : HoldsCopy s world.store
  confirmed : Confirmed world.log

lemma completeCopy_ends (inv : CopyInvariant service task s I)
    (phase : CopyPhase I mortal marker world) {etags}
    (enough : s.body.length ≤ etags.length * copyPartSize) :
    Ends (completeCopy service network task etags) world (fun _ => Copied s I mortal marker)
      (fun _ => CopyPhase I mortal marker) := by
  rw [completeCopy]
  refine (phase.request .complete 3 nofun (inv.complete etags enough)).bind ?_
  rintro ⟨reply, ambiguous⟩ world1 ⟨phase1, answered⟩
  refine Ends.handle (E := fun _ => CopyPhase I mortal marker) ?_ (fun _ h => h) ?_
  · refine requireSuccess_ends (fun response replied => ?_) fun _ => phase1
    obtain ⟨store, copying, answer, ended⟩ := answered.served _ replied
    refine ⟨phase1, ?_, .inr (.inr (answered.confirmed response replied))⟩
    rw [ended]
    exact inv.completed etags enough store copying answer.symm
  · intro failure world2 phase2
    exact .ite (fun _ => ends_throw phase2) fun _ => abortCopyUpload_ends inv phase2 failure

lemma size_le_parts (task : Task) : task.size ≤ task.partCount * copyPartSize := by
  have pos : 0 < copyPartSize := by decide
  rw [Task.partCount]
  have split := Nat.div_add_mod (task.size + copyPartSize - 1) copyPartSize
  have rest := Nat.mod_lt (task.size + copyPartSize - 1) pos
  rw [Nat.mul_comm] at split
  omega

section
variable (inv : CopyInvariant service task s I) (size : s.body.length = task.size)
  (phase : CopyPhase I mortal marker world)
include inv size phase

lemma multipartCopyObject_ends :
    Ends (multipartCopyObject service network task) world (fun _ => Copied s I mortal marker)
      (fun _ => CopyPhase I mortal marker) := by
  rw [multipartCopyObject]
  refine (phase.request .create 0 nofun inv.create).bind ?_
  rintro ⟨reply, _⟩ world1 ⟨phase1, _⟩
  refine (requireSuccess_ends (G := fun _ => CopyPhase I mortal marker)
    (fun _ _ => phase1) fun _ => phase1).bind ?_
  intro _ world2 phase2
  refine Ends.bind (M := fun etags world' =>
    CopyPhase I mortal marker world' ∧ etags.length = task.partCount) ?_ ?_
  · refine Ends.handle (E := fun _ => CopyPhase I mortal marker) ?_ (fun _ h => h)
      fun failure _ phase => abortCopyUpload_ends inv phase failure
    rw [copyAllParts]
    refine .ite (fun _ => ends_throw phase2) fun _ => ?_
    have inside : ∀ i ∈ range task.partCount, i * copyPartSize < task.size := by
      intro i mem
      have lt := mem_range.1 mem
      rw [Task.partCount, Nat.lt_div_iff_mul_lt (by decide)] at lt
      omega
    refine (copyParts_ends inv inside phase2).mono (fun etags world' h => ⟨h.1, ?_⟩) fun _ _ h => h
    rw [h.2, length_range]
  · rintro etags world3 ⟨phase3, length⟩
    refine completeCopy_ends inv phase3 ?_
    rw [size, length]
    exact size_le_parts task

lemma singleCopy_ends :
    Ends (singleCopy service network task) world (fun _ => Copied s I mortal marker)
      (fun _ => CopyPhase I mortal marker) := by
  rw [singleCopy]
  refine (phase.request .copy 3 nofun inv.copy).bind ?_
  rintro ⟨reply, ambiguous⟩ world1 ⟨phase1, answered⟩
  refine Ends.handle (E := fun _ => CopyPhase I mortal marker) ?_ (fun _ h => h)
    fun failure _ phase => ends_throw phase
  refine .ite (fun unsupported => ?_) fun _ => ?_
  · -- an empty marker is made again
    have empty : s.body = [] := by
      rw [markerCopyUnsupported] at unsupported
      simp only [Bool.and_eq_true, decide_eq_true_eq] at unsupported
      exact eq_nil_of_length_eq_zero (size.trans unsupported.1.1.1)
    rw [putEmpty]
    refine (phase1.request .putEmpty 0 nofun (inv.empty empty)).bind ?_
    rintro ⟨reply, _⟩ world2 ⟨phase2, answered⟩
    refine requireSuccess_ends (fun response replied => ?_) fun _ => phase2
    obtain ⟨store, copying, answer, ended⟩ := answered.served _ replied
    refine ⟨phase2, ?_, .inr (.inl (answered.confirmed response replied))⟩
    rw [ended]
    exact holdsCopy_putEmptyObject empty answer.symm
  · rw [requireEtag]
    refine Ends.bind (M := fun _ => Copied s I mortal marker) ?_ fun _ world' copied => ?_
    · refine requireSuccess_ends (fun response replied => ?_) fun _ => phase1
      obtain ⟨store, copying, answer, ended⟩ := answered.served _ replied
      refine ⟨phase1, ?_, .inl (answered.confirmed response replied)⟩
      rw [ended]
      exact inv.copied store copying response answer.symm
    · exact .ite (fun _ => ends_throw copied.phase) fun _ => ends_pure copied

end

lemma copyRemoteObject_ends (network : Network) (inv : CopyInvariant service task s I)
    (size : s.body.length = task.size) (phase : CopyPhase I mortal marker world) :
    Ends (copyRemoteObject service network task) world (fun _ => Copied s I mortal marker)
      (fun _ => CopyPhase I mortal marker) := by
  rw [copyRemoteObject]
  exact .ite (fun _ => multipartCopyObject_ends inv size phase) fun _ =>
    singleCopy_ends inv size phase

end

/-! ### The DELETE of the source -/

def Ordered (s : Object) : List Sent → Prop
  | [] => True
  | .sent .deleteSource store :: rest => Confirmed rest ∧ HoldsCopy s store ∧ Ordered s rest
  | _ :: rest => Ordered s rest

def Stored (s : Object) (store : Store) : Prop := store.objects .source = some s ∨ HoldsCopy s store

section
variable {service : Service} {network : Network} {task : Task} {s : Object} {store : Store}
  {world : World}
  {mortal : Bool} {marker : Option Marker}

lemma ordered_of_noDelete {log} (none : NoDelete log) : Ordered s log := by
  induction log with
  | nil => trivial
  | cons entry log ih =>
    have rest := ih fun store mem => none store (mem_cons_of_mem _ mem)
    cases entry with
    | confirmed call => exact rest
    | sent call store =>
      by_cases other : call = .deleteSource
      · subst other
        exact absurd mem_cons_self (none store)
      · rw [Ordered]
        · exact rest
        · rintro store' ⟨⟩
          exact other rfl

lemma HoldsCopy.deleteSource (copy : HoldsCopy s store) (etag : Text) :
    HoldsCopy s (deleteObject service .source etag store).2 := by
  rw [deleteObject]
  split
  · exact copy
  · split
    all_goals exact copy

lemma deleteSource_requested {I : Store → Prop} (network : Network) (task : Task)
    (closed : ∀ store, I store → I (deleteObject service .source task.etag store).2)
    (h : I world.store) :
    Ends (deleteSource service network task) world (fun _ => Requested I .deleteSource world)
      (fun _ => Requested I .deleteSource world) := by
  rw [deleteSource]
  refine Ends.bind ((request_ends .deleteSource 3 closed h).mono (fun _ _ h =>
    h.1) fun _ _ h => h.2) ?_
  rintro ⟨reply, _⟩ world' requested
  dsimp only
  rw [requireDeleted.eq_def]
  split
  · exact .ite (fun _ => ends_pure requested) fun _ => ends_throw requested
  · exact requireSuccess_ends (fun _ _ => requested) fun _ => requested

lemma deleteSource_ends (service : Service) (network : Network) (task : Task)
    (copied : Copied s (Copying s) mortal marker world) :
    Ends (deleteSource service network task) world
      (fun _ world' => Ordered s world'.log ∧ HoldsCopy s world'.store)
      (fun _ world' => Ordered s world'.log ∧ HoldsCopy s world'.store) := by
  have logged {world' : World} (requested : Requested (HoldsCopy s) .deleteSource world world') :
      Ordered s world'.log ∧ HoldsCopy s world'.store := by
    refine ⟨?_, requested.store⟩
    have before : Ordered s world.log := ordered_of_noDelete copied.phase.log
    obtain log | log | log := requested.log
    · rw [log]
      exact before
    all_goals
      rw [log]
      exact ⟨copied.confirmed, copied.copy, before⟩
  exact (deleteSource_requested network task (fun _ copy => copy.deleteSource task.etag)
    copied.copy).mono (fun _ _ => logged) fun _ _ => logged

lemma deleteObject_twice (service : Service) (known : Known task s)
    (source : store.objects .source = some s) :
    ∃ gone : Store, gone.objects .source = none ∧
      deleteObject service .source task.etag store = (.ok (), gone) ∧
      deleteObject service .source task.etag gone =
      (.error (service.deleteMissing true), gone) := by
  have conditional : decide (task.etag ≠ []) = true := decide_eq_true known.etag_ne_nil
  have absent : (store.put .source none).objects .source = none := by
    simp only [Store.put, Function.update_self]
  refine ⟨{ store.put .source none with
    deleted := (.source, store.objects .destination) :: store.deleted }, absent, ?_, ?_⟩
  · rw [deleteObject, source]
    exact if_neg fun h => h.2 known.etag
  · rw [deleteObject, conditional]
    rw [absent]

lemma run_requireDeleted (network : Network) (task : Task) (reply : Reply (Except Nat Unit))
    (world : World) :
    ((requireDeleted network task reply).run world).2 = world ∧
      (((requireDeleted network task reply).run world).1 = .ok () ↔ reply = .answer (.ok ()) ∨
        ∃ status, reply = .answer (.error status) ∧ task.deleted status = true) := by
  obtain (status | _) | _ | _ | _ := reply
  case answer.error =>
    rw [requireDeleted]
    by_cases accepted : task.deleted status = true
    · rw [if_pos accepted]
      exact ⟨rfl, fun _ => .inr ⟨status, rfl, accepted⟩, fun _ => rfl⟩
    · rw [if_neg accepted]
      refine ⟨rfl, nofun, ?_⟩
      rintro (h | ⟨_, h, accepted'⟩)
      · cases h
      · cases h
        exact absurd accepted' accepted
  case answer.ok => exact ⟨rfl, fun _ => .inl rfl, fun _ => rfl⟩
  all_goals exact ⟨rfl, nofun, by rintro (h | ⟨_, h, _⟩) <;> cases h⟩

lemma run_deleteSource (service : Service) (network : Network) (known : Known task s)
    (source : world.objects .source = some s) (alive : world.lives = none) :
    let ran := (deleteSource service network task).run world
    let fates := network.fate .deleteSource
    (Unacknowledged fates 3 0 → ran.2.objects .source = none ∧
      (ran.1 = .ok () ↔ Retry.Answered fates 3 0 ∧
        task.deleted (service.deleteMissing true) = true)) ∧
    (¬ Unacknowledged fates 3 0 → ran.2.objects .source = none → ran.1 = .ok ()) := by
  obtain ⟨gone, absent, first, again⟩ := deleteObject_twice service known source
  have still : ∀ (i : Nat) (store : Store), (fun _ store => store) i store = store := fun _ _ => rfl
  have requested := run_request network .deleteSource 3
    (deleteObject service .source task.etag) alive
  rw [deleteSource, run_bind, requested]
  dsimp only
  generalize ended : retry (deleteObject service .source task.etag) (fun _ store => store)
    (network.fate .deleteSource) 3 0 false world.store = outcome
  obtain ⟨kept, accepted⟩ := run_requireDeleted network task outcome.reply
    (World.answered .deleteSource outcome { world with log := .sent .deleteSource world.store ::
      world.log })
  rw [kept, accepted]
  have store : (World.answered .deleteSource outcome
      { world with log := .sent .deleteSource world.store :: world.log }).store =
        outcome.state := rfl
  rw [store]
  have unanswered (none : ¬ Retry.Answered (network.fate .deleteSource) 3 0)
    (answer : Except Nat Unit) :
      outcome.reply ≠ .answer answer := by
    intro replied
    rw [← ended] at replied
    exact none (answered_of_reply replied)
  refine ⟨fun unacknowledged => ?_, fun acknowledged missing => ?_⟩
  · have once := retry_unacknowledged still first again false unacknowledged
    rw [ended] at once
    refine ⟨?_, fun h => ?_, fun h => ?_⟩
    · rw [once.1]
      exact absent
    · by_cases answered : Retry.Answered (network.fate .deleteSource) 3 0
      · refine ⟨answered, ?_⟩
        obtain h | ⟨status, h, accepted⟩ := h
        · cases (once.2 answered).symm.trans h
        · cases (once.2 answered).symm.trans h
          exact accepted
      · obtain h | ⟨status, h, _⟩ := h
        all_goals exact absurd h (unanswered answered _)
    · exact .inr ⟨_, once.2 h.1, h.2⟩
  · have once := retry_acknowledged still first false acknowledged
    rw [ended] at once
    by_cases answered : Retry.Answered (network.fate .deleteSource) 3 0
    · exact .inl (once.1 answered)
    · rw [once.2 answered, source] at missing
      cases missing

end

/-- The `DELETE` is sent only after the confirmed copy, the content is stored, and a rename that has
happened is reported as such. -/
def Sound (s : Object) (ran : Except Stop Unit × World) : Prop :=
  Ordered s ran.2.log ∧ Stored s ran.2.store ∧
    (ran.2.objects .source = none → HoldsCopy s ran.2.store → ran.1 = .ok ())

structure Begins (s : Object) (world : World) : Prop where
  source : world.objects .source = some s
  upload : world.upload = none
  log : world.log = []
  alive : world.lives = none

def Settles (service : Service) (fates : Nat → Fate) (directory : Bool) : Prop :=
  Unacknowledged fates 3 0 → Retry.Answered fates 3 0 ∧
    Task.deleted ⟨[], 0, directory, false⟩ (service.deleteMissing true) = true

section
variable {service : Service} {network : Network} {task : Task} {s : Object} {world : World}

lemma Begins.phase (begins : Begins s world) : CopyPhase (Copying s) false world.marker world := by
  refine ⟨⟨begins.source, ?_⟩, rfl, ?_, fun _ => begins.alive⟩
  · intro parts same
    cases begins.upload.symm.trans same
  · rw [begins.log]
    exact nofun

lemma sound_of_settles (known : Known task s) (begins : Begins s world)
    (settles : Settles service (network.fate .deleteSource) task.directory) :
    Sound s ((copyAndDelete service network task).run world) := by
  have copy :=
    copyRemoteObject_ends network (Copying.invariant service known) known.size begins.phase
  rw [Ends] at copy
  rw [copyAndDelete, run_bind]
  generalize (copyRemoteObject service network task).run world = result at copy ⊢
  obtain ⟨stop | _, world1⟩ := result
  · refine ⟨ordered_of_noDelete copy.log, .inl copy.store.source, fun absent _ => ?_⟩
    cases copy.store.source.symm.trans absent
  · have ends := deleteSource_ends service network task copy
    obtain ⟨unacknowledged, acknowledged⟩ := run_deleteSource service network known
      copy.phase.store.source (copy.phase.alive rfl)
    rw [Ends] at ends
    dsimp only
    generalize (deleteSource service network task).run world1 =
      ran at ends unacknowledged acknowledged ⊢
    have kept : Ordered s ran.2.log ∧ HoldsCopy s ran.2.store := by
      obtain ⟨_ | _, world2⟩ := ran
      all_goals exact ends
    refine ⟨kept.1, .inr kept.2, fun absent _ => ?_⟩
    by_cases unseen : Unacknowledged (network.fate .deleteSource) 3 0
    · exact (unacknowledged unseen).2.2 (settles unseen)
    · exact acknowledged unseen absent

def answeredNetwork (fates : Nat → Fate) : Network where
  fate call := if call = .deleteSource then fates else fun _ => .answered
  error _ := ⟨500, none⟩

def emptyObject : Object := ⟨[1], []⟩

def onlySource : World where
  store :=
    { objects := fun key => if key = .source then some emptyObject else none
      upload := none
      serial := 0
      renamed := []
      deleted := [] }
  marker := none
  supported := false
  lives := none
  log := []

def emptyTask (directory : Bool) : Task := ⟨[1], 0, directory, false⟩

lemma begins_onlySource : Begins emptyObject onlySource := ⟨rfl, rfl, rfl, rfl⟩

lemma known_emptyTask (directory : Bool) : Known (emptyTask directory) emptyObject :=
  ⟨rfl, cons_ne_nil _ _, rfl⟩

lemma run_copy_onlySource (service : Service) (fates : Nat → Fate) (directory : Bool) :
    ((copyRemoteObject service (answeredNetwork fates) (emptyTask directory)).run onlySource).1 =
      .ok () := by
  have small : ¬ kMaximumSingleCopySize < (emptyTask directory).size := Nat.not_lt_zero _
  have answered : (answeredNetwork fates).fate .copy 0 = .answered := rfl
  rw [copyRemoteObject, if_neg small, singleCopy, run_bind, run_request _ _ _ _ rfl]
  dsimp only
  rw [retry_answered answered]
  rw [handle, run_tryCatch, if_neg (by simp [markerCopyUnsupported, rejected]),
    requireEtag, run_bind]
  have copied : (copyObject service (emptyTask directory).etag (emptyTask directory).noReplace
      onlySource.store).1 = .ok (service.etag 0) := rfl
  rw [copied, requireSuccess, run_pure]
  dsimp only
  rw [if_neg (service.etag_ne_nil 0)]
  rfl

end

/-- Whatever is lost, repeated or refused while the source is copied, a rename by copy and delete is
sound: so it is if the `DELETE` settles, and only then. -/
theorem copyAndDelete_sound_iff (service : Service) (fates : Nat → Fate) (directory : Bool) :
    (∀ network task s world, network.fate .deleteSource = fates → task.directory = directory →
      Known task s → Begins s world → Sound s ((copyAndDelete service network task).run world)) ↔
      Settles service fates directory := by
  constructor
  · intro sound unseen
    have known := known_emptyTask directory
    have ran :=
      sound (answeredNetwork fates) (emptyTask directory) emptyObject onlySource rfl rfl known
      begins_onlySource
    have copied := run_copy_onlySource service fates directory
    have copy :=
      copyRemoteObject_ends (answeredNetwork fates) (Copying.invariant service known) known.size
      begins_onlySource.phase
    rw [Ends] at copy
    rw [copyAndDelete, run_bind] at ran
    generalize (copyRemoteObject service (answeredNetwork fates)
      (emptyTask directory)).run onlySource =
      result at copy copied ran
    obtain ⟨stop | _, world1⟩ := result
    · cases copied
    · obtain ⟨unacknowledged, _⟩ := run_deleteSource service (answeredNetwork fates) known
        copy.phase.store.source (copy.phase.alive rfl)
      obtain ⟨absent, reported⟩ := unacknowledged unseen
      have ends := deleteSource_ends service (answeredNetwork fates) (emptyTask directory) copy
      rw [Ends] at ends
      refine reported.1 (ran.2.2 absent ?_)
      split at ends
      all_goals
        rename_i ended
        rw [ended]
        exact ends.2
  · rintro settles network task s world rfl rfl known begins
    exact sound_of_settles known begins settles

def plainService : Service where
  etag _ := [2]
  partEtag _ := [3]
  remembersTokens := false
  deleteMissing _ := 404
  etag_ne_nil _ := cons_ne_nil _ _

def lostDelete : Nat → Fate
  | 0 => .lost true
  | _ => .answered

theorem copyAndDelete_reports_failure :
    let ran :=
      (copyAndDelete plainService (answeredNetwork lostDelete) (emptyTask false)).run onlySource
    ran.2.objects .source = none ∧ ran.2.objects .destination = some ⟨[2], []⟩ ∧
      ran.1 = .error (.failed (.status 404)) := by
  decide +kernel

end Ngs3fs.Rename
