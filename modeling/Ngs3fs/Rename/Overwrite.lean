import Ngs3fs.Rename.CopyDelete

/-!
# Rename over an open destination

When the destination of a rename has open readers, its object is first moved to a hidden key, so
that they can go on reading. A marker in the local cache says that this is to be rolled back unless
the replacement has come into place; it is committed when the source has been renamed, and removed
when the hidden object has been restored or deleted. The process may die anywhere; the next mount
finishes what the marker says. `Safe` is the invariant: as long as the destination is away, the
marker says how to bring it back. Every request and every change of the marker keeps it, with one
exception, which `Understood` excludes. -/

namespace Ngs3fs.Rename
open Persist Retry Program Ends Option

structure Locals where
  destinationCached : Bool
  readers : Bool
  keyTooLong : Bool
  createFails : Bool
  lockFails : Bool
  readersGone : Bool
  registryChanged : Bool
  commitFails : Bool
  stillOpen : Bool
  restoreRegistryChanged : Bool
  unlinkFails : Bool
  deriving DecidableEq

variable (service : Service) (network : Network) (locals : Locals)

/-- `native_rename_supported`. -/
def nativeRenameSupported : RemoteM Bool := fun world => (.ok world.supported, world)

/-- `rename_object_support` is set to -1. -/
def renameUnsupported : RemoteM Bool := fun world => (.ok false, { world with supported := false })

def requireRenamed (call : Call) (reply : Reply (Except Nat Unit)) : RemoteM Bool :=
  if rejected reply && (network.error call).renameUnsupported then renameUnsupported
  else do
    requireSuccess network call reply
    pure true

/-- `try_native_rename_object`. -/
def tryNativeRename (call : Call) (src dst : Key) (etag : Text) (noReplace : Bool) :
    RemoteM Bool := do
  if ← nativeRenameSupported then
    let (reply, _) ← request network call 3 (renameObject service call src dst etag noReplace)
    requireRenamed network call reply
  else pure false

def setMarker (marker : Option Marker) : RemoteM Unit :=
  effect fun world => { world with marker := marker }

/-- What it has begun it takes back when it fails. -/
def createPendingDelete (replacement : Text) : RemoteM Unit := do
  setMarker (some .creating)
  if locals.createFails then
    setMarker none
    fail .localError
  else setMarker (some (.rollback replacement))

/-- An error is only reported. -/
def commitPendingDelete : RemoteM Unit :=
  if locals.commitFails then pure () else setMarker (some .committed)

/-- `LocalCache::finish_pending_delete`; an error is only reported. -/
def removeMarker : RemoteM Unit := if locals.unlinkFails then pure () else setMarker none

/-- A status `delete_object` accepts. -/
def deleteAccepted (status : Nat) : Bool := status = 200 || status = 204 || status = 404

/-- `delete_object` of the hidden key. -/
def deleteHidden (etag : Text) : RemoteM Unit := do
  let (reply, _) ← request network .deleteHidden 3 (deleteObject service .hidden etag)
  match reply with
  | .answer (.error status) => if deleteAccepted status then pure () else fail (.status status)
  | reply => requireSuccess network .deleteHidden reply

def restore (hidden : Object) : RemoteM Unit := do
  let accepted ← tryNativeRename service network .restore .hidden .destination hidden.etag true
  if !accepted then fail .unsupported
  else if locals.restoreRegistryChanged then fail .localError

/-- Deleted if the replacement is in place. -/
def rollBack (replacement : Text) : RemoteM Unit := do
  match ← head network .pendingHidden .hidden with
  | none => pure ()
  | some hidden =>
    match ← head network .pendingVisible .destination with
    | none => restore service network locals hidden
    | some visible =>
      if replacement ≠ [] ∧ visible.etag = replacement then deleteHidden service network hidden.etag
      else fail .ambiguousTarget

/-- It keeps the marker when it fails. -/
def finishPendingDelete (rollback : Bool) (replacement : Text) : RemoteM Unit :=
  handle (do
    if rollback then rollBack service network locals replacement
      else deleteHidden service network []
    removeMarker locals) fun _ => pure ()

/-- `hide_open_readers` when the hiding rename has failed: is the object at the hidden key? -/
def identifyHidden (metadata : Object) (replacement : Text) (failure : Failure) : RemoteM Bool := do
  match ← handle (some <$> head network .headHidden .hidden) fun _ => pure none with
  | some (some hidden) =>
    if hidden.body.length = metadata.body.length ∧
      (metadata.etag = [] ∨ hidden.etag = metadata.etag) then
      pure true
    else
      finishPendingDelete service network locals true replacement
      fail failure
  | some none =>
    removeMarker locals
    fail failure
  | none =>
    finishPendingDelete service network locals true replacement
    fail failure

/-- `hide_open_readers` from the hiding rename on. -/
def hideDestination (metadata : Object) (replacement : Text) : RemoteM Bool := do
  let renamed ← handle
    (tryNativeRename service network .hide .destination .hidden metadata.etag true)
    (identifyHidden service network locals metadata replacement)
  if !renamed then
    removeMarker locals
    pure false
  else if locals.registryChanged then fail .localError
  else pure true

/-- `hide_open_readers` once the marker is there. -/
def hideMarked (metadata : Object) (replacement : Text) : RemoteM Bool := do
  if locals.lockFails then
    removeMarker locals
    fail .localError
  else if locals.readersGone then
    removeMarker locals
    pure false
  else hideDestination service network locals metadata replacement

/-- `hide_open_readers`. -/
def hideOpenReaders (replacement : Text) : RemoteM Bool := do
  if !locals.readers then pure false
  else
    match ← head network .headDestination .destination with
    | none => fail .notFound
    | some metadata =>
      if !(← nativeRenameSupported) || locals.keyTooLong then pure false
      else
        createPendingDelete locals replacement
        hideMarked service network locals metadata replacement

/-- `rename_remote_object`. -/
def renameRemoteObject (task : Task) : RemoteM Unit := do
  if ← tryNativeRename service network .renameSource .source .destination task.etag
    task.noReplace then
    pure ()
  else copyAndDelete service network task

/-- A hidden destination is rolled back when it fails. -/
def renameSource (hidden : Bool) (task : Task) : RemoteM Unit :=
  handle (renameRemoteObject service network task) fun failure => do
    if hidden then finishPendingDelete service network locals true task.etag
    fail failure

def hideCached (replacement : Text) : RemoteM Bool :=
  if locals.destinationCached then hideOpenReaders service network locals replacement
    else pure false

/-- The body of `ngs3fs_rename`, as far as remote objects and the marker go. -/
def renameObjects (noReplace : Bool) : RemoteM Unit := do
  match ← head network .headSource .source with
  | none => fail .notFound
  | some metadata =>
    let hidden ← hideCached service network locals metadata.etag
    renameSource service network locals hidden ⟨metadata.etag, metadata.body.length,
      false, noReplace⟩
    if hidden then
      commitPendingDelete locals
      if !locals.stillOpen then finishPendingDelete service network locals false metadata.etag

/-- `ngs3fs_rename`: its `PathMutationGuard` blocks both keys, and ends with the call or the
process. -/
def overwrite (noReplace : Bool) : RemoteM Unit := fun world =>
  let (result, world) := (renameObjects service network locals noReplace).run
    { world with blocked := [.source, .destination] }
  (result, { world with blocked := [] })

/-- A marker that was being written names no hidden object. -/
def recoverPendingDelete : RemoteM Unit := fun world =>
  match world.marker with
  | none => (.ok (), world)
  | some .creating => (.ok (), world)
  | some (.rollback replacement) =>
    (finishPendingDelete service network locals true replacement).run world
  | some .committed => (finishPendingDelete service network locals false []).run world

/-- What is left to the next mount. `initialize_local_cache` blocks the keys of recovered writes and
none for a marker: neither the hidden key nor the one to restore. -/
def World.restart (supported : Bool) (lives : Option Nat) (world : World) : World :=
  { store := { world.store with renamed := [] }
    marker := world.marker
    supported := supported
    lives := lives
    log := []
    blocked := [] }

/-! ### The invariant -/

inductive Placed (s d : Object) (store : Store) : Prop where
  | intact (source : store.objects .source = some s)
      (destination : store.objects .destination = some d)
      (hidden : store.objects .hidden = none)
  | away (source : store.objects .source = some s) (destination : store.objects .destination = none)
      (hidden : store.objects .hidden = some d)
  | replaced (source : store.objects .source = some s ∨ store.objects .source = none)
      (copy : HoldsCopy s store)
      (hidden : store.objects .hidden = none ∨ store.objects .hidden = some d)

def Call.rank : Call → Nat
  | .hide => 0
  | .renameSource => 1
  | .restore => 2
  | _ => 3

structure Safe (s d : Object) (stage : Nat) (marker : Option Marker) (store : Store) : Prop where
  placed : Placed s d store
  parts : ∀ parts, store.upload = some parts → ∀ number etag bytes,
    parts number = some (etag, bytes) → bytes = s.slice (number - 1)
  deleted : ∀ old, (Key.hidden, old) ∈ store.deleted → ∃ object, old = some object ∧
    object.body = s.body
  guarded : store.objects .destination = none → ∃ replacement, marker = some (.rollback replacement)
  committed : marker = some .committed → HoldsCopy s store
  tokens : ∀ token ∈ store.renamed, token.rank < stage

section
variable {service : Service} {s d : Object} {stage : Nat} {marker : Option Marker} {store : Store}

lemma HoldsCopy.there (copy : HoldsCopy s store) : store.objects .destination ≠ none := by
  obtain ⟨object, stored, _⟩ := copy
  rw [stored]
  exact some_ne_none object

lemma Safe.mono (safe : Safe s d stage marker store) {stage'} (le : stage ≤ stage') :
    Safe s d stage' marker store :=
  { safe with tokens := fun token mem => Nat.lt_of_lt_of_le (safe.tokens token mem) le }

lemma Safe.stored (safe : Safe s d stage marker store) :
    store.objects .source = some s ∨ HoldsCopy s store := by
  cases safe.placed with
  | intact source _ _ | away source _ _ => exact .inl source
  | replaced _ copy _ => exact .inr copy

lemma Safe.source (safe : Safe s d stage marker store) :
    store.objects .source = some s ∨ store.objects .source = none := by
  cases safe.placed with
  | intact source _ _ | away source _ _ => exact .inl source
  | replaced source _ _ => exact source

variable {object : Object}

section
variable (safe : Safe s d stage marker store)
include safe

lemma Safe.source_eq (found : store.objects .source = some object) : object = s := by
  obtain source | source := safe.source
  · exact some.inj (found.symm.trans source)
  · cases found.symm.trans source

lemma Safe.hidden : store.objects .hidden = none ∨ store.objects .hidden = some d := by
  cases safe.placed with
  | intact _ _ hidden => exact .inl hidden
  | away _ _ hidden => exact .inr hidden
  | replaced _ _ hidden => exact hidden

lemma Safe.there (gone : store.objects .hidden = none) : store.objects .destination ≠ none := by
  cases safe.placed with
  | intact _ destination _ =>
    rw [destination]
    exact some_ne_none d
  | away _ _ hidden => cases hidden.symm.trans gone
  | replaced _ copy _ => exact copy.there

lemma Safe.copy {hidden visible} (away : store.objects .hidden = some hidden)
    (there : store.objects .destination = some visible) : HoldsCopy s store := by
  cases safe.placed with
  | intact _ _ hidden => cases hidden.symm.trans away
  | away _ destination _ => cases destination.symm.trans there
  | replaced _ copy _ => exact copy

lemma Safe.destination :
    store.objects .destination = some d ∨ HoldsCopy s store ∨
      ∃ replacement, marker = some (.rollback replacement) := by
  cases safe.placed with
  | intact _ destination _ => exact .inl destination
  | away _ destination _ => exact .inr (.inr (safe.guarded destination))
  | replaced _ copy _ => exact .inr (.inl copy)

lemma Safe.remark {marker'} (there : store.objects .destination ≠ none)
    (copy : marker' = some .committed → HoldsCopy s store) : Safe s d stage marker' store :=
  { safe with guarded := fun absent => absurd absent there, committed := copy }

end

def Store.moved (token : Call) (src dst : Key) (object : Object) (store : Store) : Store :=
  { (store.put src none).put dst (some object) with renamed := token :: store.renamed }

lemma renameObject_cases (service : Service) (store : Store) (token : Call)
    (src dst : Key) (etag : Text)
    (noReplace : Bool) :
    (∃ r, renameObject service token src dst etag noReplace store = (r, store) ∧
      (r = .ok () → token ∈ store.renamed)) ∨
    ∃ object, store.objects src = some object ∧
      renameObject service token src dst etag noReplace store =
      (.ok (), store.moved token src dst object) := by
  rw [renameObject]
  split
  · rename_i remembered
    exact .inl ⟨_, rfl, fun _ => remembered.2⟩
  · split
    · exact .inl ⟨_, rfl, nofun⟩
    · rename_i object matched
      split
      · exact .inl ⟨_, rfl, nofun⟩
      · exact .inr ⟨object, matchedSource_found matched, rfl⟩

lemma Safe.renameSource (safe : Safe s d 2 marker store)
    (made : .renameSource ∈ store.renamed → HoldsCopy s store) (etag : Text) (noReplace : Bool) :
    let after := (renameObject service .renameSource .source .destination etag noReplace store)
    (Safe s d 2 marker after.2 ∧ (.renameSource ∈ after.2.renamed → HoldsCopy s after.2)) ∧
      (after.1 = .ok () → HoldsCopy s after.2) := by
  obtain ⟨r, same, token⟩ | ⟨object, found, moved⟩ :=
    renameObject_cases service store .renameSource .source .destination etag noReplace
  · rw [same]
    exact ⟨⟨safe, made⟩, fun ok => made (token ok)⟩
  · rw [moved]
    obtain rfl := safe.source_eq found
    have copy : HoldsCopy object (store.moved .renameSource .source .destination object) :=
      ⟨object, rfl, rfl⟩
    refine ⟨⟨⟨.replaced (.inr rfl) copy safe.hidden, safe.parts, safe.deleted,
      fun absent => absurd absent copy.there, fun _ => copy, ?_⟩, fun _ => copy⟩, fun _ => copy⟩
    intro token mem
    cases mem with
    | head => decide
    | tail _ mem => exact safe.tokens token mem

/-- It is in place or away. -/
structure Hiding (s d : Object) (stage : Nat) (marker : Option Marker) (store : Store) : Prop where
  safe : Safe s d stage marker store
  source : store.objects .source = some s
  position : store.objects .destination = some d ∧ store.objects .hidden = none ∨
    store.objects .destination = none ∧ store.objects .hidden = some d

lemma Safe.hiding (safe : Safe s d stage marker store) (absent : store.objects .destination = none)
    {stage'} (le : stage ≤ stage') : Hiding s d stage' marker store := by
  cases placed : safe.placed with
  | intact _ destination _ => cases destination.symm.trans absent
  | away source destination hidden => exact ⟨safe.mono le, source, .inr ⟨destination, hidden⟩⟩
  | replaced _ copy _ => exact absurd absent copy.there

lemma Hiding.moved {replacement} (shift : Hiding s d stage (some (.rollback replacement)) store)
    {token} (rank : token.rank < stage) {src dst}
    (keys : src = .destination ∧ dst = .hidden ∨ src = .hidden ∧ dst = .destination)
    (found : store.objects src = some object) :
    Hiding s d stage (some (.rollback replacement)) (store.moved token src dst object) ∧
      (store.moved token src dst object).objects src = none := by
  have tokens : ∀ t ∈ (store.moved token src dst object).renamed, t.rank < stage := by
    intro t mem
    cases mem with
    | head => exact rank
    | tail _ mem => exact shift.safe.tokens t mem
  obtain ⟨rfl, rfl⟩ | ⟨rfl, rfl⟩ := keys
  · obtain ⟨destination, _⟩ | ⟨destination, _⟩ := shift.position
    · obtain rfl := some.inj (found.symm.trans destination)
      refine ⟨⟨⟨.away shift.source rfl rfl, shift.safe.parts, shift.safe.deleted,
        fun _ => ⟨_, rfl⟩, nofun, tokens⟩, shift.source, .inr ⟨rfl, rfl⟩⟩, rfl⟩
    · cases found.symm.trans destination
  · obtain ⟨_, hidden⟩ | ⟨_, hidden⟩ := shift.position
    · cases found.symm.trans hidden
    · obtain rfl := some.inj (found.symm.trans hidden)
      refine ⟨⟨⟨.intact shift.source rfl rfl, shift.safe.parts, shift.safe.deleted,
        fun _ => ⟨_, rfl⟩, nofun, tokens⟩, shift.source, .inl ⟨rfl, rfl⟩⟩, rfl⟩

/-- Once it is made, the key it moves from is empty. -/
def Shifting (s d : Object) (stage : Nat) (replacement : Text) (token : Call) (src : Key)
    (store : Store) :
    Prop :=
  Hiding s d stage (some (.rollback replacement)) store ∧
    (token ∈ store.renamed → store.objects src = none)

lemma Shifting.renameObject (service : Service) {replacement : Text} {token : Call} {src dst : Key}
    (shifting : Shifting s d stage replacement token src store) (rank : token.rank < stage)
    (keys : src = .destination ∧ dst = .hidden ∨ src = .hidden ∧ dst = .destination) (etag : Text) :
    let after := renameObject service token src dst etag true store
    Shifting s d stage replacement token src after.2 ∧
      (after.1 = .ok () → after.2.objects src = none) := by
  obtain ⟨shift, made⟩ := shifting
  obtain ⟨r, same, remembered⟩ | ⟨object, found, moved⟩ :=
    renameObject_cases service store token src dst etag true
  · rw [same]
    exact ⟨⟨shift, made⟩, fun ok => made (remembered ok)⟩
  · rw [moved]
    obtain ⟨kept, gone⟩ := shift.moved rank keys found
    exact ⟨⟨kept, fun _ => gone⟩, fun _ => gone⟩

lemma Safe.delete {key} (kind : key = .hidden ∨ key = .source)
    (safe : Safe s d stage marker store ∧ HoldsCopy s store) (etag : Text) :
    Safe s d stage marker (deleteObject service key etag store).2 ∧
      HoldsCopy s (deleteObject service key etag store).2 := by
  obtain ⟨safe, copy⟩ := safe
  rw [deleteObject]
  split
  · exact ⟨safe, copy⟩
  split
  · exact ⟨safe, copy⟩
  rcases kind with rfl | rfl
  · refine ⟨{ safe with placed := .replaced safe.source copy (.inl rfl), deleted := ?_ }, copy⟩
    intro old mem
    cases mem with
    | head => exact copy
    | tail _ mem => exact safe.deleted old mem
  · refine ⟨{ safe with placed := .replaced (.inr rfl) copy safe.hidden, deleted := ?_ }, copy⟩
    intro old mem
    cases mem with
    | tail _ mem => exact safe.deleted old mem

lemma Safe.create (service : Service) (safe : Safe s d stage marker store) :
    Safe s d stage marker (store.create service .destination s.body) := by
  have copy : HoldsCopy s (store.create service .destination s.body) := holdsCopy_create
  exact ⟨.replaced safe.source copy safe.hidden, safe.parts, safe.deleted,
    fun absent => absurd absent copy.there, fun _ => copy, safe.tokens⟩

lemma Placed.upload (placed : Placed s d store) {upload serial renamed} :
    Placed s d { store with upload, serial, renamed } := by
  cases placed with
  | intact source destination hidden => exact .intact source destination hidden
  | away source destination hidden => exact .away source destination hidden
  | replaced source copy hidden => exact .replaced source copy hidden

lemma Safe.invariant (service : Service) {task : Task} (size : s.body.length = task.size) :
    CopyInvariant service task s (Safe s d stage marker) := by
  refine .of_create size (fun safe => safe.source_eq) (fun safe => safe.parts)
    (fun safe => safe.create service) fun safe parts => ?_
  exact { safe with placed := safe.placed.upload, parts := parts }

end

/-! ### The programs keep the invariant -/

section
variable {service : Service} {network : Network} {locals : Locals} {s d : Object} {stage : Nat}
  {world : World} {I : Store → Prop}

structure Passed (I : Store → Prop) (world world' : World) : Prop where
  store : I world'.store
  marker : world'.marker = world.marker
  log : NoDelete world.log → NoDelete world'.log

variable {call : Call} {world' : World}

lemma Requested.passed (requested : Requested I call world world') (other : call ≠ .deleteSource) :
    Passed I world world' := by
  refine ⟨requested.store, requested.marker, fun log => ?_⟩
  have phase : CopyPhase (fun _ => True) true world.marker world := ⟨trivial, rfl, log, nofun⟩
  exact (phase.requested other { requested with store := trivial }).log

lemma request_passed {α} (other : call ≠ .deleteSource) (left : Nat)
    {serve : Store → Except Nat α × Store} (closed : ∀ store, I store → I (serve store).2)
    (h : I world.store) :
    Ends (request network call left serve) world
      (fun r world' => Passed I world world' ∧ Answered I call serve r.1 world' ∧
        Retried network call left serve r.1 world world')
      (fun _ => Passed I world) :=
  (request_ends call left closed h).mono (fun _ _ h => ⟨h.1.passed other, h.2⟩)
    fun _ _ h => h.2.passed other

lemma head_ends (network : Network) (other : call ≠ .deleteSource) (key : Key) :
    Ends (head network call key) world
      (fun found world' => Passed (· = world.store) world world' ∧ found = world.objects key)
      (fun _ world' => Passed (· = world.store) world world') := by
  rw [head]
  refine (request_passed (I := (· = world.store)) other 3 (fun _ h => h) rfl).bind ?_
  rintro ⟨reply, _⟩ world' ⟨passed, answered, _⟩
  have served {answer : Except Nat Object} (replied : reply = .answer answer) :
      answer = (headObject key world.store).1 := by
    obtain ⟨store, rfl, answer, _⟩ := answered.served _ replied
    exact answer
  have found {object : Object} (replied : reply = .answer (.ok object)) :
      some object = world.objects key := by
    have answer := served replied
    rw [headObject] at answer
    split at answer
    · cases answer
    · rename_i there
      cases answer
      exact there.symm
  dsimp only
  split
  · refine ends_pure ⟨passed, ?_⟩
    have answer := served rfl
    rw [headObject] at answer
    split at answer
    · rename_i absent
      exact absent.symm
    · cases answer
  · rw [map_eq_pure_bind]
    exact bind (M := fun object world' => Passed (· = world.store) world world' ∧
        some object = world.objects key)
      (requireSuccess_ends (fun object replied => ⟨passed, found replied⟩) fun _ => passed)
      fun _ _ h => ends_pure h

lemma Retried.unchanged {α left serve} {reply : Reply (Except Nat α)}
    (retried : Retried network call left serve reply world world') (refused : rejected reply = true)
    (acknowledged : ¬ Unacknowledged (network.fate call) left 0) : world'.store = world.store := by
  obtain ⟨replied, ended⟩ := retried
  have still : ∀ (i : Nat) (store : Store), (fun _ store => store) i store = store := fun _ _ => rfl
  have first : serve world.store = ((serve world.store).1, (serve world.store).2) := rfl
  have once := retry_acknowledged still first false acknowledged
  rw [ended]
  apply once.2
  intro answered
  rw [replied, once.1 answered] at refused
  cases refused

lemma tryNativeRename_ends (network : Network) (other : call ≠ .deleteSource) (src dst : Key)
    (etag : Text) (noReplace : Bool)
    (closed : ∀ store, I store → I (renameObject service call src dst etag noReplace store).2)
    (h : I world.store) :
    Ends (tryNativeRename service network call src dst etag noReplace) world
      (fun accepted world' => Passed I world world' ∧ (accepted = true → ∃ store, I store ∧
          (renameObject service call src dst etag noReplace store).1 = .ok () ∧
          world'.store = (renameObject service call src dst etag noReplace store).2) ∧
        (accepted = false →
          (Unacknowledged (network.fate call) 3 0 →
            (network.error call).renameUnsupported = false) →
          world'.store = world.store))
      (fun _ => Passed I world) := by
  rw [tryNativeRename]
  refine bind (M := fun _ world' => world' = world) rfl ?_
  rintro supported _ rfl
  refine .ite (fun _ => ?_) fun _ => ends_pure ⟨⟨h, rfl, id⟩, nofun, fun _ _ => rfl⟩
  refine (request_passed other 3 closed h).bind ?_
  rintro ⟨reply, _⟩ world' ⟨passed, answered, retried⟩
  dsimp only
  rw [requireRenamed]
  refine .ite (fun unsupported => ?_) fun _ => ?_
  · rw [Bool.and_eq_true] at unsupported
    refine of_ok (t := { world' with supported := false }) rfl
      ⟨{ passed with }, nofun, fun _ condition => ?_⟩
    refine retried.unchanged unsupported.1 fun unseen => ?_
    cases unsupported.2.symm.trans (condition unseen)
  · refine bind (M := fun _ world1 => world1 = world' ∧ reply = .answer (.ok ()))
      (requireSuccess_ends (fun response replied => ⟨rfl, replied⟩) fun _ => passed) ?_
    rintro _ _ ⟨rfl, replied⟩
    obtain ⟨store, kept, answer, ended⟩ := answered.served _ replied
    exact ends_pure ⟨passed, fun _ => ⟨store, kept, answer.symm, ended⟩, nofun⟩

variable {marker : Option Marker}

lemma setMarker_ends {G E} (made : ∀ lives, G () { world with marker := marker, lives := lives })
    (dead : E .crash world) : Ends (setMarker marker) world G E := by
  have run : (setMarker marker).run world = setMarker marker world := rfl
  rw [setMarker, effect] at run
  cases lives : world.lives with
  | none =>
    rw [lives] at run
    exact .of_ok run (made none)
  | some n =>
    rw [lives] at run
    cases n with
    | zero => exact .of_error run dead
    | succ n => exact .of_ok run (made (some n))

lemma removeMarker_ends {G : World → Prop}
    (made : ∀ lives, G { world with marker := none, lives := lives }) (h : G world) :
    Ends (removeMarker locals) world (fun _ => G) (fun _ => G) := by
  rw [removeMarker]
  exact .ite (fun _ => ends_pure h) fun _ => setMarker_ends made h

def SafeWorld (s d : Object) (stage : Nat) (world : World) : Prop :=
  Safe s d stage world.marker world.store

def There (world : World) : Prop := world.objects .destination ≠ none

/-- Here the marker may go. -/
def Settled (s d : Object) (stage : Nat) (world : World) : Prop :=
  SafeWorld s d stage world ∧ There world

/-- A recovery that fails does not make the destination go away. -/
def Unfinished (s d : Object) (stage : Nat) (before world : World) : Prop :=
  SafeWorld s d stage world ∧ (There before → There world)

lemma SafeWorld.passed (safe : SafeWorld s d stage world)
    (passed : Passed (· = world.store) world world') : SafeWorld s d stage world' := by
  rw [SafeWorld, passed.store, passed.marker]
  exact safe

lemma Unfinished.passed (safe : SafeWorld s d stage world)
    (passed : Passed (· = world.store) world world') {stage'} (le : stage ≤ stage') :
    Unfinished s d stage' world world' := by
  refine ⟨(safe.passed passed).mono le, fun there => ?_⟩
  rw [There, passed.store]
  exact there

def Replaced (s d : Object) (stage : Nat) (world : World) : Prop :=
  SafeWorld s d stage world ∧ HoldsCopy s world.store

lemma Passed.safe (passed : Passed I world world')
    (safe : ∀ store, I store → Safe s d stage world.marker store) : SafeWorld s d stage world' := by
  rw [SafeWorld, passed.marker]
  exact safe _ passed.store

lemma Replaced.settled (replaced : Replaced s d stage world) : Settled s d stage world :=
  ⟨replaced.1, replaced.2.there⟩

lemma Settled.unfinished (settled : Settled s d stage world) (before : World) :
    Unfinished s d stage before world :=
  ⟨settled.1, fun _ => settled.2⟩

lemma deleteHidden_ends (safe : SafeWorld s d stage world) (copy : HoldsCopy s world.store)
    (etag : Text) :
    Ends (deleteHidden service network etag) world (fun _ => Replaced s d stage)
      (fun _ => Replaced s d stage) := by
  rw [deleteHidden]
  refine bind (M := fun _ => Replaced s d stage) ((request_passed
    (I := fun store => Safe s d stage world.marker store ∧ HoldsCopy s store) (by decide) 3
    (fun _ h => Safe.delete (.inl rfl) h etag) ⟨safe, copy⟩).mono
      (fun _ _ h => ⟨h.1.safe fun _ h => h.1, h.1.store.2⟩)
      fun _ _ h => ⟨h.safe fun _ h => h.1, h.store.2⟩) ?_
  rintro ⟨reply, _⟩ world' kept
  dsimp only
  split
  · exact .ite (fun _ => ends_pure kept) fun _ => ends_throw kept
  · exact requireSuccess_ends (fun _ _ => kept) fun _ => kept

lemma restore_ends (safe : SafeWorld s d 2 world) (absent : world.objects .destination = none)
    (hidden : Object) :
    Ends (restore service network locals hidden) world (fun _ => Settled s d 3)
      (fun _ => SafeWorld s d 3) := by
  obtain ⟨replacement, marked⟩ := safe.guarded absent
  have shift := safe.hiding absent (Nat.le_succ 2)
  rw [marked] at shift
  have fresh : .restore ∈ world.renamed → world.objects .hidden = none :=
    fun mem => absurd (safe.tokens _ mem) (Nat.lt_irrefl 2)
  have kept {world' : World}
    (passed : Passed (Shifting s d 3 replacement .restore .hidden) world world') :
      SafeWorld s d 3 world' := by
    refine passed.safe fun store h => ?_
    rw [marked]
    exact h.1.safe
  rw [restore]
  refine (tryNativeRename_ends
    (I := Shifting s d 3 replacement .restore .hidden) network (by decide)
    .hidden .destination hidden.etag true
    (fun _ h => (h.renameObject service (by decide) (.inr ⟨rfl, rfl⟩) hidden.etag).1)
    ⟨shift, fresh⟩).bind_mono (fun _ _ => kept) ?_
  rintro accepted world' ⟨passed, done, _⟩
  have safe' := kept passed
  refine .ite (fun _ => ends_throw safe') fun accepted => .ite (fun _ => ends_throw safe') fun _ =>
    ends_pure ⟨safe', ?_⟩
  rw [Bool.not_eq_true, Bool.not_eq_false'] at accepted
  obtain ⟨store, kept, ok, ended⟩ := done accepted
  have gone := (kept.renameObject service (by decide) (.inr ⟨rfl, rfl⟩) hidden.etag).2 ok
  rw [← ended] at gone
  exact passed.store.1.safe.there gone

lemma rollBack_ends (safe : SafeWorld s d 2 world) (replacement : Text) :
    Ends (rollBack service network locals replacement) world (fun _ => Settled s d 3)
      (fun _ => Unfinished s d 3 world) := by
  rw [rollBack]
  refine (head_ends network (by decide) .hidden).bind_mono
    (fun _ _ passed => .passed safe passed (by decide)) ?_
  rintro hidden world1 ⟨passed, found⟩
  have safe1 := safe.passed passed
  rw [← passed.store] at found
  cases hidden with
  | none => exact ends_pure ⟨safe1.mono (by decide), safe1.there found.symm⟩
  | some hidden =>
    have same : There world → There world1 := (Unfinished.passed safe passed Nat.le.refl).2
    refine (head_ends network (by decide) .destination).bind_mono
      (fun _ _ passed => (Unfinished.passed safe1 passed (by decide)).imp_right (·.comp same)) ?_
    rintro visible world2 ⟨passed2, visible2⟩
    have safe2 := safe1.passed passed2
    cases visible with
    | none =>
      refine (restore_ends safe2 (by rw [passed2.store]; exact visible2.symm) hidden).mono
        (fun _ _ h => h) fun _ _ h => ⟨h, fun there => ?_⟩
      exact absurd visible2.symm (same there)
    | some visible =>
      rw [← passed2.store] at found visible2
      have copy := safe2.copy found.symm visible2.symm
      refine .ite (fun _ => ?_) fun _ =>
        ends_throw (Settled.unfinished ⟨safe2.mono (by decide), copy.there⟩ world)
      exact (deleteHidden_ends (safe2.mono (by decide)) copy hidden.etag).mono
        (fun _ _ h => h.settled) fun _ _ h => h.settled.unfinished world

/-- When the object is settled the marker is removed; an error leaves it. -/
lemma settle_ends {m : RemoteM Unit} {G P : World → Prop}
    (ends : Ends m world (fun _ => G) fun _ => P)
    (kept : ∀ world, G world → P world)
    (removed : ∀ world lives, G world → P { world with marker := none, lives := lives }) :
    Ends (handle (do m; removeMarker locals) fun _ => pure ()) world (fun _ => P) (fun _ => P) := by
  refine Ends.handle (E := fun _ => P) ?_ (fun _ h => h) fun _ _ h => ends_pure h
  exact ends.bind fun _ _ h => removeMarker_ends (fun lives => removed _ lives h) (kept _ h)

lemma Settled.removed (settled : Settled s d stage world) (before : World) (lives : Option Nat) :
    Unfinished s d stage before { world with marker := none, lives := lives } :=
  ⟨settled.1.remark settled.2 nofun, fun _ => settled.2⟩

lemma finishPendingDelete_rollback (safe : SafeWorld s d 2 world) (replacement : Text) :
    Ends (finishPendingDelete service network locals true replacement) world
      (fun _ => Unfinished s d 3 world) (fun _ => Unfinished s d 3 world) :=
  settle_ends (rollBack_ends safe replacement) (fun _ h => h.unfinished world)
    fun _ lives h => h.removed world lives

lemma finishPendingDelete_committed (safe : SafeWorld s d stage world)
    (copy : HoldsCopy s world.store)
    (replacement : Text) :
    Ends (finishPendingDelete service network locals false replacement) world
      (fun _ => Unfinished s d stage world) (fun _ => Unfinished s d stage world) :=
  settle_ends ((deleteHidden_ends safe copy []).mono (fun _ _ h => h.settled)
    fun _ _ h => h.settled.unfinished world) (fun _ h => h.unfinished world)
    fun _ lives h => h.removed world lives

/-- The source is in place, and no `DELETE` of it has been sent. -/
structure Before (s d : Object) (world : World) : Prop where
  shift : Hiding s d 1 world.marker world.store
  log : NoDelete world.log

structure Ready (s d : Object) (world : World) : Prop where
  before : Before s d world
  destination : world.objects .destination = some d
  fresh : .hide ∉ world.renamed

lemma Before.safe (before : Before s d world) (le : 1 ≤ stage) : SafeWorld s d stage world :=
  before.shift.safe.mono le

lemma Before.passed (before : Before s d world) (passed : Passed (· = world.store) world world') :
    Before s d world' := by
  refine ⟨?_, passed.log before.log⟩
  rw [passed.store, passed.marker]
  exact before.shift

lemma Before.remark (before : Before s d world) (there : world.objects .destination ≠ none)
    (other : marker ≠ some .committed) (lives : Option Nat) :
    Before s d { world with marker := marker, lives := lives } :=
  ⟨⟨before.shift.safe.remark there fun committed => absurd committed other, before.shift.source,
    before.shift.position⟩, before.log⟩

lemma Ready.there (ready : Ready s d world) : world.objects .destination ≠ none := by
  rw [ready.destination]
  exact some_ne_none d

lemma Ready.remark (ready : Ready s d world) (other : marker ≠ some .committed)
    (lives : Option Nat) : Ready s d { world with marker := marker, lives := lives } :=
  ⟨ready.before.remark ready.there other lives, ready.destination, ready.fresh⟩

lemma Ready.passed (ready : Ready s d world) (passed : Passed (· = world.store) world world') :
    Ready s d world' := by
  refine ⟨ready.before.passed passed, ?_, ?_⟩
  · rw [passed.store]
    exact ready.destination
  · rw [passed.store]
    exact ready.fresh

lemma removeMarker_before (locals : Locals) (before : Before s d world)
    (there : world.objects .destination ≠ none) :
    Ends (removeMarker locals) world (fun _ => Before s d) (fun _ => SafeWorld s d 3) :=
  (removeMarker_ends (before.remark there nofun) before).mono (fun _ _ h => h)
    fun _ _ h => h.safe (by decide)

lemma createPendingDelete_ends (ready : Ready s d world) (replacement : Text) :
    Ends (createPendingDelete locals replacement) world
      (fun _ world' => Ready s d world' ∧ world'.marker = some (.rollback replacement))
      (fun _ => SafeWorld s d 3) := by
  have safe {world' : World} (ready : Ready s d world') : SafeWorld s d 3 world' :=
    ready.before.safe (by decide)
  rw [createPendingDelete]
  refine bind (M := fun _ => Ready s d)
    (setMarker_ends (ready.remark (by decide)) (safe ready)) ?_
  intro _ world1 ready1
  refine .ite (fun _ => ?_) fun _ => ?_
  · refine bind (M := fun _ => Ready s d)
      (setMarker_ends (ready1.remark (by decide)) (safe ready1)) ?_
    intro _ world2 ready2
    exact ends_throw (safe ready2)
  · exact setMarker_ends (fun lives => ⟨ready1.remark (by simp) lives, rfl⟩) (safe ready1)

lemma identifyHidden_ends (before : Before s d world) (metadata : Object) (replacement : Text)
    (failure : Failure) :
    Ends (identifyHidden service network locals metadata replacement failure) world
      (fun renamed world' => renamed = true ∧ Before s d world')
      (fun _ => SafeWorld s d 3) := by
  rw [identifyHidden]
  refine bind (M := fun found world' => Before s d world' ∧
    ∀ hidden, found = some hidden → hidden = world'.objects .hidden) ?_ ?_
  · refine Ends.handle (E := fun _ => Before s d) ?_ (fun _ h => h.safe (by decide))
      fun _ _ h => ends_pure ⟨h, nofun⟩
    rw [map_eq_pure_bind]
    refine (head_ends network (by decide) .hidden).bind_mono (fun _ _ passed =>
      before.passed passed) ?_
    rintro hidden world1 ⟨passed, found⟩
    refine ends_pure ⟨before.passed passed, ?_⟩
    rintro _ ⟨⟩
    rw [passed.store]
    exact found
  · rintro found world1 ⟨before1, known⟩
    have rolledBack : Ends (do
        finishPendingDelete service network locals true replacement
        fail failure : RemoteM Bool) world1 (fun renamed world' =>
          renamed = true ∧ Before s d world')
        (fun _ => SafeWorld s d 3) :=
      (finishPendingDelete_rollback (before1.safe (by decide)) replacement).bind_mono
        (fun _ _ h => h.1)
        fun _ _ h => ends_throw h.1
    match found with
    | none => exact rolledBack
    | some (some hidden) => exact .ite (fun _ => ends_pure ⟨rfl, before1⟩) fun _ => rolledBack
    | some none =>
      have there := before1.shift.safe.there (known none rfl).symm
      exact (removeMarker_before locals before1 there).bind fun _ _ h =>
        ends_throw (h.safe (by decide))

def Understood (network : Network) : Prop :=
  Unacknowledged (network.fate .hide) 3 0 → (network.error .hide).renameUnsupported = false

section
variable {replacement : Text} (understood : Understood network) (ready : Ready s d world)
  (marked : world.marker = some (.rollback replacement)) (metadata : Object)
include understood ready marked metadata

lemma hideDestination_ends :
    Ends (hideDestination service network locals metadata replacement) world
      (fun _ => Before s d) (fun _ => SafeWorld s d 3) := by
  have shift := ready.before.shift
  rw [marked] at shift
  have kept {world' : World}
    (passed : Passed (Shifting s d 1 replacement .hide .destination) world world') :
      Before s d world' := by
    refine ⟨?_, passed.log ready.before.log⟩
    rw [passed.marker, marked]
    exact passed.store.1
  rw [hideDestination]
  refine bind (M := fun renamed world' => Before s d world' ∧
    (renamed = false → world'.objects .destination = some d)) ?_ ?_
  · refine Ends.handle (E := fun _ => Before s d)
      ((tryNativeRename_ends (I :=
        Shifting s d 1 replacement .hide .destination) network (by decide)
        .destination .hidden metadata.etag true
        (fun _ h => (h.renameObject service (by decide) (.inl ⟨rfl, rfl⟩) metadata.etag).1)
        ⟨shift, fun mem => absurd mem ready.fresh⟩).mono ?_ fun _ _ h => kept h)
      (fun _ h => h.safe (by decide)) ?_
    · rintro renamed world' ⟨passed, _, same⟩
      refine ⟨kept passed, fun unsupported => ?_⟩
      rw [same unsupported understood]
      exact ready.destination
    · intro failure world' before
      refine (identifyHidden_ends before metadata replacement failure).mono ?_ fun _ _ h => h
      rintro _ world' ⟨rfl, before⟩
      exact ⟨before, nofun⟩
  · rintro renamed world1 ⟨before, same⟩
    refine .ite (fun unsupported => ?_) fun _ =>
      .ite (fun _ => ends_throw (before.safe (by decide)))
      fun _ => ends_pure before
    rw [Bool.not_eq_true'] at unsupported
    have there : world1.objects .destination ≠ none := by
      rw [same unsupported]
      exact some_ne_none d
    exact (removeMarker_before locals before there).bind fun _ _ h => ends_pure h

lemma hideMarked_ends :
    Ends (hideMarked service network locals metadata replacement) world
      (fun _ => Before s d) (fun _ => SafeWorld s d 3) := by
  have removed := removeMarker_before locals ready.before ready.there
  rw [hideMarked]
  refine .ite (fun _ => removed.bind fun _ _ h => ends_throw (h.safe (by decide))) fun _ => ?_
  exact .ite (fun _ => removed.bind fun _ _ h => ends_pure h) fun _ =>
    hideDestination_ends understood ready marked metadata

end

lemma hideOpenReaders_ends (understood : Understood network) (ready : Ready s d world)
    (replacement : Text) :
    Ends (hideOpenReaders service network locals replacement) world
      (fun _ => Before s d) (fun _ => SafeWorld s d 3) := by
  rw [hideOpenReaders]
  refine .ite (fun _ => ends_pure ready.before) fun _ => ?_
  refine (head_ends network (by decide) .destination).bind_mono (fun _ _ passed =>
    (ready.before.passed passed).safe (by decide)) ?_
  rintro metadata world1 ⟨passed, _⟩
  have ready1 := ready.passed passed
  cases metadata with
  | none => exact ends_throw (ready1.before.safe (by decide))
  | some metadata =>
    refine bind (M := fun _ world' => world' = world1) rfl ?_
    rintro supported _ rfl
    refine .ite (fun _ => ends_pure ready1.before) fun _ => ?_
    refine (createPendingDelete_ends ready1 replacement).bind ?_
    rintro _ world2 ⟨ready2, marked⟩
    exact hideMarked_ends understood ready2 marked metadata

variable {task : Task}

lemma copyAndDelete_safe (size : s.body.length = task.size) (safe : SafeWorld s d 2 world)
    (log : NoDelete world.log) :
    Ends (copyAndDelete service network task) world
      (fun _ => Replaced s d 2)
      (fun _ => SafeWorld s d 2) := by
  have phase : CopyPhase (Safe s d 2 world.marker) true world.marker world :=
    ⟨safe, rfl, log, nofun⟩
  rw [copyAndDelete]
  refine (copyRemoteObject_ends network (Safe.invariant service size) size phase).bind_mono ?_ ?_
  · intro _ world' phase
    rw [SafeWorld, phase.marker]
    exact phase.store
  · intro _ world1 copied
    have kept {world' : World} (requested : Requested (fun store => Safe s d 2 world.marker store ∧
        HoldsCopy s store) .deleteSource world1 world') : Replaced s d 2 world' := by
      rw [Replaced, SafeWorld, requested.marker, copied.phase.marker]
      exact requested.store
    exact (deleteSource_requested (I := fun store =>
      Safe s d 2 world.marker store ∧ HoldsCopy s store)
      network task (fun _ h => Safe.delete (.inr rfl) h task.etag)
      ⟨copied.phase.store, copied.copy⟩).mono (fun _ _ => kept) fun _ _ h => (kept h).1

lemma renameRemoteObject_ends (size : s.body.length = task.size) (before : Before s d world) :
    Ends (renameRemoteObject service network task) world
      (fun _ => Replaced s d 2)
      (fun _ => SafeWorld s d 2) := by
  have fresh : .renameSource ∈ world.renamed → HoldsCopy s world.store :=
    fun mem => absurd (before.shift.safe.tokens _ mem) (Nat.lt_irrefl 1)
  have kept {world' : World} (passed : Passed (fun store => Safe s d 2 world.marker store ∧
      (.renameSource ∈ store.renamed → HoldsCopy s store)) world world') : SafeWorld s d 2 world' :=
    passed.safe fun _ h => h.1
  rw [renameRemoteObject]
  refine (tryNativeRename_ends (I := fun store => Safe s d 2 world.marker store ∧
      (.renameSource ∈ store.renamed →
        HoldsCopy s store)) network (by decide) .source .destination task.etag
    task.noReplace (fun _ h => (h.1.renameSource h.2 task.etag task.noReplace).1)
    ⟨before.safe (by decide), fresh⟩).bind_mono (fun _ _ h => kept h) ?_
  rintro accepted world1 ⟨passed, done, _⟩
  refine .ite (fun ok => ends_pure ⟨kept passed, ?_⟩) fun _ =>
    copyAndDelete_safe size (kept passed) (passed.log before.log)
  obtain ⟨store, kept, ok, ended⟩ := done ok
  rw [ended]
  exact (kept.1.renameSource kept.2 task.etag task.noReplace).2 ok

lemma renameSource_ends (size : s.body.length = task.size) (before : Before s d world)
    (hidden : Bool) :
    Ends (renameSource service network locals hidden task) world
      (fun _ => Replaced s d 2)
      (fun _ => SafeWorld s d 3) := by
  rw [renameSource]
  refine Ends.handle (E := fun _ => SafeWorld s d 2) (renameRemoteObject_ends size before)
    (fun _ h => h.mono (by decide)) fun failure world1 safe => ?_
  refine .ite (fun _ => ?_) fun _ => ends_throw (safe.mono (by decide))
  exact (finishPendingDelete_rollback safe task.etag).bind_mono (fun _ _ h => h.1)
    fun _ _ h => ends_throw h.1

lemma commitPendingDelete_ends (safe : SafeWorld s d stage world) (copy : HoldsCopy s world.store) :
    Ends (commitPendingDelete locals) world
      (fun _ => Replaced s d stage)
      (fun _ => SafeWorld s d stage) := by
  rw [commitPendingDelete]
  refine .ite (fun _ => ends_pure ⟨safe, copy⟩) fun _ => setMarker_ends (fun lives => ?_) safe
  exact ⟨Safe.remark safe copy.there fun _ => copy, copy⟩

lemma renameObjects_ends (understood : Understood network) (ready : Ready s d world)
    (noReplace : Bool) :
    Ends (renameObjects service network locals noReplace) world (fun _ => SafeWorld s d 3)
      (fun _ => SafeWorld s d 3) := by
  rw [renameObjects]
  refine (head_ends network (by decide) .source).bind_mono (fun _ _ passed =>
    (ready.before.passed passed).safe (by decide)) ?_
  rintro metadata world1 ⟨passed, found⟩
  have ready1 := ready.passed passed
  obtain rfl := found.trans ready.before.shift.source
  refine bind (M := fun _ => Before s d) ?_ ?_
  · rw [hideCached]
    exact .ite (fun _ => hideOpenReaders_ends understood ready1 s.etag) fun _ =>
      ends_pure ready1.before
  · intro hidden world2 before
    refine (renameSource_ends rfl before hidden).bind ?_
    rintro _ world3 ⟨safe, copy⟩
    refine .ite (fun _ => ?_) fun _ => ends_pure (safe.mono (by decide))
    refine (commitPendingDelete_ends safe copy).bind_mono (fun _ _ h => h.mono (by decide)) ?_
    rintro _ world4 ⟨safe, copy⟩
    refine .ite (fun _ => ?_) fun _ => ends_pure (safe.mono (by decide))
    exact (finishPendingDelete_committed (safe.mono (by decide)) copy s.etag).mono
      (fun _ _ h => h.1)
      fun _ _ h => h.1

lemma SafeWorld.restart (safe : SafeWorld s d stage world) (supported : Bool) (lives : Option Nat) :
    SafeWorld s d 0 (world.restart supported lives) := by
  exact { safe with placed := safe.placed.upload, tokens := nofun }

lemma recoverPendingDelete_ends (safe : SafeWorld s d 2 world) :
    Ends (recoverPendingDelete service network locals) world (fun _ => Unfinished s d 3 world)
      (fun _ => Unfinished s d 3 world) := by
  have run : (recoverPendingDelete service network locals).run world =
    recoverPendingDelete service network locals world := rfl
  have kept : Unfinished s d 3 world world := ⟨safe.mono (by decide), id⟩
  rw [recoverPendingDelete] at run
  rw [Ends, run]
  cases marked : world.marker with
  | none => exact kept
  | some marker =>
    cases marker with
    | creating => exact kept
    | rollback replacement => exact finishPendingDelete_rollback safe replacement
    | committed => exact finishPendingDelete_committed kept.1 (safe.committed marked) []

/-! ### A recovery that gets its answers -/

section
variable (alive : world.lives = none)
include alive

lemma head_answered (answered : Retry.Answered (network.fate call) 3 0) (key : Key) :
    Ends (head network call key) world
      (fun found world' => found = world.objects key ∧ world'.store = world.store ∧
        world'.lives = none ∧ world'.supported = world.supported)
      (fun _ _ => False) := by
  rw [head]
  refine bind (M := fun r world' => r.1 = .answer (headObject key world.store).1 ∧
    world'.store = world.store ∧ world'.lives = none ∧ world'.supported = world.supported)
    (.of_ok (run_request network call 3 (headObject key) alive)
      ⟨reply_of_answered (fun _ => rfl) rfl answered, retry_still (fun _ => rfl) fun _ _ _ _ => rfl,
        alive, rfl⟩) ?_
  rintro ⟨reply, _⟩ world' ⟨replied, kept⟩
  rw [headObject] at replied
  cases found : world.objects key with
  | none =>
    rw [found] at replied
    obtain rfl := replied
    exact ends_pure ⟨rfl, kept⟩
  | some object =>
    rw [found] at replied
    obtain rfl := replied
    exact ends_pure ⟨rfl, kept⟩

lemma restore_there (supported : world.supported = true) {hidden : Object}
    (stored : world.objects .hidden = some hidden)
    (absent : world.objects .destination = none) (fresh : world.renamed = []) {k}
    (le : k ≤ 3) (made : Made (network.fate .restore) 0 k)
    (processed : (network.fate .restore (0 + k)).processed = true) :
    Ends (restore service network locals hidden) world (fun _ => There) (fun _ => There) := by
  have serves :
    (renameObject service .restore .hidden .destination hidden.etag true world.store).2 =
      world.moved .restore .hidden .destination hidden := by
    simp [renameObject, matchedSource, occupied, stored, absent, fresh, Store.moved]
  have keeps : ∀ store : Store, store.objects .destination ≠ none →
      (renameObject service .restore .hidden .destination hidden.etag true store).2.objects
        .destination ≠ none := by
    intro store there
    obtain ⟨r, same, _⟩ | ⟨object, _, moved⟩ :=
      renameObject_cases service store .restore .hidden .destination hidden.etag true
    · rw [same]
      exact there
    · rw [moved]
      exact some_ne_none object
  have brought : (renameObject service .restore .hidden .destination hidden.etag true
      world.store).2.objects .destination ≠ none := by
    rw [serves]
    exact some_ne_none hidden
  rw [restore, tryNativeRename]
  refine bind (M := fun _ => There) ?_ fun accepted _ there =>
    .ite (fun _ => ends_throw there) fun _ => .ite (fun _ => ends_throw there) fun _ =>
      ends_pure there
  refine bind (M := fun known world' => known = true ∧ world' = world) ⟨supported, rfl⟩ ?_
  rintro _ _ ⟨rfl, rfl⟩
  refine bind (M := fun _ => There) (.of_ok (run_request network .restore 3 _ alive)
    (retry_processed (P := fun store : Store => store.objects .destination ≠ none) (fun _ => rfl)
      brought (fun _ _ h => h) keeps le made processed)) ?_
  rintro ⟨reply, _⟩ world' there
  refine .ite (fun _ => of_ok (t := { world' with supported := false }) rfl there) fun _ => ?_
  exact bind (M := fun _ => There) (requireSuccess_ends (fun _ _ => there) fun _ => there)
    fun _ _ there => ends_pure there

end

end

/-- What its requests meet, what it meets locally, whether it takes `RenameObject` for supported,
and how long it lives. -/
structure Mount where
  network : Network
  locals : Locals
  supported : Bool
  lives : Option Nat

/-- `cache_recovery_loop` of the next mount, for its marker. -/
def World.remount (service : Service) (world : World) (mount : Mount) : World :=
  ((recoverPendingDelete service mount.network mount.locals).run
    (world.restart mount.supported mount.lives)).2

structure Overwrites (s d : Object) (world : World) : Prop where
  source : world.objects .source = some s
  destination : world.objects .destination = some d
  hidden : world.objects .hidden = none
  upload : world.upload = none
  renamed : world.renamed = []
  deleted : world.deleted = []
  marker : world.marker = none
  log : world.log = []

/-- The recovery gets through: the process lives, both `HEAD` requests are answered, and an attempt
to restore the object is carried out. -/
structure Mount.Reaches (mount : Mount) : Prop where
  alive : mount.lives = none
  supported : mount.supported = true
  hidden : Retry.Answered (mount.network.fate .pendingHidden) 3 0
  visible : Retry.Answered (mount.network.fate .pendingVisible) 3 0
  restored : ∃ k ≤ 3, Made (mount.network.fate .restore) 0 k ∧
    (mount.network.fate .restore (0 + k)).processed = true

structure Guarded (s d : Object) (world : World) : Prop where
  source : world.objects .source = some s ∨ HoldsCopy s world.store
  marked : world.objects .destination = some d ∨ HoldsCopy s world.store ∨
    ∃ replacement, world.marker = some (.rollback replacement)
  deleted : ∀ old, (Key.hidden, old) ∈ world.deleted →
    ∃ object, old = some object ∧ object.body = s.body

/-- A destination that is away is marked and blocked. -/
structure Recoverable (s d : Object) (world : World) : Prop extends Guarded s d world where
  destination : world.objects .destination = some d ∨ HoldsCopy s world.store ∨
    .destination ∈ world.blocked

section
variable {service : Service} {s d : Object} {world : World}

lemma Overwrites.ready (overwrites : Overwrites s d world) : Ready s d world := by
  have placed : Placed s d world.store :=
    .intact overwrites.source overwrites.destination overwrites.hidden
  refine ⟨⟨⟨⟨placed, ?_, ?_, ?_, ?_, ?_⟩, overwrites.source,
    .inl ⟨overwrites.destination, overwrites.hidden⟩⟩, ?_⟩, overwrites.destination, ?_⟩
  · intro parts upload
    cases overwrites.upload.symm.trans upload
  · rw [overwrites.deleted]
    exact nofun
  · intro absent
    cases overwrites.destination.symm.trans absent
  · intro committed
    cases overwrites.marker.symm.trans committed
  · rw [overwrites.renamed]
    exact nofun
  · rw [overwrites.log]
    exact nofun
  · rw [overwrites.renamed]
    exact List.not_mem_nil

lemma rollBack_there {mount : Mount} (reaches : mount.Reaches) (alive : world.lives = none)
    (supported : world.supported = true) {hidden : Object}
    (stored : world.objects .hidden = some hidden)
    (absent : world.objects .destination = none) (fresh : world.renamed = [])
    (replacement : Text) :
    Ends (rollBack service mount.network mount.locals replacement) world (fun _ => There)
      (fun _ => There) := by
  rw [rollBack]
  refine (head_answered alive reaches.hidden .hidden).bind_mono (fun _ _ h => h.elim) ?_
  rintro _ world1 ⟨rfl, same1, alive1, supported1⟩
  rw [stored]
  refine (head_answered alive1 reaches.visible .destination).bind_mono (fun _ _ h => h.elim) ?_
  rintro _ world2 ⟨rfl, same2, alive2, supported2⟩
  have same := same2.trans same1
  rw [same1, absent]
  obtain ⟨k, le, made, processed⟩ := reaches.restored
  refine restore_there alive2
    (supported2.trans (supported1.trans supported)) ?_ ?_ ?_ le made processed
  · rw [same, stored]
  · rw [same, absent]
  · rw [same, fresh]

lemma SafeWorld.fresh (safe : SafeWorld s d 3 world) (mount : Mount) :
    SafeWorld s d 2 (world.restart mount.supported mount.lives) :=
  (safe.restart mount.supported mount.lives).mono (Nat.zero_le 2)

lemma SafeWorld.remount (service : Service) (safe : SafeWorld s d 3 world) (mount : Mount) :
    SafeWorld s d 3 (world.remount service mount) :=
  (recoverPendingDelete_ends (safe.fresh mount)).final.1

lemma SafeWorld.remount_there (service : Service) (safe : SafeWorld s d 3 world) {mount : Mount}
    (reaches : mount.Reaches) : There (world.remount service mount) := by
  have fresh := safe.fresh mount
  by_cases there : There (world.restart mount.supported mount.lives)
  · exact (recoverPendingDelete_ends fresh).final.2 there
  · -- the destination is away: the marker names it, and the recovery moves it back
    have absent := not_not.1 there
    obtain ⟨replacement, marked⟩ := fresh.guarded absent
    obtain ⟨destination, _⟩ | ⟨_, stored⟩ := (fresh.hiding absent Nat.le.refl).position
    · cases destination.symm.trans absent
    have run : (recoverPendingDelete service mount.network mount.locals).run
        (world.restart mount.supported mount.lives) = (finishPendingDelete service mount.network
          mount.locals true replacement).run (world.restart mount.supported mount.lives) := by
      show recoverPendingDelete service mount.network mount.locals _ = _
      rw [recoverPendingDelete, marked]
    rw [World.remount, run]
    refine (settle_ends (G := There) ?_ (fun _ h => h) fun _ _ h => h).final
    exact rollBack_there reaches reaches.alive reaches.supported stored absent rfl replacement

lemma SafeWorld.recoverable {stage} (safe : SafeWorld s d stage world) (there : There world) :
    Recoverable s d world := by
  refine ⟨⟨safe.stored, safe.destination, safe.deleted⟩, ?_⟩
  cases safe.placed with
  | intact _ destination _ => exact .inl destination
  | away _ destination _ => exact absurd destination there
  | replaced _ copy _ => exact .inr (.inl copy)

end

/-- Wherever an overwriting rename dies, and whatever is lost or fails in it and in the mounts after
it: the content of the source is stored, the destination has its old content or that of the source
unless the marker is there to bring it back, and the hidden object has gone only while the
replacement was in place. After a recovery that gets through, the destination is there. -/
theorem overwrite_recovers (service : Service) (network : Network) (understood : Understood network)
    (locals : Locals) (noReplace : Bool) (s d : Object) (world : World)
    (overwrites : Overwrites s d world) (mounts : List Mount) :
    let crashed := mounts.foldl (World.remount service)
      ((overwrite service network locals noReplace).run world).2
    Guarded s d crashed ∧
      ∀ last : Mount, last.Reaches → Recoverable s d (crashed.remount service last) := by
  have started : Overwrites s d { world with blocked := [.source, .destination] } :=
    { overwrites with }
  have safe : SafeWorld s d 3 ((overwrite service network locals noReplace).run world).2 :=
    (renameObjects_ends understood started.ready noReplace).final
  generalize ((overwrite service network locals noReplace).run world).2 = crashed at safe
  induction mounts generalizing crashed with
  | nil =>
    refine ⟨⟨safe.stored, safe.destination, safe.deleted⟩, fun last reaches => ?_⟩
    exact (safe.remount service last).recoverable (safe.remount_there service reaches)
  | cons mount mounts ih => exact ih _ (safe.remount service mount)

def newObject : Object := ⟨[1], [7]⟩

def oldObject : Object := ⟨[2], [8]⟩

/-- The process lives for some attempts and changes of the marker. -/
def bothObjects (lives : Option Nat) : World where
  store :=
    { objects := fun key =>
        match key with
        | .source => some newObject
        | .destination => some oldObject
        | .hidden => none
      upload := none
      serial := 0
      renamed := []
      deleted := [] }
  marker := none
  supported := true
  lives := lives
  log := []

def openReaders : Locals where
  destinationCached := true
  readers := true
  keyTooLong := false
  createFails := false
  lockFails := false
  readersGone := false
  registryChanged := false
  commitFails := false
  stillOpen := false
  restoreRegistryChanged := false
  unlinkFails := false

def hideUnanswered (status : Nat) : Network where
  fate
    | .hide, 0 => .lost true
    | .hide, _ => .refused
    | _, _ => .answered
  error _ := ⟨status, none⟩

def calmMount : Mount := ⟨hideUnanswered 500, openReaders, true, none⟩

lemma bothObjects_overwrites (lives : Option Nat) :
    Overwrites newObject oldObject (bothObjects lives) :=
  ⟨rfl, rfl, rfl, rfl, rfl, rfl, rfl, rfl⟩

lemma calmMount_reaches : calmMount.Reaches :=
  ⟨rfl, rfl, ⟨0, by decide, made_zero, rfl⟩, ⟨0, by decide, made_zero, rfl⟩, 0, by decide,
    made_zero, rfl⟩

theorem overwrite_recovers_server_error :
    Recoverable newObject oldObject (World.remount plainService
      ((overwrite plainService (hideUnanswered 500) openReaders false).run (bothObjects (some 7))).2
      calmMount) :=
  (overwrite_recovers plainService (hideUnanswered 500) (fun _ => rfl) openReaders false newObject
    oldObject (bothObjects (some 7)) (bothObjects_overwrites (some 7)) []).2 calmMount
    calmMount_reaches

def cutOff : Mount := ⟨⟨fun _ _ => .lost false, fun _ => ⟨500, none⟩⟩, openReaders, true, none⟩

/-- The destination is hidden without an answer. If the repetition is answered with 501, the marker
is removed; the process dies, and the next mount brings nothing back. If the process dies at once
and the next mount gets no answer, the marker stays and the destination is away, but nothing blocks
its key. -/
theorem overwrite_loses_destination : (∀ n, Overwrites newObject oldObject (bothObjects n)) ∧
    calmMount.Reaches ∧ Understood (hideUnanswered 500) ∧
    ¬ Recoverable newObject oldObject (World.remount plainService
      ((overwrite plainService (hideUnanswered 501) openReaders false).run (bothObjects (some 7))).2
      calmMount) ∧
    ¬ Recoverable newObject oldObject (World.remount plainService
      ((overwrite plainService (hideUnanswered 500) openReaders false).run (bothObjects (some 5))).2
      cutOff) := by
  have lost {world : World} (absent : world.objects .destination = none)
      (free : world.blocked = []) : ¬ Recoverable newObject oldObject world := by
    intro recoverable
    obtain destination | copy | blocked := recoverable.destination
    · cases destination.symm.trans absent
    · exact copy.there absent
    · rw [free] at blocked
      cases blocked
  exact ⟨bothObjects_overwrites, calmMount_reaches, fun _ => rfl, lost rfl rfl, lost rfl rfl⟩

end Ngs3fs.Rename
