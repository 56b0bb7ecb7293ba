import Ngs3fs.Lib.Program
import Ngs3fs.Lib.Retry
import Ngs3fs.Persist.Marker

/-!
# The S3 service, for the keys of a rename

Three keys take part in a rename: the source, the destination, and the hidden key to which an open
destination is moved. The service is modelled from its documented behaviour: `RenameObject` moves
an object atomically and keeps its ETag, `CopyObject` and `UploadPartCopy` compare the ETag of the
source, and a conditional request that does not meet its condition changes nothing. No other client
touches these keys. A request is sent until an attempt settles it. The process may die before any
attempt and before any change of the pending-delete marker (`lives`); what the service has carried
out by then stays. -/

namespace Ngs3fs.Rename
open Persist Retry Program

inductive Key where
  | source
  | destination
  | hidden
  deriving DecidableEq

structure Object where
  etag : Text
  body : List UInt8
  deriving DecidableEq

inductive Call where
  | headSource
  | headDestination
  | hide
  | headHidden
  | renameSource
  | copy
  | putEmpty
  | create
  | part (number : Nat)
  | complete
  | abort
  | deleteSource
  | pendingHidden
  | pendingVisible
  | restore
  | deleteHidden
  deriving DecidableEq

/-- `upload` is the multipart copy in progress, `renamed` are the renames carried out, by their
tokens. `deleted` is a ghost: the key of each deleted object, with what the destination held. -/
structure Store where
  objects : Key → Option Object
  upload : Option (Nat → Option (Text × List UInt8))
  serial : Nat
  renamed : List Call
  deleted : List (Key × Option Object)

/-- The identifiers it hands out, whether it knows the token of a repeated rename, and the status of
a `DELETE` of a missing object, with a condition and without. -/
structure Service where
  etag : Nat → Text
  partEtag : Nat → Text
  remembersTokens : Bool
  deleteMissing : Bool → Nat
  etag_ne_nil : ∀ n, etag n ≠ []

variable (service : Service)

namespace Store

def put (key : Key) (object : Option Object) (store : Store) : Store :=
  { store with objects := Function.update store.objects key object }

def create (key : Key) (body : List UInt8) (store : Store) : Store :=
  { store.put key (some ⟨service.etag store.serial, body⟩) with serial := store.serial + 1 }

end Store

def matchedSource (key : Key) (etag : Text) (store : Store) : Except Nat Object :=
  match store.objects key with
  | none => .error 404
  | some object => if etag ≠ [] ∧ object.etag ≠ etag then .error 412 else .ok object

/-- `If-None-Match: *` on the destination. -/
def occupied (noReplace : Bool) (key : Key) (store : Store) : Bool :=
  noReplace && (store.objects key).isSome

def headObject (key : Key) (store : Store) : Except Nat Object × Store :=
  (match store.objects key with
    | none => .error 404
    | some object => .ok object, store)

/-- The place it is sent from stands for its token. -/
def renameObject (token : Call) (src dst : Key) (etag : Text) (noReplace : Bool) (store : Store) :
    Except Nat Unit × Store :=
  if service.remembersTokens ∧ token ∈ store.renamed then (.ok (), store)
  else
    match matchedSource src etag store with
    | .error status => (.error status, store)
    | .ok object =>
      if occupied noReplace dst store then (.error 412, store)
      else
        (.ok (), { (store.put src none).put dst (some object) with
          renamed := token :: store.renamed })

def copyObject (etag : Text) (noReplace : Bool) (store : Store) : Except Nat Text × Store :=
  match matchedSource .source etag store with
  | .error status => (.error status, store)
  | .ok object =>
    if occupied noReplace .destination store then (.error 412, store)
    else (.ok (service.etag store.serial), store.create service .destination object.body)

/-- `put_empty_object`. -/
def putEmptyObject (noReplace : Bool) (store : Store) : Except Nat Unit × Store :=
  if occupied noReplace .destination store then (.error 412, store)
  else (.ok (), store.create service .destination [])

/-- `CreateMultipartUpload`. -/
def createUpload (store : Store) : Except Nat Unit × Store :=
  (.ok (), { store with upload := some fun _ => none })

def uploadPartCopy (number first last : Nat) (etag : Text) (store : Store) :
    Except Nat Text × Store :=
  match store.upload with
  | none => (.error 404, store)
  | some parts =>
    match matchedSource .source etag store with
    | .error status => (.error status, store)
    | .ok object =>
      if object.body.length ≤ last then (.error 416, store)
      else
        let partEtag := service.partEtag store.serial
        let bytes := (object.body.drop first).take (last + 1 - first)
        (.ok partEtag, { store with
          upload := some (Function.update parts number (some (partEtag, bytes)))
          serial := store.serial + 1 })

/-- From a number on; none if a part is not the one uploaded. -/
def assemble (parts : Nat → Option (Text × List UInt8)) : Nat → List Text → Option (List UInt8)
  | _, [] => some []
  | number, etag :: etags =>
    match parts number with
    | none => none
    | some (partEtag, bytes) =>
      if partEtag = etag then (bytes ++ ·) <$> assemble parts (number + 1) etags else none

/-- The upload is gone afterwards. -/
def completeUpload (etags : List Text) (noReplace : Bool) (store : Store) :
    Except Nat Unit × Store :=
  match store.upload with
  | none => (.error 404, store)
  | some parts =>
    match assemble parts 1 etags with
    | none => (.error 400, store)
    | some body =>
      if occupied noReplace .destination store then (.error 412, store)
      else (.ok (), { store.create service .destination body with upload := none })

/-- `AbortMultipartUpload`. -/
def abortUpload (store : Store) : Except Nat Unit × Store := (.ok (), { store with upload := none })

/-- `delete_object`. -/
def deleteObject (key : Key) (etag : Text) (store : Store) : Except Nat Unit × Store :=
  match store.objects key with
  | none => (.error (service.deleteMissing (etag ≠ [])), store)
  | some object =>
    if etag ≠ [] ∧ object.etag ≠ etag then (.error 412, store)
    else
      (.ok (), { store.put key none with
        deleted := (key, store.objects .destination) :: store.deleted })

inductive ErrorCode where
  | notImplemented
  | invalidRequest
  | other
  deriving DecidableEq

structure ErrorResponse where
  status : Nat
  code : Option ErrorCode
  deriving DecidableEq

/-- `rename_object_unsupported`. -/
def ErrorResponse.renameUnsupported (response : ErrorResponse) : Bool :=
  response.status = 405 || response.status = 501 ||
    (response.status = 400 && response.code ≠ some .other)

/-- `marker_copy_unsupported`, apart from the key. -/
def ErrorResponse.copyUnsupported (response : ErrorResponse) : Bool :=
  response.status = 400 || response.status = 405 || response.status = 501

/-- With the error response to an attempt that is turned down or asks to try again. A missing object
and a condition that is not met are not among these: the service answers them. -/
structure Network where
  fate : Call → Nat → Fate
  error : Call → ErrorResponse

/-- Being written, to be rolled back unless the replacement with an ETag is in place, or committed.
-/
inductive Marker where
  | creating
  | rollback (replacement : Text)
  | committed
  deriving DecidableEq

inductive Sent where
  | sent (call : Call) (store : Store)
  | confirmed (call : Call)

/-- Whether `RenameObject` is supported as far as is known (`rename_object_support`), how many more
attempts and changes of the marker the process lives to make, the log, last first, and the keys that
no call may open or change (`blocked_paths` and `recovery_paths`). -/
structure World extends store : Store where
  marker : Option Marker
  supported : Bool
  lives : Option Nat
  log : List Sent
  blocked : List Key := []

inductive Failure where
  | transport
  | busy
  | status (code : Nat)
  | outcomeUnknown
  | tooManyParts
  | omittedEtag
  | notFound
  | unsupported
  | ambiguousTarget
  | localError
  deriving DecidableEq

inductive Stop where
  | crash
  | failed (failure : Failure)
  deriving DecidableEq

abbrev RemoteM := ExceptT Stop (StateM World)

def fail {α : Type} (failure : Failure) : RemoteM α := throw (.failed failure)

/-- The death of the process is not caught. -/
def handle {α : Type} (m : RemoteM α) (f : Failure → RemoteM α) : RemoteM α :=
  tryCatch m fun stop =>
    match stop with
    | .crash => throw .crash
    | .failed failure => f failure

def effect (f : World → World) : RemoteM Unit := fun world =>
  match world.lives with
  | none => (.ok (), f world)
  | some 0 => (.error .crash, world)
  | some (n + 1) => (.ok (), f { world with lives := some n })

variable (network : Network)

def succeeded {α : Type} : Reply (Except Nat α) → Bool
  | .answer (.ok _) => true
  | _ => false

def rejected {α : Type} : Reply (Except Nat α) → Bool
  | .refused | .busy => true
  | _ => false

def World.answered {α : Type} (call : Call) (outcome : Outcome Store (Except Nat α))
    (world : World) :
    World :=
  { world with
    store := outcome.state
    log := if succeeded outcome.reply then .confirmed call :: world.log else world.log }

/-- `request_with_retries`; `left` further attempts may follow the first. -/
def request {α : Type} (call : Call) (left : Nat) (serve : Store → Except Nat α × Store) :
    RemoteM (Reply (Except Nat α) × Bool) := fun world =>
  let outcome := retry serve (fun _ store => store) (network.fate call) left 0 false world.store
  let sent := { world with log := .sent call world.store :: world.log }
  match world.lives with
  | none => (.ok (outcome.reply, outcome.ambiguous), sent.answered call outcome)
  | some 0 => (.error .crash, world)
  | some (n + 1) =>
    let made := count (network.fate call) left 0
    if made ≤ n + 1 then
      (.ok (outcome.reply, outcome.ambiguous),
        { sent.answered call outcome with lives := some (n + 1 - made) })
    else
      (.error .crash, { sent with
        store := partway serve (fun _ store => store) (network.fate call) (n + 1) world.store
        lives := some 0 })

def requireSuccess {α : Type} (call : Call) : Reply (Except Nat α) → RemoteM α
  | .answer (.ok response) => pure response
  | .answer (.error status) => fail (.status status)
  | .lost => fail .transport
  | .busy => fail .busy
  | .refused => fail (.status (network.error call).status)

/-- `head_object`, with a missing object as a result. -/
def head (call : Call) (key : Key) : RemoteM (Option Object) := do
  let (reply, _) ← request network call 3 (headObject key)
  match reply with
  | .answer (.error 404) => pure none
  | reply => some <$> requireSuccess network call reply

/-! ### Rules -/

section
variable {network : Network} {world : World}

structure Requested (I : Store → Prop) (call : Call) (world world' : World) : Prop where
  store : I world'.store
  marker : world'.marker = world.marker
  supported : world'.supported = world.supported
  log : world'.log = world.log ∨ world'.log = .sent call world.store :: world.log ∨
    world'.log = .confirmed call :: .sent call world.store :: world.log
  alive : world.lives = none → world'.lives = none

/-- Nothing happens after the answer. -/
structure Answered {α : Type} (I : Store → Prop) (call : Call)
    (serve : Store → Except Nat α × Store)
    (reply : Reply (Except Nat α)) (world' : World) : Prop where
  served : ∀ answer, reply = .answer answer →
    ∃ store, I store ∧ answer = (serve store).1 ∧ world'.store = (serve store).2
  confirmed : ∀ response, reply = .answer (.ok response) → .confirmed call ∈ world'.log

def Retried {α : Type} (network : Network) (call : Call) (left : Nat)
    (serve : Store → Except Nat α × Store) (reply : Reply (Except Nat α))
    (world world' : World) : Prop :=
  let outcome := retry serve (fun _ store => store) (network.fate call) left 0 false world.store
  reply = outcome.reply ∧ world'.store = outcome.state

lemma request_ends {α I} (call : Call) (left : Nat) {serve : Store → Except Nat α × Store}
    (closed : ∀ store, I store → I (serve store).2) (h : I world.store) :
    Ends (request network call left serve) world
      (fun r world' => Requested I call world world' ∧ Answered I call serve r.1 world' ∧
        Retried network call left serve r.1 world world')
      (fun stop world' => stop = .crash ∧ Requested I call world world') := by
  have run : (request network call left serve).run world =
    request network call left serve world := rfl
  have kept (left : Nat) :
      I (retry serve (fun _ store => store) (network.fate call) left 0 false world.store).state :=
    retry_inv (fun _ _ h => h) closed h
  have ended (lives : Option Nat) (alive : world.lives = none → lives = none) :
      let outcome := retry serve (fun _ store => store) (network.fate call) left 0 false world.store
      let world' := { World.answered call outcome
        { world with log := .sent call world.store :: world.log } with lives := lives }
      Requested I call world world' ∧ Answered I call serve outcome.reply world' ∧
        Retried network call left serve outcome.reply world world' := by
    refine ⟨⟨kept left, rfl, rfl, ?_, alive⟩, ⟨?_, ?_⟩, rfl, rfl⟩
    · show (if _ then _ else _) = _ ∨ (if _ then _ else _) = _ ∨ (if _ then _ else _) = _
      split
      · exact .inr (.inr rfl)
      · exact .inr (.inl rfl)
    · intro answer reply
      exact (reply_served (fun _ _ h => h) closed h reply).2
    · intro response reply
      show _ ∈ if succeeded _ then _ else _
      rw [reply]
      exact List.mem_cons_self
  rw [request] at run
  cases lives : world.lives with
  | none =>
    rw [lives] at run
    exact .of_ok run (ended none fun _ => rfl)
  | some n =>
    have mortal : ∀ lives' : Option Nat, world.lives = none → lives' = none := by
      intro lives' alive
      cases alive.symm.trans lives
    rw [lives] at run
    cases n with
    | zero => exact .of_error run ⟨rfl, h, rfl, rfl, .inl rfl, mortal _⟩
    | succ n =>
      dsimp only at run
      by_cases made : count (network.fate call) left 0 ≤ n + 1
      · rw [if_pos made] at run
        exact .of_ok run (ended _ (mortal _))
      · rw [if_neg made] at run
        exact .of_error run ⟨rfl, kept n, rfl, rfl, .inr (.inl rfl), mortal _⟩

lemma run_request (network : Network) {α : Type} (call : Call) (left : Nat)
    (serve : Store → Except Nat α × Store) (alive : world.lives = none) :
    let outcome := retry serve (fun _ store => store) (network.fate call) left 0 false world.store
    (request network call left serve).run world = (.ok (outcome.reply, outcome.ambiguous),
      World.answered call outcome { world with log := .sent call world.store :: world.log }) := by
  show request network call left serve world = _
  rw [request, alive]

lemma Ends.handle {α} {m : RemoteM α} {f G} {E E'} (hm : Ends m world G E)
    (crash : ∀ world, E .crash world → E' .crash world)
    (hf : ∀ failure world, E (.failed failure) world → Ends (f failure) world G E') :
    Ends (Rename.handle m f) world G E' := by
  refine Ends.tryCatch hm ?_
  intro stop world h
  cases stop with
  | crash => exact ends_throw (crash world h)
  | failed failure => exact hf failure world h

lemma requireSuccess_ends {α call reply} {G : α → World → Prop} {E}
    (ok : ∀ response, reply = .answer (.ok response) → G response world)
    (failed : ∀ failure, E (.failed failure) world) :
    Ends (requireSuccess network call reply) world G E := by
  rw [requireSuccess.eq_def]
  split
  · exact ends_pure (ok _ rfl)
  all_goals exact ends_throw (failed _)

end

end Ngs3fs.Rename
