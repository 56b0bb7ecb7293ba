import Ngs3fs.Recovery.Server

/-!
# Recovery of a cached write

`recover_cached_write` and `OwnerCacheRecovery` with the functions they call. A `throw` is an error
of the program, and what was sent before it stays sent. The service is asked for the right
checksums and returns them, requests are not cancelled, and the parts the reactor keeps in flight
together are sent one after the other. -/

namespace Ngs3fs.Recovery
open Persist Retry

structure World extends server : Server where
  writer : Writer

inductive Failure where
  | transport
  | busy
  | refused
  | status (code : Nat)
  | outcomeUnknown
  | destinationExists
  | conflict
  | invalidParts
  | emptyMultipart
  | excessParts
  | wrongSize
  | uploadIdTooLong
  | identityRejected
  deriving DecidableEq

abbrev Recover := ExceptT Failure (StateM World)

structure OpenHandle where
  etag : Text
  versionId : Text
  uploadId : Text
  writeId : Text
  streamOffset : Nat
  createExclusive : Bool
  deriving DecidableEq

/-- There is nothing in it that says how the file was created. -/
def recoveredHandle (header : CacheMetaHeader) : OpenHandle where
  etag := header.etag.take header.etagLength
  versionId := header.versionId.take header.versionLength
  uploadId := header.uploadId.take header.uploadIdLength
  writeId := header.writeId.take header.writeIdLength
  streamOffset := header.writtenEnd
  createExclusive := false

def OpenHandle.precondition (handle : OpenHandle) : Precondition :=
  if handle.etag ≠ [] then .ifMatch handle.etag
  else if handle.createExclusive then .ifNoneMatch
  else .unconditional

variable (service : Service) (network : Network) (c : WriterKey)

/-- `left` further attempts may follow the first (`request_with_retries` makes four). -/
def request {α : Type} (call : Call) (left : Nat) (serve : Server → Except Nat α × Server) :
    Recover (Reply (Except Nat α) × Bool) := fun world =>
  let outcome :=
    retry serve (network.before service call) (network.fate call) left 0 false world.server
  (.ok (outcome.reply, outcome.ambiguous), { world with server := outcome.state })

/-- An error of the transport is thrown as well. -/
def requireSuccess {α : Type} : Reply (Except Nat α) → Recover α
  | .answer (.ok response) => pure response
  | .answer (.error status) => throw (.status status)
  | .lost => throw .transport
  | .busy => throw .busy
  | .refused => throw .refused

/-- `head_object`. -/
def head (call : Call) : Recover Object := do
  let (reply, _) ← request service network call 3 headObject
  requireSuccess reply

def OpenHandle.identifies (handle : OpenHandle) (object : Object) : Bool :=
  !(object.size ≠ handle.streamOffset || handle.writeId ≠ [] && object.writeId ≠ handle.writeId ||
    handle.writeId = [] && handle.etag ≠ [] && object.etag = handle.etag)

/-- `recover_write_commit`. -/
def recoverWriteCommit (call : Call) (handle : OpenHandle) : Recover (Option Object) :=
  tryCatch (do
    let object ← head service network call
    pure (if handle.identifies object then some object else none)) fun _ => pure none

def identified (call : Call) (handle : OpenHandle) : Recover Object := do
  match ← recoverWriteCommit service network call handle with
  | some object => pure object
  | none => throw .outcomeUnknown

def hasStatus {α : Type} (status : Nat) : Reply (Except Nat α) → Bool
  | .answer (.error code) => code == status
  | _ => false

/-- `put_cached_object` once its request has ended. An error while the outcome is ambiguous leads to
another look. -/
def putReply (handle : OpenHandle) (reply : Reply (Except Nat Object)) (ambiguous : Bool) :
    Recover Object :=
  tryCatch
    (if ambiguous && hasStatus 412 reply then
      identified service network .identify handle
    else if hasStatus 412 reply && handle.createExclusive then
      throw .destinationExists
    else requireSuccess reply)
    fun error => if ambiguous then identified service network .identifyAgain handle else throw error

/-- `put_cached_object`. -/
def putCachedObject (handle : OpenHandle) : Recover Object := do
  let (reply, ambiguous) ← request service network .put 3
    (putObject service handle.writeId handle.streamOffset handle.precondition)
  putReply service network handle reply ambiguous

def succeeded {α : Type} : Reply (Except Nat α) → Bool
  | .answer (.ok _) => true
  | _ => false

/-- `complete_multipart` once its request has ended. -/
def completeReply (handle : OpenHandle) (reply : Reply (Except Nat Object)) (ambiguous : Bool) :
    Recover Unit := do
  if ambiguous && !succeeded reply then
    let _ ← identified service network .identify handle
  else if hasStatus 409 reply then throw .conflict
  else if hasStatus 412 reply && handle.createExclusive then throw .destinationExists
  else
    let _ ← requireSuccess reply
    -- `update_written_metadata`
    if !service.lastModified then
      let _ ← head service network .written

/-- `complete_multipart`. -/
def completeMultipart (handle : OpenHandle) (etags : List Text) : Recover Unit := do
  let (reply, ambiguous) ← request service network .complete 3
    (completeMultipartUpload service handle.uploadId etags handle.precondition)
  completeReply service network handle reply ambiguous

def partCount (size : Nat) : Nat := (size - 1) / c.config.uploadPartSize + 1

def partLength (size i : Nat) : Nat :=
  min c.config.uploadPartSize (size - i * c.config.uploadPartSize)

def acceptPart (size : Nat) (etags : List Text) (part : Part) : Recover (List Text) :=
  if etags.length < part.number then throw .excessParts
  else if part.size ≠ partLength c size (part.number - 1) ∨ part.etag = [] then throw .invalidParts
  else pure (etags.set (part.number - 1) part.etag)

def orderedAfter : Nat → List Part → Bool
  | _, [] => true
  | last, part :: parts =>
    decide (last < part.number ∧ part.number ≤ kMaximumMultipartParts) &&
      orderedAfter part.number parts

def nextMarker (marker : Nat) : Option Nat → Recover (Option Nat)
  | none => pure none
  | some next =>
    if next ≤ marker ∨ kMaximumMultipartParts < next then throw .invalidParts else pure (some next)

/-- The marker grows with every page and is at most `kMaximumMultipartParts`, which bounds the
number of pages. -/
def listCachedParts (handle : OpenHandle) : (pages marker : Nat) → Recover (List Part)
  | 0, _ => throw .invalidParts
  | pages + 1, marker => do
    let (reply, _) ← request service network (.list marker) 3 (listParts handle.uploadId marker)
    let (parts, next) ← requireSuccess reply
    if !orderedAfter marker parts then throw .invalidParts
    else
      match ← nextMarker marker next with
      | none => pure parts
      | some next =>
        let rest ← listCachedParts handle pages next
        pure (parts ++ rest)

def acceptParts (size : Nat) : List Part → List Text → Recover (List Text)
  | [], etags => pure etags
  | part :: parts, etags => do
    let etags ← acceptPart c size etags part
    acceptParts size parts etags

/-- `set_upload_id` of the entry. -/
def persistUploadId (id : Text) : Recover Unit := fun world =>
  if kCacheUploadIdCapacity < id.length then (.error .uploadIdTooLong, world)
  else (.ok (), { world with writer := Crash.complete (setUploadId c id) world.writer })

lemma run_persistUploadId (id : Text) (world : World) : (persistUploadId c id).run world =
      if kCacheUploadIdCapacity < id.length then (.error .uploadIdTooLong, world)
      else (.ok (), { world with writer := Crash.complete (setUploadId c id) world.writer }) := rfl

/-- Its request is not sent again. -/
def ensureMultipart (handle : OpenHandle) : Recover OpenHandle :=
  if handle.uploadId ≠ [] then pure handle
  else do
    let (reply, _) ← request service network .create 0 (createMultipart service handle.writeId)
    let id ← requireSuccess reply
    persistUploadId c id
    pure { handle with uploadId := id }

/-- `upload_cached_part`, `AsyncPartUpload`. -/
def uploadMissing (handle : OpenHandle) : List Nat → List Text → Recover (List Text)
  | [], etags => pure etags
  | i :: rest, etags =>
    if etags.getD i [] = [] then do
      let (reply, _) ← request service network (.part (i + 1)) 3
        (uploadPart service handle.uploadId (i + 1) (partLength c handle.streamOffset i))
      let etag ← requireSuccess reply
      if etag = [] then throw .invalidParts
      else uploadMissing handle rest (etags.set i etag)
    else uploadMissing handle rest etags

/-- `commit_write` of the entry. -/
def commitEntry (identity : CacheIdentity) : Recover Unit := fun world =>
  if world.writer.commits c identity then
    (.ok (),
      { world with writer := Crash.complete (commitWrite c world.writer identity) world.writer })
  else (.error .identityRejected, world)

lemma run_commitEntry (identity : CacheIdentity) (world : World) :
    (commitEntry c identity).run world =
      if world.writer.commits c identity then
        (.ok (), { world with
          writer := Crash.complete (commitWrite c world.writer identity) world.writer })
      else (.error .identityRejected, world) := rfl

def Object.identity (object : Object) : CacheIdentity :=
  ⟨c.key, object.etag, object.versionId, object.size, object.mtime⟩

def recoverMultipart (handle : OpenHandle) : Recover Unit := do
  let handle ← ensureMultipart service network c handle
  let remote ← listCachedParts service network handle (kMaximumMultipartParts + 1) 0
  -- without data the number of parts wraps around, and there is no memory for so many
  if handle.streamOffset = 0 then throw .emptyMultipart
  else
    let count := partCount c handle.streamOffset
    let etags ← acceptParts c handle.streamOffset remote (List.replicate count [])
    let etags ← uploadMissing service network c handle (List.range count) etags
    completeMultipart service network handle etags

def OpenHandle.single (handle : OpenHandle) : Bool :=
  decide (handle.streamOffset ≤ c.config.uploadPartSize) && handle.uploadId.isEmpty

/-- `recover_cached_write` after the commit. -/
def commitRecovered (handle : OpenHandle) : Recover Unit := do
  let object ← head service network .head
  if object.size ≠ handle.streamOffset then throw .wrongSize
  else commitEntry c (object.identity c)

/-- `recover_cached_write`. -/
def recoverCachedWrite (handle : OpenHandle) : Recover Unit := do
  if handle.single c then
    let _ ← putCachedObject service network handle
  else recoverMultipart service network c handle
  commitRecovered service network c handle

/-- `AsyncFlushRequest::headed` after a commit whose outcome is unknown. -/
def headRecovering (handle : OpenHandle) : Recover Unit := do
  let object ← head service network .identify
  if handle.identifies object then
    commitEntry c { object.identity c with size := handle.streamOffset }
  else throw .outcomeUnknown

/-- `AsyncFlushRequest::headed` after a commit that answered without `Last-Modified`. -/
def headCommitted (handle : OpenHandle) (committed : Object) : Recover Unit := do
  let metadata ← head service network .written
  if metadata.size ≠ handle.streamOffset then throw .outcomeUnknown
  else
    let versionId := if committed.versionId = [] then metadata.versionId else committed.versionId
    commitEntry c ⟨c.key, committed.etag, versionId, handle.streamOffset, metadata.mtime⟩

/-- `AsyncFlushRequest::received` once no attempt is left to make. -/
def flushReply (handle : OpenHandle) (multipart : Bool) (reply : Reply (Except Nat Object))
    (ambiguous : Bool) : Recover Unit := do
  if ambiguous && !succeeded reply then headRecovering service network c handle
  else if hasStatus 412 reply && handle.createExclusive then throw .destinationExists
  else if hasStatus 409 reply && multipart then throw .conflict
  else
    let committed ← requireSuccess reply
    if service.lastModified then
      commitEntry c { committed.identity c with size := handle.streamOffset }
    else headCommitted service network c handle committed

/-- `AsyncFlushRequest::send` and `received`, for either kind of commit. -/
def flushCommit (handle : OpenHandle) (multipart : Bool) (call : Call)
    (commit : Server → Except Nat Object × Server) : Recover Unit := do
  let (reply, ambiguous) ← request service network call 3 commit
  flushReply service network c handle multipart reply ambiguous

/-- `OwnerCacheRecovery::list` and `listed` from a marker on. -/
def ownerList (handle : OpenHandle) : (pages marker : Nat) → List Text → Recover (List Text)
  | 0, _, _ => throw .invalidParts
  | pages + 1, marker, etags => do
    let (reply, _) ← request service network (.list marker) 3 (listParts handle.uploadId marker)
    let (parts, next) ← requireSuccess reply
    if !orderedAfter marker parts then throw .invalidParts
    else
      let etags ← acceptParts c handle.streamOffset parts etags
      match ← nextMarker marker next with
      | none => pure etags
      | some next => ownerList handle pages next etags

/-- The branch of `OwnerCacheRecovery::advance` for a multipart upload. -/
def ownerMultipart (handle : OpenHandle) : Recover Unit :=
  let count := partCount c handle.streamOffset
  if handle.streamOffset = 0 then throw .emptyMultipart
  else if kMaximumMultipartParts < count then throw .excessParts
  else do
    let missing := List.replicate count []
    let etags ←
      if handle.uploadId = [] then pure missing
      else ownerList service network c handle (kMaximumMultipartParts + 1) 0 missing
    let handle ← ensureMultipart service network c handle
    let etags ← uploadMissing service network c handle (List.range count) etags
    flushCommit service network c handle true .complete
      (completeMultipartUpload service handle.uploadId etags handle.precondition)

/-- `OwnerCacheRecovery` for one entry. -/
def ownerCacheRecovery (handle : OpenHandle) : Recover Unit :=
  if handle.single c then
    flushCommit service network c handle false .put
      (putObject service handle.writeId handle.streamOffset handle.precondition)
  else ownerMultipart service network c handle

inductive Recoverer where
  | background
  | owner
  deriving DecidableEq

def Recoverer.recover : Recoverer → OpenHandle → Recover Unit
  | .background => recoverCachedWrite service network c
  | .owner => ownerCacheRecovery service network c

/-- As `recover_dirty` opens it again. -/
def reopen (w : Writer) : Writer := { w with dirtyFd := true, size := w.header.writtenEnd }

def nextMount (recoverer : Recoverer) (w : Writer) (server : Server) : World :=
  match recoverDirty c w with
  | .accepted _ =>
    ((recoverer.recover service network c (recoveredHandle w.header)).run ⟨server, reopen w⟩).2
  | _ => ⟨server, w⟩

end Ngs3fs.Recovery
