import Ngs3fs.Recovery.Upload

/-!
# Whose object a flush has seen

A flush sends one commit request, `PutObject` or `CompleteMultipartUpload`, until an attempt
settles it. When an attempt was ambiguous the flush may end with a look at the key instead, and
`identifies` decides from the size, the write ID and the ETag whether the object there is its own.
The object a flush returns here is the one at the key at the moment of the successful response, or
the one that `HeadObject` showed. A handle without a cache has no write ID, and then every object
of the right size passes that does not have the ETag of the object that was opened. -/

namespace Ngs3fs.Recovery
open Persist Retry Program List

/-- `seal_write` and `CachedFileWriter::flush` on a thread, or `AsyncFlushRequest`. -/
inductive Flusher where
  | thread
  | reactor
  deriving DecidableEq

inductive Body where
  | whole
  | parts (etags : List Text)
  deriving DecidableEq

def Body.call : Body → Call
  | .whole => .put
  | .parts _ => .complete

variable (service : Service) (network : Network)

def Body.serve (handle : OpenHandle) : Body → Server → Except Nat Object × Server
  | .whole => putObject service handle.writeId handle.streamOffset handle.precondition
  | .parts etags => completeMultipartUpload service handle.uploadId etags handle.precondition

/-- `complete_multipart` once its request has ended. -/
def completedObject (handle : OpenHandle) (reply : Reply (Except Nat Object)) (ambiguous : Bool) :
    Recover Object :=
  if ambiguous && !succeeded reply then identified service network .identify handle
  else if hasStatus 409 reply then throw .conflict
  else if hasStatus 412 reply && handle.createExclusive then throw .destinationExists
  else requireSuccess reply

/-- `AsyncFlushRequest::headed` after a commit whose outcome is unknown. -/
def headedObject (handle : OpenHandle) : Recover Object := do
  let object ← head service network .identify
  if handle.identifies object then pure object else throw .outcomeUnknown

/-- `AsyncFlushRequest::received` once no attempt is left to make. -/
def receivedObject (handle : OpenHandle) (multipart : Bool) (reply : Reply (Except Nat Object))
    (ambiguous : Bool) : Recover Object :=
  if ambiguous && !succeeded reply then headedObject service network handle
  else if hasStatus 412 reply && handle.createExclusive then throw .destinationExists
  else if hasStatus 409 reply && multipart then throw .conflict
  else requireSuccess reply

/-- `put_object` and `put_cached_object` differ in where the body comes from. -/
def settledObject (flusher : Flusher) (handle : OpenHandle) (body : Body)
    (reply : Reply (Except Nat Object)) (ambiguous : Bool) : Recover Object :=
  match flusher, body with
  | .thread, .whole => putReply service network handle reply ambiguous
  | .thread, .parts _ => completedObject service network handle reply ambiguous
  | .reactor, .whole => receivedObject service network handle false reply ambiguous
  | .reactor, .parts _ => receivedObject service network handle true reply ambiguous

/-- When the answer had no `Last-Modified`; `AsyncFlushRequest` compares the size. -/
def writtenObject (flusher : Flusher) (handle : OpenHandle) (recovered : Bool) (object : Object) :
    Recover Object :=
  if recovered || service.lastModified then pure object
  else do
    let metadata ← head service network .written
    if flusher = .reactor ∧ metadata.size ≠ handle.streamOffset then throw .outcomeUnknown
    else pure metadata

/-- With `commit_cached_write` for a handle with a cache entry. -/
def publishWritten (entry : Option WriterKey) (handle : OpenHandle) (object metadata : Object) :
    Recover Unit :=
  match entry with
  | none => pure ()
  | some c =>
    let versionId := if object.versionId = [] then metadata.versionId else object.versionId
    commitEntry c ⟨c.key, object.etag, versionId, handle.streamOffset, metadata.mtime⟩

/-- `CachedFileWriter::flush`. -/
def flush (flusher : Flusher) (entry : Option WriterKey) (handle : OpenHandle) (body : Body) :
    Recover Object := do
  let (reply, ambiguous) ← request service network body.call 3 (body.serve service handle)
  let object ← settledObject service network flusher handle body reply ambiguous
  let metadata ← writtenObject service network flusher handle (!succeeded reply) object
  publishWritten entry handle object metadata
  pure object

def Labelled (writeId : Text) (rs : List (Except Nat Object)) (server : Server) : Prop :=
  ∀ object, server.object = some object → object.writeId = writeId → .ok object ∈ rs

section
variable {service : Service} {network : Network} {handle : OpenHandle}
variable {rs : List (Except Nat Object)}

lemma Labelled.before {call i server}
    (others : ∀ writeId size, .put writeId size ∈ network.others call i → writeId ≠ handle.writeId)
    (h : Labelled handle.writeId rs server) :
    Labelled handle.writeId rs (network.before service call i server) := by
  rw [Network.before]
  revert others
  generalize network.others call i = acts
  intro others
  induction acts generalizing server with
  | nil => exact h
  | cons act acts ih =>
    refine ih ?_ fun writeId size mem => others writeId size (mem_cons_of_mem _ mem)
    intro object stored labelled
    cases act with
    | put writeId size =>
      cases stored
      exact absurd labelled (others writeId size mem_cons_self)
    | delete => cases stored

lemma Labelled.serve (body : Body) {server} (h : Labelled handle.writeId rs server) :
    Labelled handle.writeId (rs ++ [(body.serve service handle server).1])
      (body.serve service handle server).2 := by
  have kept : ∀ r, Labelled handle.writeId (rs ++ [r]) server := by
    intro r object stored labelled
    exact mem_append_left _ (h object stored labelled)
  have made : ∀ (object : Object) (next : Server), next.object = some object →
      Labelled handle.writeId (rs ++ [.ok object]) next := by
    intro object next installed other stored _
    obtain rfl := Option.some.inj (installed.symm.trans stored)
    exact mem_append_right _ mem_cons_self
  cases body with
  | whole =>
    rw [Body.serve, putObject]
    split
    · exact kept _
    · exact made _ _ rfl
  | parts etags =>
    rw [Body.serve, completeMultipartUpload]
    split
    · exact kept _
    · split
      · exact kept _
      · split
        · exact kept _
        · exact made _ _ rfl

variable {world : World}

/-- The commit request of a flush, as `request` sends it. -/
def committed (service : Service) (network : Network) (handle : OpenHandle) (body : Body)
    (server : Server) : Outcome Server (Except Nat Object) :=
  retry (body.serve service handle) (network.before service body.call) (network.fate body.call) 3 0
    false server

lemma head_ends (call : Call)
    (others : ∀ i, ∀ writeId size, .put writeId size ∈ network.others call i →
      writeId ≠ handle.writeId)
    (h : Labelled handle.writeId rs world.server) :
    Ends (head service network call) world
      (fun object world' => Labelled handle.writeId rs world'.server ∧
        (object.writeId = handle.writeId → .ok object ∈ rs))
      (fun _ world' => Labelled handle.writeId rs world'.server) := by
  have kept : ∀ i server, Labelled handle.writeId rs server →
      Labelled handle.writeId rs (network.before service call i server) :=
    fun i server h => h.before (others i)
  rw [head]
  refine Ends.bind (M := fun r world' => Labelled handle.writeId rs world'.server ∧
    ∀ object, r.1 = .answer (.ok object) → object.writeId = handle.writeId → .ok object ∈ rs) ?_ ?_
  · refine .of_ok rfl ⟨?_, ?_⟩
    · exact retry_inv kept (fun _ h => h) h
    · intro object replied labelled
      obtain ⟨_, server, h, shown, _⟩ := reply_served kept (fun _ h => h) h replied
      rw [headObject] at shown
      split at shown
      · cases shown
      · rename_i stored
        cases shown
        exact h _ stored labelled
  · rintro ⟨reply, ambiguous⟩ world' ⟨h', shown⟩
    dsimp only
    rw [requireSuccess.eq_def]
    split
    · exact ends_pure ⟨h', shown _ rfl⟩
    all_goals exact ends_throw h'

lemma requireSuccess_ends {reply E} (answered : ∀ answer, reply = .answer answer → answer ∈ rs)
    (fails : ∀ e, E e world) :
    Ends (requireSuccess reply) world (fun object _ => .ok object ∈ rs) E := by
  rw [requireSuccess.eq_def]
  split
  · exact ends_pure (answered _ rfl)
  all_goals exact ends_throw (fails _)

section
variable {world : World} {rs : List (Except Nat Object)} {reply : Reply (Except Nat Object)}
  (known : handle.writeId ≠ [])
  (others : ∀ call i, ∀ writeId size, .put writeId size ∈ network.others call i →
    writeId ≠ handle.writeId)
include known others

end

/-- No attempt of the commit was ambiguous, or the last one was answered with success: nobody has to
look at the key. -/
def Settles (service : Service) (network : Network) (handle : OpenHandle) (body : Body)
    (server : Server) : Prop :=
  (committed service network handle body server).ambiguous = false ∨
    succeeded (committed service network handle body server).reply = true

end

end Ngs3fs.Recovery
