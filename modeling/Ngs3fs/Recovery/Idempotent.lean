import Ngs3fs.Recovery.Precondition

/-!
# Recovery after the remote commit

The process dies after the service has carried out the commit of a cached write and before
`commit_write`. The next mount finds the write as the commit has found it, and sends the commit
again. This file says for which fates of its requests the mount ends with a clean entry of the
committed object. -/

namespace Ngs3fs.Recovery
open Persist Retry Program Machine List Bool

/-- The key has its object, and its upload is gone. A write without an upload was committed by one
`PutObject`. -/
structure Committed (c : WriterKey) (w : Writer) (object : Object) (server : Server) : Prop where
  stored : server.object = some object
  writeId : object.writeId = (recoveredHandle w.header).writeId
  size : object.size = w.header.writtenEnd
  gone : (recoveredHandle w.header).uploadId ≠ [] →
    server.upload? (recoveredHandle w.header).uploadId = none
  single : (recoveredHandle w.header).uploadId = [] → w.header.writtenEnd ≤ c.config.uploadPartSize

/-- A clean entry of the object, no marker, and nothing replaced. -/
structure Converged (c : WriterKey) (object : Object) (world : World) : Prop where
  marker : world.writer.marker = none
  clean : cacheIdentityMatches world.writer.header (object.identity c) = true
  found : world.found = []
  stored : world.object = some object

/-- By the first look, which follows a 412, or by the one that follows any error. -/
def Seen (network : Network) : Prop :=
  Answered (network.fate .put) 3 0 ∧ Answered (network.fate .identify) 3 0 ∨
    Answered (network.fate .identifyAgain) 3 0

def Looked (network : Network) : Recoverer → Prop
  | .background => Seen network ∧ Answered (network.fate .head) 3 0
  | .owner => Answered (network.fate .identify) 3 0

/-- The write must have no upload; the first attempt to send it again must not settle the request,
since a plain 412 is taken for a refusal; no attempt may be carried out that the service does not
refuse; and the object must be seen by `HeadObject`. -/
structure Converges (network : Network) (w : Writer) (object : Object) (recoverer : Recoverer) :
    Prop where
  phase : PhaseAgrees w.header.writePhase w.header.uploadIdLength
  single : (recoveredHandle w.header).uploadId = []
  etag : object.etag.length ≤ kCacheEtagCapacity
  versionId : object.versionId.length ≤ kCacheVersionCapacity
  ambiguous : (network.fate .put 0).ambiguous = true
  unprocessed : (recoveredHandle w.header).precondition.permits (some object) = true →
    ∀ k ≤ 3, Made (network.fate .put) 0 k → (network.fate .put k).processed = false
  looked : Looked network recoverer

section
variable {service : Service} {network : Network} {c : WriterKey} {world : World} {object : Object}
  {handle : OpenHandle}

def Failed {α : Type} (reply : Reply (Except Nat α)) : Prop :=
  reply = .answer (.error 412) ∨ ∀ response, reply ≠ .answer response

lemma run_requireSuccess_other {α} {reply : Reply (Except Nat α)}
    (h : ∀ response, reply ≠ .answer response) :
    ∃ e, (requireSuccess reply).run world = (.error e, world) := by
  cases reply with
  | answer response => exact absurd rfl (h response)
  | lost | busy | refused => exact ⟨_, rfl⟩

lemma hasStatus_other {α} {reply : Reply (Except Nat α)} {status}
    (h : ∀ response, reply ≠ .answer response) : hasStatus status reply = false := by
  cases reply with
  | answer response => exact absurd rfl (h response)
  | lost | busy | refused => rfl

lemma run_requireSuccess_failed {α} (world : World) {reply : Reply (Except Nat α)}
    (failed : Failed reply) :
    ∃ e, (requireSuccess reply).run world = (.error e, world) := by
  obtain rfl | other := failed
  · exact ⟨_, rfl⟩
  · exact run_requireSuccess_other other

lemma run_putReply_settled {reply} (plain : handle.createExclusive = false)
    (failed : Failed reply) :
    ∃ e, (putReply service network handle reply false).run world = (.error e, world) := by
  obtain ⟨e, thrown⟩ := run_requireSuccess_failed world failed
  refine ⟨e, ?_⟩
  rw [putReply, run_tryCatch, Bool.false_and, if_neg Bool.false_ne_true, plain, Bool.and_false,
    if_neg Bool.false_ne_true, thrown]
  rfl

lemma run_putReply_other {reply} (other : ∀ response, reply ≠ .answer response) :
    (putReply service network handle reply true).run world =
      (identified service network .identifyAgain handle).run world := by
  obtain ⟨e, thrown⟩ := run_requireSuccess_failed world (.inr other)
  rw [putReply, run_tryCatch, hasStatus_other other, Bool.and_false, if_neg Bool.false_ne_true,
    Bool.false_and, if_neg Bool.false_ne_true, thrown]
  rfl

lemma run_flushReply_failed (service : Service) (network : Network) (world : World) {reply}
    (plain : handle.createExclusive = false)
    (failed : Failed reply) :
    ((flushReply service network c handle false reply true).run world =
      (headRecovering service network c handle).run world) ∧
    ∃ e, (flushReply service network c handle false reply false).run world = (.error e, world) := by
  have unsuccessful : succeeded reply = false := by
    obtain rfl | other := failed
    · rfl
    · cases reply with
      | answer response => exact absurd rfl (other response)
      | lost | busy | refused => rfl
  obtain ⟨e, thrown⟩ := run_requireSuccess_failed world failed
  constructor
  · rw [flushReply, unsuccessful]
    rfl
  · refine ⟨e, ?_⟩
    rw [flushReply, Bool.false_and, if_neg Bool.false_ne_true, plain, Bool.and_false,
      if_neg Bool.false_ne_true, Bool.and_false, if_neg Bool.false_ne_true, run_bind, thrown]

lemma putObject_refused {writeId size condition} (stored : world.object = some object)
    (refused : condition.permits (some object) = false) :
    putObject service writeId size condition world.server = (.error 412, world.server) := by
  cases condition with
  | unconditional => cases refused
  | ifMatch etag =>
    rw [putObject, stored, Precondition.refusal]
    rw [Precondition.permits, Precondition.refusal] at refused
    split at refused
    · cases refused
    · rename_i other
      rw [if_neg other]
  | ifNoneMatch =>
    rw [putObject, stored]
    rfl

variable (quiet : ∀ call i, network.others call i = [])
include quiet

lemma before_quiet (call : Call) (i : Nat) (server : Server) :
    network.before service call i server = server := by
  rw [Network.before, quiet]
  rfl

lemma run_request_still {α} (service : Service) (world : World) (call : Call)
    (serve : Server → Except Nat α × Server)
    (idle : ∀ k ≤ 3, Made (network.fate call) 0 k → (network.fate call k).processed = true →
      (serve world.server).2 = world.server) :
    ∃ reply, (request service network call 3 serve).run world =
        (.ok (reply, (network.fate call 0).ambiguous), world) ∧
      (Answered (network.fate call) 3 0 → reply = .answer (serve world.server).1) ∧
      ∀ response, reply = .answer response → Answered (network.fate call) 3 0 := by
  have still : ∀ i, network.before service call i world.server = world.server :=
    fun i => before_quiet quiet call i _
  have state : (retry serve (network.before service call) (network.fate call) 3 0 false
      world.server).state = world.server := by
    apply retry_still still
    intro k le made processed
    rw [Nat.zero_add] at processed
    exact idle k le made processed
  refine ⟨(retry serve (network.before service call) (network.fate call) 3 0 false
    world.server).reply, ?_, ?_, fun response h => answered_of_reply h⟩
  · change (Except.ok (_, _), { world with server := _ }) = _
    rw [state, retry_ambiguous]
  · intro answered
    obtain ⟨k, le, made, eq⟩ := answered
    apply reply_of_answered still _ ⟨k, le, made, eq⟩
    apply idle k le made
    rw [← Nat.zero_add k, eq]
    rfl

lemma run_head_unanswered (service : Service) (world : World) {call}
    (unanswered : ¬ Answered (network.fate call) 3 0) :
    ∃ e, (head service network call).run world = (.error e, world) := by
  obtain ⟨reply, ran, -, seen⟩ := run_request_still quiet service world call headObject
    fun _ _ _ _ => rfl
  rw [head, run_bind, ran]
  exact run_requireSuccess_other fun response h => unanswered (seen response h)

lemma run_identified_unanswered {call} (unanswered : ¬ Answered (network.fate call) 3 0) :
    (identified service network call handle).run world = (.error .outcomeUnknown, world) := by
  obtain ⟨e, failed⟩ := run_head_unanswered quiet service world unanswered
  have looked : (recoverWriteCommit service network call handle).run world = (.ok none, world) := by
    rw [recoverWriteCommit, run_tryCatch, run_bind, failed]
    rfl
  rw [identified, run_bind, looked]
  rfl

lemma run_putReply_refused_unseen (unseen : ¬ Answered (network.fate .identify) 3 0) :
    (putReply service network handle (.answer (.error 412)) true).run world =
      (identified service network .identifyAgain handle).run world := by
  rw [putReply, run_tryCatch,
    if_pos (show (true && hasStatus 412 (.answer (.error 412))) = true from rfl),
    run_identified_unanswered quiet unseen]
  rfl

lemma run_commitRecovered_unanswered (unanswered : ¬ Answered (network.fate .head) 3 0) :
    ∃ e, (commitRecovered service network c handle).run world = (.error e, world) := by
  obtain ⟨e, failed⟩ := run_head_unanswered quiet service world unanswered
  refine ⟨e, ?_⟩
  rw [commitRecovered, run_bind, failed]

lemma run_headRecovering_unanswered (unanswered : ¬ Answered (network.fate .identify) 3 0) :
    ∃ e, (headRecovering service network c handle).run world = (.error e, world) := by
  obtain ⟨e, failed⟩ := run_head_unanswered quiet service world unanswered
  refine ⟨e, ?_⟩
  rw [headRecovering, run_bind, failed]

lemma run_list_gone (service : Service) (world : World) (marker : Nat)
    (gone : world.server.upload? handle.uploadId = none) :
    ∃ reply,
      (request service network (.list marker) 3 (listParts handle.uploadId marker)).run world =
        (.ok (reply, (network.fate (.list marker) 0).ambiguous), world) ∧
      ∃ e, (requireSuccess reply).run world = (.error e, world) := by
  obtain ⟨reply, ran, shown, seen⟩ := run_request_still quiet service world (.list marker)
    (listParts handle.uploadId marker) fun _ _ _ _ => rfl
  refine ⟨reply, ran, ?_⟩
  by_cases answered : Answered (network.fate (.list marker)) 3 0
  · rw [shown answered, listParts, gone]
    exact ⟨_, rfl⟩
  · exact run_requireSuccess_other fun response h => answered (seen response h)

lemma run_recover_gone (service : Service) (world : World) (recoverer : Recoverer)
    (named : handle.uploadId ≠ []) (gone : world.server.upload? handle.uploadId = none) :
    ∃ e, (recoverer.recover service network c handle).run world = (.error e, world) := by
  have multipart : handle.single c = false := by
    rw [OpenHandle.single, and_eq_false_iff]
    exact .inr (eq_false_iff.2 fun h => named (isEmpty_iff.1 h))
  obtain ⟨reply, ran, e, thrown⟩ := run_list_gone quiet service world 0 gone
  cases recoverer with
  | background =>
    refine ⟨e, ?_⟩
    have listed :
      (listCachedParts service network handle (kMaximumMultipartParts + 1) 0).run world =
        (.error e, world) := by
      rw [listCachedParts, run_bind, ran]
      dsimp only
      rw [run_bind, thrown]
    have failed : (recoverMultipart service network c handle).run world = (.error e, world) := by
      rw [recoverMultipart, ensureMultipart, if_pos named, pure_bind, run_bind, listed]
    rw [Recoverer.recover, recoverCachedWrite, multipart, if_neg Bool.false_ne_true,
      run_bind, failed]
  | owner =>
    rw [Recoverer.recover, ownerCacheRecovery, multipart, if_neg Bool.false_ne_true, ownerMultipart]
    split
    · exact ⟨_, rfl⟩
    · split
      · exact ⟨_, rfl⟩
      · refine ⟨e, ?_⟩
        rw [run_bind, ownerList, run_bind, ran]
        dsimp only
        rw [run_bind, thrown]

variable (stored : world.object = some object)
include stored

lemma run_head_answered {call} (answered : Answered (network.fate call) 3 0) :
    (head service network call).run world = (.ok object, world) := by
  obtain ⟨reply, ran, shown, -⟩ := run_request_still quiet service world call headObject
    fun _ _ _ _ => rfl
  rw [head, run_bind, ran, shown answered, headObject, stored]
  rfl

lemma run_identified_answered (own : handle.identifies object = true) {call}
    (answered : Answered (network.fate call) 3 0) :
    (identified service network call handle).run world = (.ok object, world) := by
  have looked : (recoverWriteCommit service network call handle).run world =
      (.ok (some object), world) := by
    rw [recoverWriteCommit, run_tryCatch, run_bind, run_head_answered quiet stored answered]
    dsimp only
    rw [own]
    rfl
  rw [identified, run_bind, looked]
  rfl

lemma run_putReply_refused_seen (own : handle.identifies object = true)
    (seen : Answered (network.fate .identify) 3 0) :
    (putReply service network handle (.answer (.error 412)) true).run world =
      (.ok object, world) := by
  rw [putReply, run_tryCatch,
    if_pos (show (true && hasStatus 412 (.answer (.error 412))) = true from rfl),
    run_identified_answered quiet stored own seen]

lemma run_commitRecovered_answered (size : object.size = handle.streamOffset)
    (answered : Answered (network.fate .head) 3 0) :
    (commitRecovered service network c handle).run world =
      (commitEntry c (object.identity c)).run world := by
  rw [commitRecovered, run_bind, run_head_answered quiet stored answered]
  dsimp only
  rw [if_neg (not_not.2 size)]

lemma run_headRecovering_answered (own : handle.identifies object = true)
    (size : object.size = handle.streamOffset) (answered : Answered (network.fate .identify) 3 0) :
    (headRecovering service network c handle).run world =
      (commitEntry c (object.identity c)).run world := by
  rw [headRecovering, run_bind, run_head_answered quiet stored answered]
  dsimp only
  rw [own, if_pos rfl, ← size]
  rfl

lemma put_processed (service : Service)
    (permitted : handle.precondition.permits (some object) = true) {k} (le : k ≤ 3)
    (made : Made (network.fate .put) 0 k) (processed : (network.fate .put k).processed = true) :
    OnFound (· ≠ []) ((request service network .put 3 (putObject service handle.writeId
      handle.streamOffset handle.precondition)).run world).2 := by
  have admits : Admits handle.precondition (· ≠ []) := fun _ _ _ _ => cons_ne_nil _ _
  refine retry_processed (P := fun server : Server => server.found ≠ [])
    (fun i => before_quiet quiet .put i _) ?_ ?_ (putObject_found admits _ _) le made ?_
  · rw [putObject, stored, Option.isNone_iff_eq_none.1 permitted]
    exact cons_ne_nil _ _
  · intro i server h
    rw [before_found]
    exact h
  · rw [Nat.zero_add]
    exact processed

lemma recover_processed (recoverer : Recoverer) (single : handle.single c = true)
    (permitted : handle.precondition.permits (some object) = true) {k} (le : k ≤ 3)
    (made : Made (network.fate .put) 0 k) (processed : (network.fate .put k).processed = true) :
    ((recoverer.recover service network c handle).run world).2.found ≠ [] := by
  have recorded := put_processed quiet stored service permitted le made processed
  cases recoverer with
  | background =>
    rw [Recoverer.recover, recoverCachedWrite, single, if_pos rfl]
    refine after_bind (I := OnFound (· ≠ [])) (after_bind recorded fun _ => keeps_putReply _ _ _) ?_
    intro _
    exact keeps_commitRecovered _
  | owner =>
    rw [Recoverer.recover, ownerCacheRecovery, single, if_pos rfl]
    exact after_bind (I := OnFound (· ≠ [])) recorded fun _ => keeps_flushReply _ _ _ _

variable (service) (unprocessed : handle.precondition.permits (some object) = true →
  ∀ k ≤ 3, Made (network.fate .put) 0 k → (network.fate .put k).processed = false)
include unprocessed

lemma run_put_still :
    ∃ reply, (request service network .put 3 (putObject service handle.writeId handle.streamOffset
        handle.precondition)).run world = (.ok (reply, (network.fate .put 0).ambiguous), world) ∧
      (Answered (network.fate .put) 3 0 → reply = .answer (.error 412)) ∧
      (¬ Answered (network.fate .put) 3 0 → ∀ response, reply ≠ .answer response) := by
  have refused {k : Nat} (le : k ≤ 3) (made : Made (network.fate .put) 0 k)
      (processed : (network.fate .put k).processed = true) :
      putObject service handle.writeId handle.streamOffset handle.precondition world.server =
        (.error 412, world.server) := by
    apply putObject_refused stored
    rw [← not_eq_true]
    intro permitted
    rw [unprocessed permitted k le made] at processed
    cases processed
  obtain ⟨reply, ran, shown, seen⟩ := run_request_still quiet service world .put
    (putObject service handle.writeId handle.streamOffset handle.precondition) (by
      intro k le made processed
      rw [refused le made processed])
  refine ⟨reply, ran, ?_, ?_⟩
  · intro answered
    rw [shown answered]
    obtain ⟨k, le, made, eq⟩ := answered
    rw [refused le made (by rw [← Nat.zero_add k, eq]; rfl)]
  · intro unanswered response h
    exact unanswered (seen response h)

lemma run_putCachedObject_seen (own : handle.identifies object = true)
    (ambiguous : (network.fate .put 0).ambiguous = true) (seen : Seen network) :
    (putCachedObject service network handle).run world = (.ok object, world) := by
  obtain ⟨reply, ran, answer, other⟩ := run_put_still service quiet stored unprocessed
  rw [putCachedObject, run_bind, ran, ambiguous]
  dsimp only
  by_cases answered : Answered (network.fate .put) 3 0
  · rw [answer answered]
    by_cases first : Answered (network.fate .identify) 3 0
    · exact run_putReply_refused_seen quiet stored own first
    · rw [run_putReply_refused_unseen quiet first]
      obtain ⟨-, h⟩ | again := seen
      · exact absurd h first
      · exact run_identified_answered quiet stored own again
  · rw [run_putReply_other (other answered)]
    obtain ⟨h, -⟩ | again := seen
    · exact absurd h answered
    · exact run_identified_answered quiet stored own again

lemma run_putCachedObject_unseen (plain : handle.createExclusive = false)
    (unseen : (network.fate .put 0).ambiguous = true → ¬ Seen network) :
    ∃ e, (putCachedObject service network handle).run world = (.error e, world) := by
  obtain ⟨reply, ran, answer, other⟩ := run_put_still service quiet stored unprocessed
  rw [putCachedObject, run_bind, ran]
  dsimp only
  cases ambiguous : (network.fate .put 0).ambiguous with
  | false =>
    apply run_putReply_settled plain
    by_cases answered : Answered (network.fate .put) 3 0
    · exact .inl (answer answered)
    · exact .inr (other answered)
  | true =>
    obtain ⟨first, again⟩ := not_or.1 (unseen ambiguous)
    by_cases answered : Answered (network.fate .put) 3 0
    · rw [answer answered, run_putReply_refused_unseen quiet fun h => first ⟨answered, h⟩]
      exact ⟨_, run_identified_unanswered quiet again⟩
    · rw [run_putReply_other (other answered)]
      exact ⟨_, run_identified_unanswered quiet again⟩

lemma run_recover_still (recoverer : Recoverer) (single : handle.single c = true)
    (plain : handle.createExclusive = false) (own : handle.identifies object = true)
    (size : object.size = handle.streamOffset) :
    ((network.fate .put 0).ambiguous = true ∧ Looked network recoverer ∧
      (recoverer.recover service network c handle).run world =
        (commitEntry c (object.identity c)).run world) ∨
    (¬ ((network.fate .put 0).ambiguous = true ∧ Looked network recoverer) ∧
      ∃ e, (recoverer.recover service network c handle).run world = (.error e, world)) := by
  cases recoverer with
  | background =>
    rw [Recoverer.recover, recoverCachedWrite, single, if_pos rfl, run_bind]
    by_cases sent : (network.fate .put 0).ambiguous = true ∧ Seen network
    · rw [run_putCachedObject_seen service quiet stored unprocessed own sent.1 sent.2]
      by_cases answered : Answered (network.fate .head) 3 0
      · exact .inl ⟨sent.1, ⟨sent.2, answered⟩,
          run_commitRecovered_answered quiet stored size answered⟩
      · exact .inr ⟨fun h => answered h.2.2, run_commitRecovered_unanswered quiet answered⟩
    · obtain ⟨e, failed⟩ := run_putCachedObject_unseen service quiet stored unprocessed plain
        fun ambiguous seen => sent ⟨ambiguous, seen⟩
      rw [failed]
      exact .inr ⟨fun h => sent ⟨h.1, h.2.1⟩, e, rfl⟩
  | owner =>
    obtain ⟨reply, ran, answer, other⟩ := run_put_still service quiet stored unprocessed
    have failed : Failed reply := (em (Answered (network.fate .put) 3 0)).imp answer other
    obtain ⟨looked, settled⟩ := run_flushReply_failed (c := c) service network world plain failed
    rw [Recoverer.recover, ownerCacheRecovery, single, if_pos rfl, flushCommit, run_bind, ran]
    dsimp only
    cases ambiguous : (network.fate .put 0).ambiguous with
    | false => exact .inr ⟨fun h => Bool.false_ne_true h.1, settled⟩
    | true =>
      rw [looked]
      by_cases answered : Answered (network.fate .identify) 3 0
      · exact .inl ⟨rfl, answered, run_headRecovering_answered quiet stored own size answered⟩
      · exact .inr ⟨fun h => answered h.2, run_headRecovering_unanswered quiet answered⟩

end

section
variable {c : WriterKey} {w : Writer} {identity : CacheIdentity}

def committedHeader (header : CacheMetaHeader) (identity : CacheIdentity) : CacheMetaHeader :=
  { header with
    etag := memcpy (zeros header.etag.length) identity.etag
    versionId := memcpy (zeros header.versionId.length) identity.versionId
    etagLength := identity.etag.length
    versionLength := identity.versionId.length
    mtime := identity.mtime
    dirty := false
    writePhase := 0
    uploadIdLength := 0 }

lemma complete_commitWrite (commits : w.commits c identity = true) :
    Crash.complete (commitWrite c w identity) w =
      { w with header := committedHeader w.header identity, marker := none, dirtyFd := false } := by
  rw [commitWrite, if_pos commits]
  simp only [commitIdentity, commitPhase, Crash.complete, cons_append, nil_append,
    foldl_cons, foldl_nil, Writer.store, Writer.onMarker, committedHeader]

lemma take_memcpy (array : List UInt8) (text : Text) :
    (memcpy array text).take text.length = text := by
  rw [memcpy, Bytes.overwrite, take_zero, nil_append, take_left]

lemma length_memcpy_zeros {capacity text} (fits : text.length ≤ capacity) :
    (memcpy (zeros capacity) text).length = capacity := by
  rw [length_memcpy (by rw [zeros, length_replicate]; exact fits), zeros, length_replicate]

lemma committedHeader_matches (inv : WriterInv c w)
    (writeId : kCacheWriteIdCapacity ≤ w.header.writeId.length)
    (size : w.size = w.header.writtenEnd) (commits : w.commits c identity = true) :
    cacheIdentityMatches (committedHeader w.header identity) identity = true := by
  have known := inv.known
  simp only [Writer.commits, and_eq_true, decide_eq_true_eq, beq_iff_eq] at commits
  obtain ⟨⟨⟨etagFits, versionFits⟩, key⟩, sizes⟩ := commits
  have keyTaken : (padded kCacheKeyCapacity c.key).take c.key.length = c.key := take_left
  have objectSize : w.header.objectSize = identity.size := by rw [sizes, size, inv.ends]
  have epoch : w.header.generationEpoch ≠ 0 := by
    rw [known.epoch]
    exact c.epoch_ne_zero
  have keyRoom := c.key_length_le
  simp only [cacheIdentityMatches, committedHeader, known.magic, known.version, known.headerSize,
    known.bitmapUnit, known.keyLength, known.key, known.writeIdLength, key, objectSize,
    known.etag, known.versionId, length_memcpy_zeros etagFits, length_memcpy_zeros versionFits,
    take_memcpy, keyTaken, length_padded keyRoom, bne_iff_ne.2 epoch, etagFits,
      versionFits, keyRoom,
    writeId, Nat.zero_le, beq_self_eq_true, Bool.not_false, Bool.and_true,
      Bool.or_true, decide_true]

lemma commitEntry_converged {object world} (inv : WriterInv c world.writer)
    (writeId : kCacheWriteIdCapacity ≤ world.writer.header.writeId.length)
    (size : world.writer.size = world.writer.header.writtenEnd)
    (own : object.size = world.writer.header.writtenEnd) (begun : world.writer.marker ≠ none)
    (found : world.found = []) (stored : world.object = some object) :
    Converged c object ((commitEntry c (object.identity c)).run world).2 ↔
      object.etag.length ≤ kCacheEtagCapacity ∧
      object.versionId.length ≤ kCacheVersionCapacity := by
  have commits : world.writer.commits c (object.identity c) = true ↔
      object.etag.length ≤ kCacheEtagCapacity ∧
        object.versionId.length ≤ kCacheVersionCapacity := by
    simp only [Writer.commits, Object.identity, size, own, beq_self_eq_true, Bool.and_true,
      and_eq_true, decide_eq_true_eq]
  rw [← commits, run_commitEntry]
  constructor
  · intro h
    by_contra refused
    rw [if_neg refused] at h
    exact begun h.marker
  · intro h
    rw [if_pos h]
    refine ⟨?_, ?_, found, stored⟩
    · dsimp only
      rw [complete_commitWrite h]
    · dsimp only
      rw [complete_commitWrite h]
      exact committedHeader_matches inv writeId size h

end

section
variable {c : WriterKey} {w : Writer} {object : Object} {server : Server}

lemma recoverDirty_begun (inv : WriterInv c w) (begun : w.dirtyFd = true) :
    (PhaseAgrees w.header.writePhase w.header.uploadIdLength ∧
      recoverDirty c w = .accepted w.header.writtenEnd) ∨
    (¬ PhaseAgrees w.header.writePhase w.header.uploadIdLength ∧ recoverDirty c w = .isolated) := by
  have marker : w.marker = some c.file := by rw [inv.marker, if_pos begun]
  have dirty : w.header.dirty = true := inv.dirty.trans begun
  have accepts := recoveryHeaderMatches_iff inv.known inv.mapped
  rw [recover_marked marker inv.mapped inv.stored]
  by_cases phase : PhaseAgrees w.header.writePhase w.header.uploadIdLength
  · exact .inl ⟨phase, if_pos (accepts.2 ⟨dirty, phase, inv.ends⟩)⟩
  · exact .inr ⟨phase, if_neg fun h => phase (accepts.1 h).2.1⟩

lemma reopen_inv (inv : WriterInv c w) (begun : w.dirtyFd = true) : WriterInv c (reopen w) :=
  ⟨inv.known, inv.ends, inv.mapped, inv.stored, inv.dirty.trans begun, by
    rw [reopen, inv.marker, if_pos begun]
    rfl⟩

lemma Committed.identifies (committed : Committed c w object server)
    (named : (recoveredHandle w.header).writeId ≠ []) :
    (recoveredHandle w.header).identifies object = true := by
  have size : object.size = (recoveredHandle w.header).streamOffset := committed.size
  simp only [OpenHandle.identifies, size, committed.writeId, named, ne_eq, not_true_eq_false,
    decide_false, Bool.false_or, Bool.and_false, Bool.false_and, Bool.not_false]

end

/-- Let a writer be called any number of times, let the service have carried out its commit, and let
the process die before `commit_write`. If nobody else writes the key, the next mount ends with a
clean entry of the committed object, without a marker and without a replacement, if and only if the
fates of its requests are those of `Converges`: the write has no upload, its first attempt to commit
again is ambiguous, and no attempt that its condition admits is carried out. -/
theorem recovery_converges_iff (service : Service) {network : Network} {c : WriterKey} {w : Writer}
    {object : Object} {server : Server} (recoverer : Recoverer) {etag versionId writeId : Text}
    (he : etag.length ≤ kCacheEtagCapacity) (hv : versionId.length ≤ kCacheVersionCapacity)
    (hw : writeId.length = kCacheWriteIdCapacity) {calls : List (WriterCall c)}
    (run : run (writerStep c) (createWriter c etag versionId writeId) calls = some w)
    (before : ∀ call ∈ calls, uncommitted call = true) (begun : w.dirtyFd = true)
    (committed : Committed c w object server) (quiet : ∀ call i, network.others call i = []) :
    Converged c object (nextMount service network c recoverer w { server with found := [] }) ↔
      Converges network w object recoverer := by
  have inv : WriterInv c w := run_inv (fun _ _ _ inv h => inv.keep h)
    (createWriter_inv he hv) run
  have kept : base w.header = (etag, writeId) := (run_base before run).trans (base_createWriter hw)
  have marker : w.marker ≠ none := by
    rw [inv.marker, if_pos begun]
    exact Option.some_ne_none _
  have named : (recoveredHandle w.header).writeId = writeId := (Prod.mk.inj kept).2
  have array : kCacheWriteIdCapacity ≤ w.header.writeId.length := by
    rw [← hw, ← named]
    exact length_take_le' _ _
  obtain ⟨phase, accepted⟩ | ⟨phase, isolated⟩ := recoverDirty_begun inv begun
  · rw [nextMount, accepted]
    -- a recovery that fails leaves the marker
    have failed {e : Failure} (h : (recoverer.recover service network c
        (recoveredHandle w.header)).run ⟨{ server with found := [] }, reopen w⟩ =
          (.error e, ⟨{ server with found := [] }, reopen w⟩)) :
        ¬ Converged c object ((recoverer.recover service network c (recoveredHandle w.header)).run
          ⟨{ server with found := [] }, reopen w⟩).2 := by
      rw [h]
      exact fun converged => marker converged.marker
    by_cases upload : (recoveredHandle w.header).uploadId = []
    · have single : (recoveredHandle w.header).single c = true := by
        rw [OpenHandle.single, upload, and_eq_true]
        exact ⟨decide_eq_true (committed.single upload), rfl⟩
      by_cases unprocessed : (recoveredHandle w.header).precondition.permits (some object) = true →
          ∀ k ≤ 3, Made (network.fate .put) 0 k → (network.fate .put k).processed = false
      · have own := committed.identifies (by rw [named, ← length_pos_iff, hw]; decide)
        have stored : (World.mk { server with found := [] } (reopen w)).object = some object :=
          committed.stored
        obtain ⟨ambiguous, looked, ran⟩ | ⟨unseen, e, ran⟩ :=
          run_recover_still (c := c) service quiet
          stored unprocessed recoverer single rfl own committed.size
        · rw [ran, commitEntry_converged (reopen_inv inv begun) array rfl committed.size marker rfl
            committed.stored]
          constructor
          · rintro ⟨etagFits, versionFits⟩
            exact ⟨phase, upload, etagFits, versionFits, ambiguous, unprocessed, looked⟩
          · intro converges
            exact ⟨converges.etag, converges.versionId⟩
        · apply iff_of_false (failed ran)
          intro converges
          exact unseen ⟨converges.ambiguous, converges.looked⟩
      · apply iff_of_false
        · intro converged
          apply unprocessed
          intro permitted k le made
          by_contra processed
          exact recover_processed quiet committed.stored recoverer single permitted le made
            (not_eq_false _ ▸ processed) converged.found
        · intro converges
          exact unprocessed converges.unprocessed
    · obtain ⟨e, ran⟩ := run_recover_gone (c := c) quiet service
        ⟨{ server with found := [] }, reopen w⟩ recoverer upload (committed.gone upload)
      apply iff_of_false (failed ran)
      intro converges
      exact upload converges.single
  · rw [nextMount, isolated]
    apply iff_of_false
    · intro converged
      exact marker converged.marker
    · intro converges
      exact phase converges.phase

def committedTen : Object := ⟨7, [99], [], ownWriteId, 10, 0⟩

def afterCommit : Server := ⟨some committedTen, [], 8, []⟩

def firstLost : Network where
  fate call i := if call = .put ∧ i = 0 then .lost true else .answered
  others _ _ := []

lemma committed_afterCommit {w}
    (handle : recoveredHandle w.header = ⟨[98], [], [], ownWriteId, 10, false⟩) :
    Committed keyA w committedTen afterCommit := by
  have writtenEnd : w.header.writtenEnd = 10 := congrArg OpenHandle.streamOffset handle
  refine ⟨rfl, ?_, writtenEnd.symm, ?_, ?_⟩
  · rw [handle]
    rfl
  · rw [handle]
    exact fun h => absurd rfl h
  · rw [handle, writtenEnd]
    exact fun _ => by decide

theorem recovery_converges_firstLost : ∃ w,
    run (writerStep keyA) (createWriter keyA [98] [] ownWriteId) tenPublished = some w ∧
    Converged keyA committedTen
      (nextMount plainService firstLost keyA .background w { afterCommit with found := [] }) := by
  have ran : run (writerStep keyA) (createWriter keyA [98] [] ownWriteId) tenPublished =
      some _ := run_final (by decide +kernel)
  refine ⟨_, ran, ?_⟩
  refine (recovery_converges_iff plainService .background (by decide) (by decide) (by decide) ran
    (by decide +kernel) (by decide +kernel) (committed_afterCommit (by decide +kernel))
    fun _ _ => rfl).2 ⟨.inl (by decide +kernel), by decide +kernel, by decide, by
      decide, rfl, ?_, ?_⟩
  · intro permitted
    have refused : (recoveredHandle (final (writerStep keyA)
        (createWriter keyA [98] [] ownWriteId) tenPublished).header).precondition.permits
          (some committedTen) = false := by decide +kernel
    rw [refused] at permitted
    cases permitted
  · refine ⟨.inl ⟨⟨1, by decide, ?_, rfl⟩, ⟨0, by decide, made_zero, rfl⟩⟩,
      ⟨0, by decide, made_zero, rfl⟩⟩
    intro j lt
    obtain rfl := Nat.lt_one_iff.1 lt
    rfl

theorem recovery_isolates_answered : ∃ w,
    run (writerStep keyA) (createWriter keyA [98] [] ownWriteId) tenPublished = some w ∧
    Committed keyA w committedTen afterCommit ∧
    ∀ recoverer, ¬ Converged keyA committedTen
      (nextMount plainService .perfect keyA recoverer w { afterCommit with found := [] }) := by
  have ran : run (writerStep keyA) (createWriter keyA [98] [] ownWriteId) tenPublished =
      some _ := run_final (by decide +kernel)
  refine ⟨_, ran, committed_afterCommit (by decide +kernel), ?_⟩
  intro recoverer converged
  have kept : (nextMount plainService .perfect keyA recoverer (final (writerStep keyA)
      (createWriter keyA [98] [] ownWriteId) tenPublished)
      { afterCommit with found := [] }).writer.marker ≠ none := by
    cases recoverer with
    | background | owner => decide +kernel
  exact kept converged.marker

end Ngs3fs.Recovery
