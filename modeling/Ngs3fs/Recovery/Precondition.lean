import Ngs3fs.Recovery.Upload

/-!
# The precondition of a recovered write

A handle decides at open what its commit may replace: nothing if the file was created exclusively,
the version it has seen otherwise. What the commits of a recovery replace is recorded by the
service in `found`, so the comparison with what the recovered handle sends is an invariant of
`found`, whatever the network and other clients do. -/

namespace Ngs3fs.Recovery
open Persist Retry Program Machine List

variable {service : Service} {network : Network} {c : WriterKey} {Q : List (Option Object) → Prop}

def OnFound (Q : List (Option Object) → Prop) (world : World) : Prop := Q world.found

def Admits (condition : Precondition) (Q : List (Option Object) → Prop) : Prop :=
  ∀ object found, condition.permits object = true → Q found → Q (object :: found)

lemma before_found (call : Call) (i : Nat) (server : Server) :
    (network.before service call i server).found = server.found := by
  have step (actions : List Foreign) (server : Server) :
      (actions.foldl (Foreign.act service) server).found = server.found := by
    induction actions generalizing server with
    | nil => rfl
    | cons action actions ih =>
      rw [foldl_cons, ih]
      cases action with
      | put | delete => rfl
  exact step _ _

lemma headObject_found (server : Server) : (headObject server).2.found = server.found := rfl

lemma listParts_found (id : Text) (marker : Nat) (server : Server) :
    (listParts id marker server).2.found = server.found := rfl

lemma createMultipart_found (writeId : Text) (server : Server) :
    (createMultipart service writeId server).2.found = server.found := rfl

lemma uploadPart_found (id : Text) (number size : Nat) (server : Server) :
    (uploadPart service id number size server).2.found = server.found := by
  rw [uploadPart]
  split
  · rfl
  · split
    all_goals rfl

lemma putObject_found {condition} (admits : Admits condition Q) (writeId : Text)
    (size : Nat) (server : Server) (h : Q server.found) :
    Q (putObject service writeId size condition server).2.found := by
  rw [putObject]
  split
  · exact h
  · rename_i permitted
    refine admits _ _ ?_ h
    rw [Precondition.permits, permitted]
    rfl

lemma completeMultipartUpload_found {condition} (admits : Admits condition Q)
    (id : Text) (etags : List Text) (server : Server) (h : Q server.found) :
    Q (completeMultipartUpload service id etags condition server).2.found := by
  rw [completeMultipartUpload]
  split
  · exact h
  · split
    · exact h
    · split
      · exact h
      · rename_i permitted
        refine admits _ _ ?_ h
        rw [Precondition.permits, permitted]
        rfl

lemma keeps_request {α call left} {serve : Server → Except Nat α × Server}
    (served : ∀ server, Q server.found → Q (serve server).2.found) :
    Keeps (OnFound Q) (request service network call left serve) := by
  intro world h
  refine retry_inv (I := fun server : Server => Q server.found) ?_ served h
  intro i server h
  rw [before_found]
  exact h

lemma keeps_request_of_found {α call left} {serve : Server → Except Nat α × Server}
    (same : ∀ server, (serve server).2.found = server.found) :
    Keeps (OnFound Q) (request service network call left serve) := by
  apply keeps_request
  intro server h
  rw [same]
  exact h

section
variable {handle : OpenHandle}

lemma keeps_requireSuccess {α} (reply : Reply (Except Nat α)) :
    Keeps (OnFound Q) (requireSuccess reply) := by
  rw [requireSuccess.eq_def]
  split
  · apply keeps_pure
  all_goals apply keeps_throw

lemma keeps_head (call : Call) : Keeps (OnFound Q) (head service network call) := by
  refine (keeps_request_of_found headObject_found).bind ?_
  intro reply
  apply keeps_requireSuccess

lemma keeps_recoverWriteCommit (call : Call) (handle : OpenHandle) :
    Keeps (OnFound Q) (recoverWriteCommit service network call handle) := by
  apply Keeps.tryCatch
  · refine (keeps_head call).bind ?_
    intro object
    apply keeps_pure
  · intro error
    apply keeps_pure

lemma keeps_identified (call : Call) (handle : OpenHandle) :
    Keeps (OnFound Q) (identified service network call handle) := by
  refine (keeps_recoverWriteCommit call handle).bind ?_
  rintro (_ | object)
  · apply keeps_throw
  · apply keeps_pure

lemma keeps_putReply (handle : OpenHandle) (reply : Reply (Except Nat Object)) (ambiguous : Bool) :
    Keeps (OnFound Q) (putReply service network handle reply ambiguous) := by
  apply Keeps.tryCatch
  · refine (keeps_identified _ _).ite ?_
    refine (keeps_throw _).ite ?_
    apply keeps_requireSuccess
  · intro error
    refine (keeps_identified _ _).ite ?_
    apply keeps_throw

lemma keeps_putCachedObject (admits : Admits handle.precondition Q) :
    Keeps (OnFound Q) (putCachedObject service network handle) :=
  (keeps_request (putObject_found admits _ _)).bind fun _ => keeps_putReply _ _ _

lemma keeps_completeReply (handle : OpenHandle) (reply : Reply (Except Nat Object))
    (ambiguous : Bool) :
    Keeps (OnFound Q) (completeReply service network handle reply ambiguous) := by
  refine ((keeps_identified _ _).bind fun _ => keeps_pure _).ite ?_
  refine (keeps_throw _).ite ?_
  refine (keeps_throw _).ite ?_
  refine (keeps_requireSuccess _).bind ?_
  intro object
  apply Keeps.ite
  · exact (keeps_head _).bind fun _ => keeps_pure _
  · apply keeps_pure

lemma keeps_completeMultipart (admits : Admits handle.precondition Q) (etags : List Text) :
    Keeps (OnFound Q) (completeMultipart service network handle etags) :=
  (keeps_request (completeMultipartUpload_found admits _ _)).bind fun _ => keeps_completeReply _ _ _

lemma keeps_nextMarker (marker : Nat) (next : Option Nat) :
    Keeps (OnFound Q) (nextMarker marker next) := by
  cases next with
  | none => apply keeps_pure
  | some next => exact (keeps_throw _).ite (keeps_pure _)

lemma keeps_listCachedParts (handle : OpenHandle) (pages marker : Nat) :
    Keeps (OnFound Q) (listCachedParts service network handle pages marker) := by
  induction pages generalizing marker with
  | zero => apply keeps_throw
  | succ pages ih =>
    refine (keeps_request_of_found (listParts_found _ _)).bind ?_
    intro reply
    refine (keeps_requireSuccess _).bind ?_
    intro page
    refine (keeps_throw _).ite ?_
    refine (keeps_nextMarker _ _).bind ?_
    rintro (_ | next)
    · apply keeps_pure
    · exact (ih next).bind fun _ => keeps_pure _

lemma keeps_acceptParts (size : Nat) (parts : List Part) (etags : List Text) :
    Keeps (OnFound Q) (acceptParts c size parts etags) := by
  induction parts generalizing etags with
  | nil => apply keeps_pure
  | cons part parts ih =>
    refine Keeps.bind ?_ ih
    refine (keeps_throw _).ite ?_
    refine (keeps_throw _).ite ?_
    apply keeps_pure

lemma keeps_persistUploadId (id : Text) : Keeps (OnFound Q) (persistUploadId c id) := by
  intro world h
  rw [run_persistUploadId]
  split
  all_goals exact h

lemma keeps_ensureMultipart (handle : OpenHandle) :
    Keeps (OnFound Q) (ensureMultipart service network c handle) := by
  refine (keeps_pure _).ite ?_
  refine (keeps_request_of_found (createMultipart_found _)).bind ?_
  intro reply
  refine (keeps_requireSuccess _).bind ?_
  intro id
  exact (keeps_persistUploadId id).bind fun _ => keeps_pure _

lemma keeps_uploadMissing (handle : OpenHandle) (numbers : List Nat) (etags : List Text) :
    Keeps (OnFound Q) (uploadMissing service network c handle numbers etags) := by
  induction numbers generalizing etags with
  | nil => apply keeps_pure
  | cons i rest ih =>
    refine Keeps.ite ?_ (ih _)
    refine (keeps_request_of_found (uploadPart_found _ _ _)).bind ?_
    intro reply
    refine (keeps_requireSuccess _).bind ?_
    intro etag
    exact (keeps_throw _).ite (ih _)

lemma keeps_commitEntry (identity : CacheIdentity) :
    Keeps (OnFound Q) (commitEntry c identity) := by
  intro world h
  rw [run_commitEntry]
  split
  all_goals exact h

section
variable {world world' : World} {handle handle' : OpenHandle}
  (h : (ensureMultipart service network c handle).run world = (.ok handle', world'))
include h

lemma ensureMultipart_handle : ∃ id, handle' = { handle with uploadId := id } := by
  rw [ensureMultipart] at h
  split at h
  · obtain rfl : handle = handle' := by injection h with h; injection h
    exact ⟨handle.uploadId, rfl⟩
  · rw [run_bind] at h
    split at h
    · rw [run_bind] at h
      split at h
      · rw [run_bind] at h
        split at h
        · injection h with h
          injection h with h
          exact ⟨_, h.symm⟩
        · cases h
      · cases h
    · cases h

lemma ensureMultipart_precondition : handle'.precondition = handle.precondition := by
  obtain ⟨id, rfl⟩ := ensureMultipart_handle h
  rfl

end

lemma keeps_recoverMultipart (admits : Admits handle.precondition Q) :
    Keeps (OnFound Q) (recoverMultipart service network c handle) := by
  apply (keeps_ensureMultipart handle).bind_returned
  intro handle' world world' ensured
  rw [← ensureMultipart_precondition ensured] at admits
  refine (keeps_listCachedParts _ _ _).bind ?_
  intro remote
  refine (keeps_throw _).ite ?_
  refine (keeps_acceptParts _ _ _).bind ?_
  intro etags
  refine (keeps_uploadMissing _ _ _).bind ?_
  exact keeps_completeMultipart admits

lemma keeps_commitRecovered (handle : OpenHandle) :
    Keeps (OnFound Q) (commitRecovered service network c handle) := by
  refine (keeps_head _).bind ?_
  intro object
  exact (keeps_throw _).ite (keeps_commitEntry _)

lemma keeps_recoverCachedWrite (admits : Admits handle.precondition Q) :
    Keeps (OnFound Q) (recoverCachedWrite service network c handle) := by
  apply Keeps.ite
  · exact (keeps_putCachedObject admits).bind fun _ => keeps_commitRecovered _
  · exact (keeps_recoverMultipart admits).bind fun _ => keeps_commitRecovered _

lemma keeps_headRecovering (handle : OpenHandle) :
    Keeps (OnFound Q) (headRecovering service network c handle) := by
  refine (keeps_head _).bind ?_
  intro object
  exact (keeps_commitEntry _).ite (keeps_throw _)

lemma keeps_headCommitted (handle : OpenHandle) (committed : Object) :
    Keeps (OnFound Q) (headCommitted service network c handle committed) := by
  refine (keeps_head _).bind ?_
  intro metadata
  exact (keeps_throw _).ite (keeps_commitEntry _)

lemma keeps_flushReply (handle : OpenHandle) (multipart : Bool) (reply : Reply (Except Nat Object))
    (ambiguous : Bool) :
    Keeps (OnFound Q) (flushReply service network c handle multipart reply ambiguous) := by
  refine (keeps_headRecovering _).ite ?_
  refine (keeps_throw _).ite ?_
  refine (keeps_throw _).ite ?_
  refine (keeps_requireSuccess _).bind ?_
  intro committed
  exact (keeps_commitEntry _).ite (keeps_headCommitted _ _)

lemma keeps_flushCommit {multipart call} {commit}
    (served : ∀ server, Q server.found → Q (commit server).2.found) :
    Keeps (OnFound Q) (flushCommit service network c handle multipart call commit) :=
  (keeps_request served).bind fun _ => keeps_flushReply _ _ _ _

lemma keeps_ownerList (handle : OpenHandle) (pages marker : Nat) (etags : List Text) :
    Keeps (OnFound Q) (ownerList service network c handle pages marker etags) := by
  induction pages generalizing marker etags with
  | zero => apply keeps_throw
  | succ pages ih =>
    refine (keeps_request_of_found (listParts_found _ _)).bind ?_
    intro reply
    refine (keeps_requireSuccess _).bind ?_
    intro page
    refine (keeps_throw _).ite ?_
    refine (keeps_acceptParts _ _ _).bind ?_
    intro etags
    refine (keeps_nextMarker _ _).bind ?_
    rintro (_ | next)
    · apply keeps_pure
    · exact ih _ _

lemma keeps_ownerMultipart (admits : Admits handle.precondition Q) :
    Keeps (OnFound Q) (ownerMultipart service network c handle) := by
  have rest (count : Nat) (etags : List Text) : Keeps (OnFound Q) (do
      let handle ← ensureMultipart service network c handle
      let etags ← uploadMissing service network c handle (range count) etags
      flushCommit service network c handle true .complete
        (completeMultipartUpload service handle.uploadId etags handle.precondition)) := by
    apply (keeps_ensureMultipart handle).bind_returned
    intro handle' world world' ensured
    rw [← ensureMultipart_precondition ensured] at admits
    refine (keeps_uploadMissing _ _ _).bind ?_
    intro etags
    exact keeps_flushCommit (completeMultipartUpload_found admits _ _)
  refine (keeps_throw _).ite ?_
  refine (keeps_throw _).ite ?_
  apply Keeps.ite
  · exact (keeps_pure _).bind (rest _)
  · exact (keeps_ownerList _ _ _ _).bind (rest _)

lemma keeps_recover (admits : Admits handle.precondition Q) (recoverer : Recoverer) :
    Keeps (OnFound Q) (recoverer.recover service network c handle) := by
  cases recoverer with
  | background => exact keeps_recoverCachedWrite admits
  | owner =>
    exact (keeps_flushCommit (putObject_found admits _ _)).ite (keeps_ownerMultipart admits)

lemma keeps_recover_empty (multipart : handle.single c = false) (empty : handle.streamOffset = 0)
    (recoverer : Recoverer) : Keeps (OnFound Q) (recoverer.recover service network c handle) := by
  cases recoverer with
  | background =>
    rw [Recoverer.recover, recoverCachedWrite, multipart]
    apply Keeps.bind
    · apply (keeps_ensureMultipart handle).bind_returned
      intro handle' world world' ensured
      obtain ⟨id, rfl⟩ := ensureMultipart_handle ensured
      refine (keeps_listCachedParts _ _ _).bind ?_
      intro remote
      rw [if_pos empty]
      apply keeps_throw
    · intro _
      exact keeps_commitRecovered _
  | owner =>
    rw [Recoverer.recover, ownerCacheRecovery, multipart, if_neg Bool.false_ne_true, ownerMultipart,
      if_pos empty]
    apply keeps_throw

end

section
variable {w : Writer}

/-- The ETag of the version to replace, and the write id. -/
def base (header : CacheMetaHeader) : Text × Text :=
  (header.etag.take header.etagLength, header.writeId.take header.writeIdLength)

def uncommitted : WriterCall c → Bool
  | .commitWrite _ => false
  | _ => true

lemma effects_base {call} (open_ : uncommitted call = true) :
    ∀ effect ∈ call.effects c w, ∀ v : Writer, base (effect v).header = base v.header := by
  intro effect mem v
  cases call with
  | beginWrite writes =>
    rw [WriterCall.effects, beginWrite] at mem
    split at mem
    · cases mem
    · simp only [mem_append, mem_map, mem_cons, not_mem_nil, or_false] at mem
      obtain ⟨f, -, rfl⟩ | rfl | rfl := mem
      all_goals rfl
  | publishDirty offset length writtenEnd =>
    rw [WriterCall.effects, publishDirty] at mem
    split at mem
    · simp only [mem_append, mem_map, mem_cons, not_mem_nil, or_false] at mem
      obtain ⟨page, -, rfl⟩ | rfl | rfl := mem
      all_goals rfl
    · cases mem
  | setUploadId uploadId =>
    rw [WriterCall.effects, setUploadId] at mem
    split at mem
    · cases mem
    · simp only [mem_cons, not_mem_nil, or_false] at mem
      obtain rfl | rfl | rfl | rfl | rfl := mem
      all_goals rfl
  | commitWrite identity => cases open_
  | grow metaSize dataSize =>
    simp only [WriterCall.effects, mem_cons, not_mem_nil, or_false] at mem
    obtain rfl | rfl := mem
    all_goals rfl

lemma crash_base {call} (open_ : uncommitted call = true) (n : Nat) :
    base (Crash.after (call.effects c w) n w).header = base w.header := by
  refine Crash.after_inv (I := fun v : Writer => base v.header = base w.header) ?_ rfl
  intro effect mem v same
  exact (effects_base open_ effect mem v).trans same

lemma run_base {w' calls} (open_ : ∀ call ∈ calls, uncommitted call = true)
    (run : run (writerStep c) w calls = some w') : base w'.header = base w.header := by
  refine run_inv_along (I := fun v : Writer => base v.header = base w.header)
    (P := fun _ call => uncommitted call = true) ?_ rfl (.of_all (fun call mem _ =>
      open_ call mem) w) run
  intro v call v' same open_ h
  rw [writerStep] at h
  obtain ⟨-, ⟨⟩⟩ := Option.ite_none_right_eq_some.1 h
  rw [← Crash.after_of_length_le (Nat.le_refl _), crash_base open_]
  exact same

lemma base_createWriter {etag versionId writeId} (hw : writeId.length = kCacheWriteIdCapacity) :
    base (createWriter c etag versionId writeId).header = (etag, writeId) := by
  refine Prod.ext ?_ ?_
  · change (memcpy (zeros kCacheEtagCapacity) etag).take etag.length = etag
    rw [memcpy, Bytes.overwrite, take_zero, nil_append, take_left]
  · exact take_of_length_le hw.le

end

def Network.perfect : Network := ⟨fun _ _ => .answered, fun _ _ => []⟩

section
variable {handle : OpenHandle} {world : World}

lemma run_request_perfect {α} (call : Call) (left : Nat)
    (serve : Server → Except Nat α × Server) (world : World) :
    (request service .perfect call left serve).run world =
      (.ok (.answer (serve world.server).1, false),
        { world with server := (serve world.server).2 }) := by
  cases left with
  | zero | succ left => rfl

lemma after_request_perfect {α β call left} {serve} {f : Reply (Except Nat α) × Bool → Recover β}
    (served : Q (serve world.server).2.found) (keeps : ∀ reply, Keeps (OnFound Q) (f reply)) :
    OnFound Q ((request service .perfect call left serve >>= f).run world).2 := by
  apply after_bind
  · rw [run_request_perfect]
    exact served
  · exact keeps

structure HasParts (server : Server) (id : Text) (etags : List Text) (count : Nat) : Prop where
  parts : ∃ upload, server.upload? id = some upload ∧
    ∀ i < count, ∃ part, upload.parts (i + 1) = some part ∧ part.etag = etags.getD i []

variable {server : Server} {id : Text} {etags : List Text}

lemma uploadPart_perfect (service : Service) {i} (size : Nat) (has : HasParts server id etags i)
    (room : i < etags.length) (small : i + 1 ≤ kMaximumMultipartParts) :
    ∃ etag, (uploadPart service id (i + 1) size server).1 = .ok etag ∧ etag ≠ [] ∧
      (uploadPart service id (i + 1) size server).2.object = server.object ∧
      HasParts (uploadPart service id (i + 1) size server).2 id (etags.set i etag) (i + 1) := by
  obtain ⟨upload, live, parts⟩ := has.parts
  have number : ¬ (i + 1 = 0 ∨ kMaximumMultipartParts < i + 1) := by omega
  have same : upload.id = id := by
    rw [Server.upload?] at live
    have named := find?_some live
    exact of_decide_eq_true named
  rw [uploadPart, live]
  dsimp only
  rw [if_neg number]
  refine ⟨_, rfl, service.partEtag_ne_nil _, rfl, ⟨_, find?_cons_of_pos (decide_eq_true same), ?_⟩⟩
  intro j lt
  obtain lt | rfl := Nat.lt_succ_iff_lt_or_eq.1 lt
  · obtain ⟨part, found, etag⟩ := parts j lt
    refine ⟨part, ?_, ?_⟩
    · change Function.update upload.parts (i + 1) _ (j + 1) = _
      rw [Function.update_of_ne (by omega)]
      exact found
    · rw [etag, getD_eq_getElem?_getD, getD_eq_getElem?_getD, getElem?_set_ne (by omega)]
  · refine ⟨_, Function.update_self _ _ _, ?_⟩
    rw [getD_eq_getElem?_getD, getElem?_set_self room]
    rfl

lemma run_uploadMissing_perfect (service : Service) (i count : Nat) (world : World)
    (total : etags.length = i + count) (missing : ∀ j, i ≤ j → etags.getD j [] = [])
    (small : i + count ≤ kMaximumMultipartParts)
    (has : HasParts world.server handle.uploadId etags i) :
    ∃ etags' world', (uploadMissing service .perfect c handle (range' i count) etags).run world =
        (.ok etags', world') ∧ etags'.length = i + count ∧
      world'.object = world.object ∧
      HasParts world'.server handle.uploadId etags' (i + count) := by
  induction count generalizing i etags world with
  | zero => exact ⟨etags, world, rfl, total, rfl, has⟩
  | succ count ih =>
    obtain ⟨etag, answer, ne, object, more⟩ := uploadPart_perfect service
      (partLength c handle.streamOffset i) has (by omega) (by omega)
    rw [range'_succ, uploadMissing, if_pos (missing i le_rfl), run_bind, run_request_perfect]
    rw [answer]
    change ∃ etags' world', (ite _ _ _ : Recover _).run _ = _ ∧ _
    rw [if_neg ne]
    have later : ∀ j, i + 1 ≤ j → (etags.set i etag).getD j [] = [] := by
      intro j le
      rw [getD_eq_getElem?_getD, getElem?_set_ne (by omega), ← getD_eq_getElem?_getD]
      exact missing j (by omega)
    obtain ⟨etags', world', ran, length, kept, parts⟩ := ih (i + 1)
      { world with server := (uploadPart service handle.uploadId (i + 1) _ world.server).2 }
      (by rw [length_set]; omega) later (by omega) more
    refine ⟨etags', world', ran, by omega, kept.trans object, ?_⟩
    rwa [Nat.add_right_comm, Nat.add_assoc] at parts

variable {upload : Upload}

lemma assemble_of_parts (number : Nat)
    (parts : ∀ i < etags.length, ∃ part, upload.parts (number + i) = some part ∧ part.etag =
      etags.getD i []) :
    ∃ size, upload.assemble number etags = some size := by
  induction etags generalizing number with
  | nil => exact ⟨0, rfl⟩
  | cons etag etags ih =>
    obtain ⟨part, found, same⟩ := parts 0 (Nat.succ_pos _)
    obtain ⟨size, rest⟩ := ih (number + 1) (by
      intro i lt
      obtain ⟨part, found, same⟩ := parts (i + 1) (Nat.succ_lt_succ lt)
      refine ⟨part, ?_, same⟩
      rwa [Nat.add_assoc, Nat.add_comm 1])
    refine ⟨part.size + size, ?_⟩
    rw [Upload.assemble, show upload.parts number = some part from found]
    dsimp only
    rw [if_pos (show part.etag = etag from same), rest]
    rfl

lemma completeMultipartUpload_perfect {condition} (has : HasParts server id etags etags.length)
    (permitted : condition.permits server.object = true) :
    server.object ∈ (completeMultipartUpload service id etags condition server).2.found := by
  obtain ⟨upload, live, parts⟩ := has.parts
  obtain ⟨size, assembled⟩ := assemble_of_parts 1 (fun i lt => by
    rw [Nat.add_comm]
    exact parts i lt)
  rw [completeMultipartUpload, live]
  dsimp only
  rw [assembled]
  rw [Option.isNone_iff_eq_none.1 permitted]
  exact mem_cons_self

lemma hasParts_zero (live : server.upload? id = some upload) : HasParts server id etags 0 :=
  ⟨upload, live, fun _ lt => absurd lt (Nat.not_lt_zero _)⟩

lemma run_ensureMultipart_perfect
    (short : ∀ n, (service.uploadId n).length ≤ kCacheUploadIdCapacity) (world : World)
    (fresh : handle.uploadId ≠ [] →
      ∃ upload, world.server.upload? handle.uploadId = some upload ∧ upload.parts = fun _ => none) :
    ∃ id world', (ensureMultipart service .perfect c handle).run world =
        (.ok { handle with uploadId := id }, world') ∧ world'.object = world.object ∧
      ∃ upload, world'.server.upload? id = some upload ∧ upload.parts = fun _ => none := by
  rw [ensureMultipart]
  split
  · rename_i named
    exact ⟨handle.uploadId, world, rfl, rfl, fresh named⟩
  · rw [run_bind, run_request_perfect]
    change ∃ id world', ((persistUploadId c (service.uploadId world.serial) >>= fun _ =>
      (pure { handle with uploadId := service.uploadId world.serial } : Recover _)).run _) = _ ∧ _
    rw [run_bind, run_persistUploadId, if_neg (Nat.not_lt.2 (short _))]
    exact ⟨_, _, rfl, rfl, _, find?_cons_of_pos (decide_eq_true rfl), rfl⟩

lemma listParts_empty (marker : Nat) (live : server.upload? id = some upload)
    (none_ : upload.parts = fun _ => none) :
    listParts id marker server = (.ok ([], none), server) := by
  have empty (numbers : List Nat) : numbers.filterMap upload.parts = [] := by
    rw [none_]
    exact filterMap_eq_nil_iff.2 fun _ _ => rfl
  rw [listParts, live]
  dsimp only
  rw [empty]
  rfl

def Commits (c : WriterKey) (handle : OpenHandle) : Prop :=
  handle.single c = true ∨
    0 < handle.streamOffset ∧ partCount c handle.streamOffset ≤ kMaximumMultipartParts

lemma uploadMissing_then_complete {β count Q}
    (small : count ≤ kMaximumMultipartParts) (world : World)
    (live : world.server.upload? handle.uploadId = some upload)
    (permitted : handle.precondition.permits world.object = true)
    (found : ∀ list : List (Option Object), world.object ∈ list → Q list) {call}
    {f : Reply (Except Nat Object) × Bool → Recover β}
    (keeps : ∀ reply, Keeps (OnFound Q) (f reply)) :
    OnFound Q ((uploadMissing service .perfect c handle (range count) (replicate count []) >>=
      fun etags => request service .perfect call 3 (completeMultipartUpload service
        handle.uploadId etags handle.precondition) >>= f).run world).2 := by
  have missing : ∀ j, 0 ≤ j → (replicate count ([] : Text)).getD j [] = [] := by
    intro j _
    rw [getD_eq_getElem?_getD, getElem?_replicate]
    split
    all_goals rfl
  obtain ⟨etags, world', ran, length, object, parts⟩ := run_uploadMissing_perfect
    (c := c) service 0 count world (by rw [length_replicate, Nat.zero_add]) missing
    (by omega) (hasParts_zero live)
  rw [range_eq_range', run_bind, ran]
  apply after_request_perfect
  · apply found
    rw [← object]
    apply completeMultipartUpload_perfect
    · rw [length]
      exact parts
    · rw [object]
      exact permitted
  · exact keeps

lemma recover_replaces (world : World) (recoverer : Recoverer)
    (short : ∀ n, (service.uploadId n).length ≤ kCacheUploadIdCapacity)
    (unconditional : handle.precondition = .unconditional) (commits : Commits c handle)
    (fresh : handle.uploadId ≠ [] →
      ∃ upload, world.server.upload? handle.uploadId = some upload ∧ upload.parts = fun _ => none) :
    world.object ∈ ((recoverer.recover service .perfect c handle).run world).2.found := by
  have put : world.object ∈ (putObject service handle.writeId handle.streamOffset
      handle.precondition world.server).2.found := by
    rw [putObject, unconditional]
    exact mem_cons_self
  change OnFound (world.object ∈ ·) _
  cases single : handle.single c with
  | true =>
    cases recoverer with
    | background =>
      rw [Recoverer.recover, recoverCachedWrite, single, if_pos rfl]
      apply after_bind
      · exact after_request_perfect put fun _ => keeps_putReply _ _ _
      · intro _
        exact keeps_commitRecovered _
    | owner =>
      rw [Recoverer.recover, ownerCacheRecovery, single, if_pos rfl]
      exact after_request_perfect put fun _ => keeps_flushReply _ _ _ _
  | false =>
    obtain h | ⟨positive, small⟩ := commits
    · rw [single] at h
      cases h
    obtain ⟨id, world', ensured, object, upload, live, empty⟩ :=
      run_ensureMultipart_perfect (c := c) short world fresh
    have permitted : { handle with uploadId := id : OpenHandle }.precondition.permits
        world'.object = true := by
      change handle.precondition.permits _ = true
      rw [unconditional]
      rfl
    have seen : ∀ list : List (Option Object), world'.object ∈ list →
        world.object ∈ list := by
      intro list mem
      rwa [object] at mem
    cases recoverer with
    | background =>
      rw [Recoverer.recover, recoverCachedWrite, single, if_neg Bool.false_ne_true]
      apply after_bind
      · rw [recoverMultipart, run_bind, ensured]
        dsimp only
        have listed : (listCachedParts service .perfect { handle with uploadId := id }
            (kMaximumMultipartParts + 1) 0).run world' = (.ok [], world') := by
          rw [listCachedParts, run_bind, run_request_perfect, listParts_empty 0 live empty]
          rfl
        rw [run_bind, listed]
        dsimp only
        rw [if_neg positive.ne']
        exact uploadMissing_then_complete small world' live permitted seen
          fun _ => keeps_completeReply _ _ _
      · intro _
        exact keeps_commitRecovered _
    | owner =>
      rw [Recoverer.recover, ownerCacheRecovery, single, if_neg Bool.false_ne_true, ownerMultipart]
      rw [if_neg positive.ne', if_neg (Nat.not_lt.2 small)]
      have rest : OnFound (world.object ∈ ·) ((do
          let ensured ← ensureMultipart service .perfect c handle
          let etags ← uploadMissing service .perfect c ensured
            (range (partCount c handle.streamOffset))
            (replicate (partCount c handle.streamOffset) [])
          flushCommit service .perfect c ensured true .complete
            (completeMultipartUpload service ensured.uploadId etags ensured.precondition)).run
              world).2 := by
        rw [run_bind, ensured]
        exact uploadMissing_then_complete small world' live permitted seen
          fun _ => keeps_flushReply _ _ _ _
      split
      · rw [pure_bind]
        exact rest
      · rename_i named
        obtain ⟨upload, live, empty⟩ := fresh named
        have listed : (ownerList service .perfect c handle (kMaximumMultipartParts + 1) 0
            (replicate (partCount c handle.streamOffset) [])).run world =
              (.ok (replicate (partCount c handle.streamOffset) []), world) := by
          rw [ownerList, run_bind, run_request_perfect, listParts_empty 0 live empty]
          rfl
        rw [run_bind, listed]
        exact rest

end

def Allowed (handle : OpenHandle) (found : Option Object) : Prop :=
  handle.precondition.permits found = true ∨
    ∃ object, found = some object ∧ object.writeId = handle.writeId

def openedHandle (etag versionId writeId : Text) (createExclusive : Bool) : OpenHandle :=
  ⟨etag, versionId, [], writeId, 0, createExclusive⟩

lemma allowed_exclusive {versionId writeId found} :
    Allowed (openedHandle [] versionId writeId true) found ↔
      found = none ∨ ∃ object, found = some object ∧ object.writeId = writeId := by
  cases found with
  | none => exact ⟨fun _ => .inl rfl, fun _ => .inl rfl⟩
  | some object =>
    constructor
    all_goals
      rintro (h | h)
      · cases h
      · exact .inr h

def Uploads (c : WriterKey) (w : Writer) : Prop :=
  (∃ writtenEnd, recoverDirty c w = .accepted writtenEnd) ∧ Commits c (recoveredHandle w.header)

section
variable {w : Writer} {recoverer : Recoverer} {server : Server}

lemma nextMount_found (keeps : ∀ writtenEnd, recoverDirty c w = .accepted writtenEnd →
      Keeps (OnFound Q) (recoverer.recover service network c (recoveredHandle w.header)))
    (h : Q server.found) : Q (nextMount service network c recoverer w server).found := by
  rw [nextMount]
  split
  · rename_i writtenEnd accepted
    exact keeps writtenEnd accepted ⟨server, reopen w⟩ h
  · exact h

def plainService : Service where
  etag n := [UInt8.ofNat n]
  versionId _ := []
  mtime n := n
  uploadId _ := [117]
  partEtag _ := [112]
  lastModified := false
  uploadId_ne_nil _ := nofun
  partEtag_ne_nil _ := nofun

def stranger : Object := ⟨0, [115], [], [], 0, 0⟩

/-- Another client has written the key and an upload is in progress. -/
def taken (uploadId : Text) : Server where
  object := some stranger
  uploads := [⟨uploadId, [], fun _ => none⟩]
  serial := 1
  found := []

lemma nextMount_replaces (uploads : Uploads c w)
    (unconditional : (recoveredHandle w.header).precondition = .unconditional) :
    some stranger ∈ (nextMount plainService .perfect c recoverer w
      (taken (recoveredHandle w.header).uploadId)).found := by
  obtain ⟨⟨writtenEnd, accepted⟩, commits⟩ := uploads
  have fresh : (recoveredHandle w.header).uploadId ≠ [] → ∃ upload,
      (taken (recoveredHandle w.header).uploadId).upload? (recoveredHandle w.header).uploadId =
        some upload ∧ upload.parts = fun _ => none :=
    fun _ => ⟨_, find?_cons_of_pos (decide_eq_true rfl), rfl⟩
  rw [nextMount, accepted]
  exact recover_replaces ⟨taken _, reopen w⟩ recoverer
    (fun _ => (by decide : ([117] : Text).length ≤ kCacheUploadIdCapacity))
      unconditional commits fresh

end

/-- Let a writer be created, exclusively or for a version, let it be called any number of times and
let the process die in the middle of a call before its commit. Whatever the service, the network and
other clients do, the next mount replaces nothing that the handle's own flush would have been
refused to replace, if and only if the file was not created exclusively or the write is never
uploaded: that the file was created exclusively is not kept in the metadata. -/
theorem recovery_precondition_iff (recoverer : Recoverer) {etag versionId writeId : Text}
    (hw : writeId.length = kCacheWriteIdCapacity) (exclusive : Bool) {calls : List (WriterCall c)}
    {w : Writer} (run : run (writerStep c) (createWriter c etag versionId writeId) calls = some w)
    (before : ∀ call ∈ calls, uncommitted call = true) {call : WriterCall c}
    (last : uncommitted call = true) (n : Nat)
    (bounded : partCount c (Crash.after (call.effects c w) n w).header.writtenEnd ≤
      kMaximumMultipartParts) :
    (∀ service network (server : Server), ∀ found ∈ (nextMount service network c recoverer
        (Crash.after (call.effects c w) n w) { server with found := [] }).found,
        Allowed (openedHandle etag versionId writeId exclusive) found) ↔
      etag ≠ [] ∨ exclusive = false ∨ ¬ Uploads c (Crash.after (call.effects c w) n w) := by
  have kept : base (Crash.after (call.effects c w) n w).header = (etag, writeId) :=
    (crash_base last n).trans ((run_base before run).trans (base_createWriter hw))
  generalize Crash.after (call.effects c w) n w = crashed at kept bounded ⊢
  obtain ⟨etagKept, -⟩ := Prod.mk.inj kept
  have recovered : (recoveredHandle crashed.header).precondition =
      if etag ≠ [] then .ifMatch etag else .unconditional := by
    rw [← etagKept]
    rfl
  constructor
  · intro safe
    by_contra fails
    simp only [not_or, ne_eq, not_not, Bool.not_eq_false] at fails
    obtain ⟨rfl, rfl, uploads⟩ := fails
    have allowed := safe plainService .perfect (taken _) _ (nextMount_replaces uploads recovered)
    rw [allowed_exclusive] at allowed
    obtain none_ | ⟨object, found, own⟩ := allowed
    · cases none_
    · cases found
      rw [← own] at hw
      cases hw
  · intro guarded service network server
    apply nextMount_found (Q := fun list => ∀ found ∈ list, Allowed _ found)
    · intro writtenEnd accepted
      have same (h : (recoveredHandle crashed.header).precondition =
          (openedHandle etag versionId writeId exclusive).precondition) :
          Keeps (OnFound fun list => ∀ found ∈ list,
            Allowed (openedHandle etag versionId writeId exclusive) found)
            (recoverer.recover service network c (recoveredHandle crashed.header)) := by
        apply keeps_recover
        intro object list permitted rest found mem
        obtain rfl | mem := mem_cons.1 mem
        · left
          rw [← h]
          exact permitted
        · exact rest found mem
      obtain known | rfl | idle := guarded
      · apply same
        rw [recovered, if_pos known]
        exact (if_pos known).symm
      · exact same recovered
      · have notCommits : ¬ Commits c (recoveredHandle crashed.header) :=
          fun commits => idle ⟨⟨writtenEnd, accepted⟩, commits⟩
        obtain ⟨multipart, empty⟩ := not_or.1 notCommits
        apply keeps_recover_empty (Bool.eq_false_iff.2 multipart)
        by_contra positive
        exact empty ⟨Nat.pos_of_ne_zero positive, bounded⟩
    · exact nofun

def tenPublished : List (WriterCall keyA) := tenBytes ++ [.publishDirty 0 10 10]

def ownWriteId : Text := replicate 32 119

lemma flushing_pos : ∀ size ∈ [1056], 0 < size := by decide

lemma flushing_sum : [1056].sum = keyA.marker.record.length :=
  (length_dirtyMarker (by decide)).symm

def flushing : WriterCall keyA := .beginWrite ⟨[1056], flushing_pos, flushing_sum⟩

theorem recovery_precondition_replacement : ∃ w,
    run (writerStep keyA) (createWriter keyA [98] [] ownWriteId) tenPublished = some w ∧
    recoverDirty keyA (Crash.after (flushing.effects keyA w) 0 w) = .accepted 10 ∧
    ∀ service network (server : Server), ∀ found ∈ (nextMount service network keyA .background
      (Crash.after (flushing.effects keyA w) 0 w) { server with found := [] }).found,
      Allowed (openedHandle [98] [] ownWriteId false) found := by
  have ran : run (writerStep keyA) (createWriter keyA [98] [] ownWriteId) tenPublished =
      some _ := run_final (by decide +kernel)
  refine ⟨_, ran, by decide +kernel, ?_⟩
  refine (recovery_precondition_iff .background (by decide) false ran (by decide +kernel) rfl 0
    ?_).2 (.inl (by decide))
  decide +kernel

/-- A file created exclusively is recovered over the object of another client. -/
theorem recovery_overwrites_stranger : ∃ w,
    run (writerStep keyA) (createWriter keyA [] [] ownWriteId) tenPublished = some w ∧
    ∀ recoverer, some stranger ∈ (nextMount plainService .perfect keyA recoverer
      w (taken [])).found ∧
      ¬ Allowed (openedHandle [] [] ownWriteId true) (some stranger) := by
  have ran : run (writerStep keyA) (createWriter keyA [] [] ownWriteId) tenPublished =
      some _ := run_final (by decide +kernel)
  refine ⟨_, ran, ?_⟩
  intro recoverer
  constructor
  · cases recoverer with
    | background | owner => decide +kernel
  · rw [allowed_exclusive]
    rintro (h | ⟨object, found, own⟩)
    · cases h
    · cases found
      cases own

end Ngs3fs.Recovery
