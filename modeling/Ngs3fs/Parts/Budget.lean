import Ngs3fs.Lib.Machine
import Ngs3fs.Lib.Sums

/-!
# Part memory and upload slots

A write keeps up to `part_size` bytes in pipes until they are uploaded. `reserve_part_budget` and
`release_part_budget` count the memory of all writes, `UploadScheduler` the uploads that run. Here
is what one request, upload, flush or release does between two points at which another thread can
go on; `Ngs3fs.Parts.System` puts them together. The legacy engine has a thread for each request
and uploads on the worker threads of the scheduler. With a reactor, requests and uploads are
objects that go on with every completion; a single reactor prepares the last request of a write on
a worker thread, several reactors do it themselves. -/

namespace Ngs3fs.Parts

inductive Engine where
  | legacy
  | single
  | multi
  deriving DecidableEq

/-- `parse_options` refuses a budget below the size of one part. -/
structure Config where
  partSize : Nat
  maxPinnedMemory : Nat
  maxUploads : Nat
  engine : Engine
  part_le : partSize ≤ maxPinnedMemory

def kMaximumMultipartParts : Nat := 10000

/-! ## The two counters -/

/-- `underflow` records the warning of `release_part_budget`. -/
structure Budget where
  pinnedBytes : Nat
  nextTicket : Nat
  servingTicket : Nat
  waitingWriters : Nat
  underflow : Bool
  deriving DecidableEq

namespace Budget
variable (c : Config) (b : Budget)

def available : Bool := decide (b.pinnedBytes ≤ c.maxPinnedMemory - c.partSize)

/-- `reserve_part_budget` can go on at once. -/
def open? : Bool := b.available c && b.waitingWriters == 0

/-- The end of `reserve_part_budget`. -/
def pin : Budget := { b with pinnedBytes := b.pinnedBytes + c.partSize }

def queue : Budget :=
  { b with nextTicket := b.nextTicket + 1, waitingWriters := b.waitingWriters + 1 }

def serve : Budget :=
  { b with
    pinnedBytes := b.pinnedBytes + c.partSize
    waitingWriters := b.waitingWriters - 1
    servingTicket := b.servingTicket + 1 }

/-- `release_part_budget`. -/
def release : Budget :=
  if b.pinnedBytes < c.partSize then { b with pinnedBytes := 0, underflow := true }
  else { b with pinnedBytes := b.pinnedBytes - c.partSize }

end Budget

/-- `task` is the upload that it runs, if it is one. -/
structure Job where
  owner : Nat
  task : Option Nat
  deriving DecidableEq

/-- With the owner jobs that `shutdown` has taken out; `aborted` records the `abort` of
`finish_upload`. -/
structure Scheduler where
  jobs : List Job
  ownerJobs : List Nat
  cancelled : List Nat
  activeUploads : Nat
  lastOwner : Option Nat
  stopping : Bool
  aborted : Bool
  deriving DecidableEq

namespace Scheduler
variable (c : Config) (u : Scheduler)

/-- The `eligible` of `worker`. -/
def eligible (job : Job) : Bool := job.task.isNone || decide (u.activeUploads < c.maxUploads)

/-- The first that `worker` may take, or the first of another owner than the last one. -/
def selected : Option Nat :=
  let other (job : Job) : Bool :=
    u.lastOwner.isSome && some job.owner != u.lastOwner && u.eligible c job
  (u.jobs.findIdx? other).or (u.jobs.findIdx? (u.eligible c))

/-- `worker` takes a job. -/
def take : Option (Job × Scheduler) := do
  let i ← u.selected c
  let job ← u.jobs[i]?
  let active := if job.task.isSome then u.activeUploads + 1 else u.activeUploads
  some (job, { u with jobs := u.jobs.eraseIdx i, lastOwner := some job.owner, activeUploads :=
    active })

/-- Once nothing throws. -/
def submit (job : Job) : Scheduler := { u with jobs := u.jobs ++ [job] }

/-- With the owner job that gets the slot. -/
def finishUpload : Option Nat × Scheduler :=
  if u.activeUploads = 0 then (none, { u with aborted := true })
  else
    match u.stopping, u.ownerJobs with
    | false, next :: rest => (some next, { u with ownerJobs := rest })
    | _, _ => (none, { u with activeUploads := u.activeUploads - 1 })

end Scheduler

/-! ## Handles -/

inductive WriteState where
  | opened
  | sealing
  | sealed
  | failed
  deriving DecidableEq

/-- Open, closed while requests are still running, or gone; `abandoned` if the `RELEASE` request
itself has failed. -/
inductive Life where
  | opened
  | closing
  | retired
  | abandoned
  deriving DecidableEq

/-- `currentPart` is the number of bytes of the part. -/
structure Handle where
  writeState : WriteState
  currentPart : Option Nat
  currentReservation : Bool
  multipartRequired : Bool
  multipartStarting : Bool
  uploadId : Bool
  nextPartNumber : Nat
  pendingParts : Nat
  streamOffset : Nat
  writeInProgress : Bool
  unlinked : Bool
  cached : Bool
  life : Life
  deriving DecidableEq

namespace Handle
variable (h : Handle)

def fresh (cached reservation : Bool) : Handle where
  writeState := .opened
  currentPart := none
  currentReservation := reservation
  multipartRequired := false
  multipartStarting := false
  uploadId := false
  nextPartNumber := 1
  pendingParts := 0
  streamOffset := 0
  writeInProgress := false
  unlinked := false
  cached := cached
  life := .opened

def failWrite : Handle := { h with writeState := .failed }

def endWrite (length : Nat) (error : Bool) : Handle :=
  let h := { h with writeInProgress := false }
  if error then h.failWrite else { h with streamOffset := h.streamOffset + length }

def takePart : Handle := { h with currentPart := none, currentReservation := false }

end Handle

/-- An allocation before the counters change, one after it (or the reservation of the completion),
or one in the queue of the scheduler. -/
inductive Fault where
  | none
  | early
  | late
  | queue
  deriving DecidableEq

inductive Outcome where
  | ok
  | moved (count : Nat) (fault : Fault)
  | torn (count : Nat)
  | submit (fault : Fault)
  | again
  | head
  | fail
  deriving DecidableEq

inductive Effect where
  | none
  | reserve
  | queue
  | serve
  | release
  /-- a part is submitted -/
  | submit (budgeted : Bool) (fault : Fault)
  /-- the flush itself is submitted -/
  | admission (fault : Fault)
  | finishUpload
  deriving DecidableEq

/-! ## Submission of a part -/

section
variable (c : Config) (stopping : Bool) (h : Handle) (fault : Fault)

/-- After the handle has changed. The owner queue does not count: `submit_async_part` then completes
the upload with the error. -/
def throwsLate : Bool :=
  match c.engine with
  | .legacy => stopping || fault == .late || fault == .queue
  | _ => fault == .late

def throwsEarly : Bool :=
  decide (kMaximumMultipartParts < h.nextPartNumber) || fault == .early

def Handle.submitted : Handle :=
  { h with
    nextPartNumber := h.nextPartNumber + 1
    multipartRequired := true
    pendingParts := h.pendingParts + 1 }

/-- `submit_async_part`. -/
def submitPart : Bool := !throwsEarly h fault && !throwsLate c stopping fault

/-- The roll back leaves `multipart_required` as it is. -/
def submitCachedPart : Bool × Handle :=
  if throwsEarly h fault then (false, h)
  else if throwsLate c stopping fault then (false, { h with multipartRequired := true })
  else (true, h.submitted)

/-- The loop of `submit_ready_cached_parts` has a part to submit. -/
def partReady (final : Bool) : Bool :=
  let offset := (h.nextPartNumber - 1) * c.partSize
  decide (offset < h.streamOffset) && (final || decide (c.partSize ≤ h.streamOffset - offset))

end

/-! ## Writes -/

/-- `UncachedFileWriter::write`, with `ensure_current_part`. -/
inductive WriteStage where
  | ensure
  | reserving
  | waiting (ticket : Nat)
  | reserved
  | giveBack (throws : Bool)
  | fill
  deriving DecidableEq

/-- `AsyncUncachedWrite`. -/
inductive OwnerWriteStage where
  | start
  | process
  | reserved
  | backed
  | transfer
  | giveBack
  deriving DecidableEq

/-- `CachedFileWriter::write` and `AsyncCachedWrite`. -/
inductive CachedWriteStage where
  | start
  | store
  | parts
  deriving DecidableEq

/-! ## Uploads of parts -/

/-- `AsyncPartUpload`; `running`, `creating` and `uploading` are `upload_part_job`. -/
inductive PartStage where
  | queued
  | ready
  | preparing
  | prepared (error : Bool)
  | waitingStart
  | requesting
  | persisting
  | retrying
  | running
  | creating
  | uploading
  | finishing (error : Bool)
  | released (error : Bool)
  | told
  deriving DecidableEq

/-- `budgeted` says that it has the memory of a retained part. -/
structure Part where
  stage : PartStage
  budgeted : Bool
  creating : Bool
  attempt : Nat
  deriving DecidableEq

/-! ## Flushes -/

/-- `AsyncFlushRequest`. -/
inductive FlushStage where
  | start
  | prepare
  | giveBack (throws : Bool)
  | pending
  | admission
  | queued
  | ready
  | preparing
  | prepared (error : Bool)
  | requesting
  | retrying
  | heading
  | committing
  | finishing (error : Bool)
  | freed (error : Bool)
  | telling (error : Bool)
  deriving DecidableEq

structure Flush where
  stage : FlushStage
  ownsSeal : Bool
  partsPrepared : Bool
  reserved : Bool
  attempt : Nat
  deriving DecidableEq

/-- `seal_write` and `CachedFileWriter::flush`. -/
inductive SealStage where
  | start
  | taking
  | giveBack (throws : Bool)
  | putting
  | freeing (error : Bool)
  | waiting
  | completing
  | settle (error : Bool)
  deriving DecidableEq

inductive Work where
  | write (stage : WriteStage) (length remaining : Nat)
  | ownerWrite (stage : OwnerWriteStage) (length remaining : Nat)
  | cachedWrite (stage : CachedWriteStage) (length : Nat)
  | part (p : Part)
  | flush (f : Flush)
  | sealWrite (stage : SealStage) (reserved : Bool)
  | retire (budget : Bool)
  | done
  deriving DecidableEq

structure Next where
  handle : Handle
  work : Work
  effect : Effect

section
variable (c : Config) (b : Budget) (stopping slot : Bool) (h : Handle)

/-- The handle after it, the effect, and whether it throws. -/
def submitCurrentPart (fault : Fault) : Handle × Effect × Bool :=
  if h.currentPart = some c.partSize then
    if submitPart c stopping h fault then (h.takePart.submitted, .submit true fault, false)
    else (h.takePart, .none, true)
  else (h, .none, false)

def Handle.retain (count : Nat) : Handle :=
  { h with currentPart := some (h.currentPart.getD 0 + count) }

def Handle.hasRoom (count : Nat) : Bool :=
  decide (h.currentPart.getD 0 + count ≤ c.partSize)

def writeStep (stage : WriteStage) (length remaining : Nat) : Outcome → Option Next
  | outcome =>
    match stage, outcome with
    | .ensure, _ =>
      if h.currentReservation then some ⟨h, .write .fill length remaining, .none⟩
      else some ⟨h, .write .reserving length remaining, .none⟩
    | .reserving, _ =>
      if b.open? c then some ⟨h, .write .reserved length remaining, .reserve⟩
      else some ⟨h, .write (.waiting b.nextTicket) length remaining, .queue⟩
    | .waiting ticket, _ =>
      if ticket = b.servingTicket ∧ b.available c then
        some ⟨h, .write .reserved length remaining, .serve⟩
      else none
    | .reserved, _ =>
      if h.writeState ≠ .opened then some ⟨h, .write (.giveBack true) length remaining, .none⟩
      else if h.currentReservation then
        some ⟨h, .write (.giveBack false) length remaining, .none⟩
      else some ⟨{ h with currentReservation := true }, .write .fill length remaining, .none⟩
    | .giveBack true, _ => some ⟨h.endWrite length true, .done, .release⟩
    | .giveBack false, _ => some ⟨h, .write .fill length remaining, .release⟩
    -- the bytes are retained, and the part goes out if it is full
    | .fill, .moved count fault =>
      if 0 < count ∧ count ≤ remaining ∧ h.hasRoom c count then
        match submitCurrentPart c stopping (h.retain count) fault with
        | (h, _, true) => some ⟨h, .write (.giveBack true) length remaining, .none⟩
        | (h, effect, false) =>
          if remaining = count then some ⟨h.endWrite length false, .done, effect⟩
          else some ⟨h, .write .ensure length (remaining - count), effect⟩
      else none
    -- a pipe fails after some of the bytes
    | .fill, .torn count =>
      if h.hasRoom c count then some ⟨(h.retain count).endWrite length true, .done, .none⟩ else none
    | .fill, _ => some ⟨h.endWrite length true, .done, .none⟩

/-- The end of `AsyncWriteRequest::finish`. -/
def Handle.endOwnerWrite (length : Nat) (error : Bool) : Handle :=
  h.endWrite length (error || h.writeState == .failed)

/-- `AsyncUncachedWrite`. -/
def ownerWriteStep (stage : OwnerWriteStage) (length remaining : Nat) : Outcome → Option Next
  | outcome =>
    match stage, outcome with
    | .start, .ok =>
      if h.unlinked ∨ h.writeState ≠ .opened then some ⟨h, .done, .none⟩
      else if h.writeInProgress then some ⟨h, .ownerWrite .start length remaining, .none⟩
      else some ⟨{ h with writeInProgress := true }, .ownerWrite .process length remaining, .none⟩
    | .start, _ => some ⟨h, .done, .none⟩
    | .process, .ok =>
      if remaining = 0 then some ⟨h.endOwnerWrite length false, .done, .none⟩
      else if h.writeState = .failed ∨ h.unlinked then
        some ⟨h.endOwnerWrite length true, .done, .none⟩
      else if h.currentReservation then some ⟨h, .ownerWrite .backed length remaining, .none⟩
      else if b.open? c then some ⟨h, .ownerWrite .reserved length remaining, .reserve⟩
      -- the request waits for `budget_event`
      else some ⟨h, .ownerWrite .process length remaining, .none⟩
    | .reserved, _ =>
      some ⟨{ h with currentReservation := true }, .ownerWrite .backed length remaining, .none⟩
    | .backed, .ok => some ⟨h.retain 0, .ownerWrite .transfer length remaining, .none⟩
    | .backed, .torn _ => some ⟨(h.retain 0).endOwnerWrite length true, .done, .none⟩
    | .transfer, .moved count fault =>
      if 0 < count ∧ count ≤ remaining ∧ h.hasRoom c count then
        match submitCurrentPart c stopping (h.retain count) fault with
        | (h, _, true) => some ⟨h, .ownerWrite .giveBack length remaining, .none⟩
        | (h, effect, false) => some ⟨h, .ownerWrite .process length (remaining - count), effect⟩
      else none
    | .transfer, .again => some ⟨h, .ownerWrite .process length remaining, .none⟩
    | .giveBack, _ => some ⟨h.endOwnerWrite length true, .done, .release⟩
    | .process, _ | .backed, _ | .transfer, _ => some ⟨h.endOwnerWrite length true, .done, .none⟩

/-- `AsyncCachedWrite`. -/
def cachedWriteStep (stage : CachedWriteStage) (length : Nat) : Outcome → Option Next
  | outcome =>
    match stage, outcome with
    | .start, .ok =>
      if h.unlinked ∨ h.writeState ≠ .opened then some ⟨h, .done, .none⟩
      else if h.writeInProgress then some ⟨h, .cachedWrite .start length, .none⟩
      else some ⟨{ h with writeInProgress := true }, .cachedWrite .store length, .none⟩
    | .start, _ => some ⟨h, .done, .none⟩
    | .store, .ok =>
      some ⟨{ h with streamOffset := h.streamOffset + length }, .cachedWrite .parts length, .none⟩
    | .store, _ => some ⟨h.endOwnerWrite 0 true, .done, .none⟩
    | .parts, .submit fault =>
      if partReady c h false then
        match submitCachedPart c stopping h fault with
        | (true, h) => some ⟨h, .cachedWrite .parts length, .submit false fault⟩
        | (false, h) => some ⟨h.endOwnerWrite 0 true, .done, .none⟩
      else none
    | .parts, _ =>
      if partReady c h false then none else some ⟨h.endOwnerWrite 0 false, .done, .none⟩

/-- `AsyncPartUpload::begin`; `starts` says whether its request can be submitted. -/
def beginPart (p : Part) (starts : Bool) : Option Next :=
  if h.writeState = .failed ∨ h.unlinked then
    some ⟨h, .part { p with stage := .finishing true }, .none⟩
  else if h.multipartStarting ∧ !p.creating then
    some ⟨h, .part { p with stage := if starts then .waitingStart else .finishing true }, .none⟩
  else
    let creating := p.creating || !h.uploadId
    some ⟨{ h with multipartStarting := h.multipartStarting || creating },
      .part { p with creating, stage := if starts then .requesting else .finishing true }, .none⟩

/-- `AsyncPartUpload::created`. -/
def createdPart (p : Part) (starts : Bool) : Option Next :=
  beginPart { h with uploadId := true, multipartStarting := false } { p with creating :=
    false } starts

/-- `AsyncPartUpload`. -/
def partStep (p : Part) : Outcome → Option Next
  | outcome =>
    let finish (error : Bool) : Option Next :=
      some ⟨h, .part { p with stage := .finishing error }, .none⟩
    let go (stage : PartStage) : Option Next := some ⟨h, .part { p with stage }, .none⟩
    match p.stage, outcome with
    -- a worker or `finish_upload` takes it out of the queue
    | .queued, _ => none
    | .ready, .ok => if slot then go .preparing else finish true
    | .preparing, .ok => go (.prepared false)
    | .preparing, _ => go (.prepared true)
    | .prepared false, .ok => beginPart h p true
    | .prepared false, .again => beginPart h p false
    | .waitingStart, .ok => beginPart h p true
    | .waitingStart, .again => beginPart h p false
    | .requesting, .ok =>
      -- the new upload ID is stored in the cache, if there is one
      if p.creating then go .persisting else finish false
    | .requesting, .again =>
      if p.attempt < 3 then
        some ⟨h, .part { p with stage := .retrying, attempt := p.attempt + 1 }, .none⟩
      else finish true
    | .persisting, .ok => createdPart h p true
    | .persisting, .again => createdPart h p false
    | .retrying, .ok => beginPart h p true
    | .retrying, .again => beginPart h p false
    -- `upload_part_job` and `ensure_multipart`
    | .running, _ =>
      if h.unlinked ∨ h.writeState = .failed then finish true
      else if h.multipartStarting then none
      else if h.uploadId then go .uploading
      else some ⟨{ h with multipartStarting := true }, .part { p with stage := .creating }, .none⟩
    | .creating, .ok =>
      some ⟨{ h with uploadId := true, multipartStarting := false },
        .part { p with stage := .uploading }, .none⟩
    | .creating, _ =>
      some ⟨({ h with multipartStarting := false } : Handle).failWrite,
        .part { p with stage := .finishing true }, .none⟩
    | .uploading, .ok => finish false
    -- the part is dropped, then the handle is told, then the slot is given back
    | .finishing error, _ =>
      some ⟨h, .part { p with stage := .released error, budgeted := false },
        if p.budgeted then .release else .none⟩
    | .released error, _ =>
      let h := { h with
        multipartStarting := h.multipartStarting && !p.creating
        pendingParts := h.pendingParts - 1 }
      let error := error || h.unlinked || outcome = .fail
      some ⟨if error then h.failWrite else h, .part { p with stage := .told }, .none⟩
    | .told, _ => some ⟨h, .done, if slot then .finishUpload else .none⟩
    | .ready, _ | .prepared _, _ | .waitingStart, _ | .requesting, _ | .persisting, _
    | .retrying, _ | .uploading, _ => finish true

inductive Tail where
  | submit
  | giveBack
  | nothing
  deriving DecidableEq

def tail : Tail :=
  if h.currentPart.getD 0 ≠ 0 then .submit
  else if h.currentReservation then .giveBack
  else .nothing

/-- `AsyncFlushRequest`. -/
def flushStep (f : Flush) : Outcome → Option Next
  | outcome =>
    let go (stage : FlushStage) : Option Next := some ⟨h, .flush { f with stage }, .none⟩
    let ready : Flush := { f with stage := .pending, partsPrepared := true }
    match f.stage, outcome with
    | .start, _ =>
      if h.unlinked ∨ h.writeState = .failed then go (.finishing true)
      else if h.writeState = .sealed then go (.finishing false)
      else
        let ownsSeal := f.ownsSeal || h.writeState == .opened
        let h := { h with writeState := .sealing }
        let stage :=
          if !ownsSeal || h.writeInProgress then
            if outcome = .fail then .finishing true else .start
          else if f.partsPrepared then .pending else .prepare
        some ⟨h, .flush { f with stage, ownsSeal }, .none⟩
    | .prepare, .submit fault =>
      if h.cached then
        if (c.partSize < h.streamOffset ∨ h.multipartRequired) ∧ partReady c h true then
          match submitCachedPart c stopping h fault with
          | (true, h) => some ⟨h, .flush f, .submit false fault⟩
          | (false, h) => some ⟨h, .flush { f with stage := .finishing true }, .none⟩
        else none
      else if h.multipartRequired ∧ tail h = .submit then
        if submitPart c stopping h fault then
          some ⟨h.takePart.submitted, .flush ready, .submit true fault⟩
        else some ⟨h.takePart, .flush { f with stage := .giveBack true }, .none⟩
      else none
    | .prepare, .ok =>
      if h.cached then
        if (c.partSize < h.streamOffset ∨ h.multipartRequired) ∧ partReady c h true then none
        else some ⟨h, .flush ready, .none⟩
      else if !h.multipartRequired then
        some ⟨h.takePart, .flush { ready with reserved := h.currentReservation }, .none⟩
      else
        match tail h with
        | .submit => none
        | .giveBack =>
          some ⟨{ h with currentReservation := false },
            .flush { f with stage := .giveBack false }, .none⟩
        | .nothing => some ⟨h, .flush ready, .none⟩
    -- the shared pointer to the part cannot be allocated
    | .prepare, _ =>
      some ⟨{ h with currentPart := none }, .flush { f with stage := .finishing true }, .none⟩
    | .giveBack true, _ => some ⟨h, .flush { f with stage := .finishing true }, .release⟩
    | .giveBack false, _ => some ⟨h, .flush ready, .release⟩
    | .pending, .ok => if h.pendingParts ≠ 0 then go .start else go .admission
    | .admission, .submit fault => some ⟨h, .flush { f with stage := .queued }, .admission fault⟩
    | .queued, _ => none
    | .ready, .ok => if slot then go .preparing else go (.finishing true)
    | .preparing, .ok => go (.prepared false)
    | .preparing, _ => go (.prepared true)
    | .prepared false, .ok => go .requesting
    | .requesting, .ok => go .committing
    | .requesting, .head => go .heading
    | .requesting, .again =>
      if f.attempt < 3 then
        some ⟨h, .flush { f with stage := .retrying, attempt := f.attempt + 1 }, .none⟩
      else go .heading
    | .retrying, .ok => go .preparing
    | .heading, .ok => go .committing
    | .committing, .ok => go (.finishing false)
    | .finishing error, _ =>
      some ⟨h, .flush { f with stage := .freed error, reserved := false },
        if f.reserved then .release else .none⟩
    | .freed error, _ =>
      some ⟨h, .flush { f with stage := .telling error }, if slot then .finishUpload else .none⟩
    | .telling error, _ =>
      let error := error || h.unlinked || h.writeState == .failed
      let h := if !f.ownsSeal then h else if error then h.failWrite
        else { h with writeState := .sealed }
      some ⟨h, .done, .none⟩
    | .pending, _ | .admission, _ | .ready, _ | .prepared _, _ | .requesting, _ | .retrying, _
    | .heading, _ | .committing, _ => go (.finishing true)

def sealStep (stage : SealStage) (reserved : Bool) : Outcome → Option Next
  | outcome =>
    let go (stage : SealStage) : Option Next := some ⟨h, .sealWrite stage reserved, .none⟩
    match stage, outcome with
    | .start, _ =>
      if h.writeInProgress ∨ h.writeState = .sealing then none
      else if h.writeState = .opened ∧ !(h.cached && h.unlinked) then
        some ⟨{ h with writeState := .sealing }, .sealWrite .taking reserved, .none⟩
      else some ⟨h, .done, .none⟩
    | .taking, .submit fault =>
      if h.cached then
        if (c.partSize < h.streamOffset ∨ h.multipartRequired) ∧ partReady c h true then
          match submitCachedPart c stopping h fault with
          | (true, h) => some ⟨h, .sealWrite .taking reserved, .submit false fault⟩
          | (false, h) => some ⟨h, .sealWrite (.settle true) reserved, .none⟩
        else none
      else if h.multipartRequired ∧ tail h = .submit then
        if submitPart c stopping h fault then
          some ⟨h.takePart.submitted, .sealWrite .waiting reserved, .submit true fault⟩
        else some ⟨h.takePart, .sealWrite (.giveBack true) reserved, .none⟩
      else none
    | .taking, .ok =>
      if h.cached then
        if c.partSize < h.streamOffset ∨ h.multipartRequired then
          if partReady c h true then none else go .waiting
        else go .putting
      else if !h.multipartRequired then
        some ⟨h.takePart, .sealWrite .putting h.currentReservation, .none⟩
      else
        match tail h with
        | .submit => none
        | .giveBack =>
          some ⟨{ h with currentReservation := false },
              .sealWrite (.giveBack false) reserved, .none⟩
        | .nothing => go .waiting
    | .taking, _ => some ⟨{ h with currentPart := none }, .sealWrite (.settle true) reserved, .none⟩
    | .giveBack true, _ => some ⟨h, .sealWrite (.settle true) reserved, .release⟩
    | .giveBack false, _ => some ⟨h, .sealWrite .waiting reserved, .release⟩
    | .putting, .ok => go (.freeing false)
    | .putting, _ => go (.freeing true)
    | .freeing error, _ =>
      some ⟨h, .sealWrite (.settle error) false, if reserved then .release else .none⟩
    | .waiting, .ok =>
      if h.writeState = .failed then go (.settle true)
      else if h.pendingParts = 0 then go .completing
      else none
    | .completing, .ok => go (.settle false)
    | .settle false, .ok => some ⟨{ h with writeState := .sealed }, .done, .none⟩
    | .settle _, _ => some ⟨h.failWrite, .done, .none⟩
    | .waiting, _ => none
    | .completing, _ => go (.settle true)

def advance (work : Work) (outcome : Outcome) : Option Next :=
  match work with
  | .write stage length remaining => writeStep c b stopping h stage length remaining outcome
  | .ownerWrite stage length remaining =>
    ownerWriteStep c b stopping h stage length remaining outcome
  | .cachedWrite stage length => cachedWriteStep c stopping h stage length outcome
  | .part p => partStep slot h p outcome
  | .flush f => flushStep c stopping slot h f outcome
  | .sealWrite stage reserved => sealStep c stopping h stage reserved outcome
  | .retire budget => some ⟨h, .done, if budget then .release else .none⟩
  | .done => none

end

end Ngs3fs.Parts
