import Ngs3fs.Lib.Machine
import Ngs3fs.Lib.Program
import Ngs3fs.Upload.Retain

/-!
# A handle written through

The write path of a file without a local cache: `UncachedFileWriter::write` takes the buffers of a
request into the current part and submits every full part, `seal_write` sends what is left, as the
last part or as the only body. Parts are uploaded by jobs that end in any order, while the lock of
the handle is free. The handle keeps what the server has got: the body of each uploaded part and
what the flush has committed. `written`, `submitted` and `log` are ghosts: the bytes of the
accepted writes, the contents of the parts in the order of their numbers, and the replies. -/

namespace Ngs3fs.Upload

def kMaximumMultipartParts : Nat := 10000

def kMaximumObjectSize : Nat := 5 * 2 ^ 40

/-- `write_state`, with `write_error`. -/
inductive WriteState where
  | open
  | sealing
  | sealed
  | failed (errno : Errno)
  deriving DecidableEq

/-- One body, or the bodies of the parts by number. -/
inductive Commit where
  | put (body : List UInt8)
  | complete (bodies : List (List UInt8))
  deriving DecidableEq

/-- A write is refused before its data is looked at, or fails in the middle of it. -/
inductive Reply where
  | wrote (length : Nat)
  | refused (errno : Errno)
  | writeFailed (stop : Stop)
  | partFailed (number : Nat)
  | flushed
  | flushFailed (errno : Errno)
  deriving DecidableEq

/-- An ETag is told by whether it is there. -/
structure Handle where
  writeState : WriteState
  unlinked : Bool
  streamOffset : Nat
  current : Option RetainedPart
  reservation : Bool
  nextPartNumber : Nat
  multipartRequired : Bool
  pending : List (Nat × RetainedPart)
  partEtags : List Bool
  flushing : Bool
  tick : Nat
  uploaded : Nat → Option (List UInt8)
  commit : Option Commit
  written : List UInt8
  submitted : List (List UInt8)
  log : List Reply

/-- The job of a part ends, with its body stored or not and its answer good or not, or the file is
unlinked. -/
inductive HandleEvent where
  | partDone (number : Nat) (stored ok : Bool)
  | unlink
  deriving DecidableEq

/-- The kernel, whether a part can be submitted, what happens while a write waits for the budget,
and the size of a part. -/
structure Setting extends Kernel where
  submit : Nat → Except Errno Unit
  others : Nat → List HandleEvent
  partSize : Nat
  partSize_pos : 0 < partSize

abbrev WriteM := ExceptT Stop (StateM Handle)

namespace Handle

/-- `fail_write`. -/
def failWrite (errno : Errno) (h : Handle) : Handle :=
  match h.writeState with
  | .failed _ => h
  | _ => { h with writeState := .failed errno }

def reply (r : Reply) (h : Handle) : Handle := { h with log := r :: h.log }

/-- The end of `upload_part_job`. -/
def partDone (number : Nat) (part : RetainedPart) (stored ok : Bool) (h : Handle) : Handle :=
  let h := { h with
    pending := h.pending.filter fun job => job.1 != number
    uploaded := if stored || ok then Function.update h.uploaded number (some part.content)
      else h.uploaded }
  if ok && !h.unlinked then { h with partEtags := h.partEtags.set (number - 1) true }
  else (h.failWrite (if h.unlinked then .estale else .eio)).reply (.partFailed number)

/-- `ngs3fs_unlink`, for the writer of the file: it waits for a seal in progress. -/
def unlink (h : Handle) : Handle :=
  match h.writeState with
  | .sealing => h
  | .sealed => { h with unlinked := true }
  | _ => { h with unlinked := true }.failWrite .estale

def event (h : Handle) : HandleEvent → Handle
  | .partDone number stored ok =>
    match h.pending.find? fun job => job.1 == number with
    | some job => h.partDone number job.2 stored ok
    | none => h
  | .unlink => h.unlink

end Handle

/-- With empty strings at its end. -/
def resize (etags : List Bool) (size : Nat) : List Bool :=
  etags.take size ++ List.replicate (size - etags.length) false

section
variable (k : Setting)

/-- What it has counted is taken back if the job cannot be submitted. -/
def submitPart (part : RetainedPart) : WriteM Unit := fun h =>
  if kMaximumMultipartParts < h.nextPartNumber then (.error (.error .efbig), h)
  else
    match k.submit h.tick with
    | .ok () =>
      (.ok (), { h with
        nextPartNumber := h.nextPartNumber + 1
        multipartRequired := true
        pending := h.pending ++ [(h.nextPartNumber, part)]
        partEtags := resize h.partEtags h.nextPartNumber
        submitted := h.submitted ++ [part.content]
        tick := h.tick + 1 })
    | .error errno => (.error (.error errno), { h with tick := h.tick + 1 })

/-- The wait for the pinned budget in `ensure_current_part`: the lock is free. -/
def reserve : WriteM Unit := fun h =>
  if h.reservation then (.ok (), h)
  else
    let h := { (k.others h.tick).foldl Handle.event h with tick := h.tick + 1 }
    if h.writeState != .open then (.error (.error .eio), h)
    else (.ok (), { h with reservation := true })

/-- The part `ensure_current_part` leaves in the handle. -/
def currentPart : WriteM RetainedPart := fun h =>
  match h.current with
  | some part => (.ok part, h)
  | none =>
    match k.pipe h.tick with
    | .ok capacity =>
      let part : RetainedPart := ⟨[⟨capacity, [], .none, true⟩], 0⟩
      (.ok part, { h with current := some part, tick := h.tick + 1 })
    | .error errno => (.error (.error errno), { h with tick := h.tick + 1 })

/-- `ensure_current_part`. -/
def ensureCurrentPart : WriteM RetainedPart := do
  reserve k
  currentPart k

/-- `submit_current_part`. -/
def submitCurrentPart : WriteM Unit := fun h =>
  match h.current with
  | some part =>
    if part.bytes = k.partSize then
      (submitPart k part.close).run { h with current := none, reservation := false }
    else (.ok (), h)
  | none => (.ok (), h)

/-- Memory, or a file descriptor that can be read at a position or not. -/
structure FuseBuf where
  data : List UInt8
  isFd : Bool
  seek : Bool
  pos : Int
  deriving DecidableEq

/-- A stream gives the bytes after those it has given. -/
def retain (buf : FuseBuf) (off count cursor : Nat) (part : RetainedPart) : WriteM Nat := fun h =>
  if buf.isFd then
    if buf.seek && buf.pos < 0 then (.error (.error .einval), h)
    else
      match retainFd k.toKernel (2 * count + 1) h.tick count false ⟨buf.data, buf.seek, off,
        cursor⟩ part with
      | .ok (part, source, tick) =>
        (.ok source.cursor, { h with current := some part, tick := tick })
      | .error stop => (.error stop, h)
  else
    match retainBytes k.toKernel count h.tick ((buf.data.drop off).take count) part with
    | .ok (part, tick) => (.ok cursor, { h with current := some part, tick := tick })
    | .error stop => (.error stop, h)

/-- How many bytes of a buffer are taken, and where a stream is then. -/
def turn (buf : FuseBuf) (off cursor remaining : Nat) : WriteM (Nat × Nat) := do
  let part ← ensureCurrentPart k
  let count := min remaining (min (buf.data.length - off) (k.partSize - part.bytes))
  let cursor ← retain k buf off count cursor part
  submitCurrentPart k
  pure (count, cursor)

/-- `off` is the offset in the first buffer. -/
def transfer : Nat → List FuseBuf → Nat → Nat → Nat → WriteM Unit
  | _, _, _, _, 0 => pure ()
  | 0, _, _, _, _ + 1 => throw .exhausted
  | _ + 1, [], _, _, _ + 1 => throw (.error .eio)
  | fuel + 1, buf :: rest, off, cursor, remaining + 1 =>
    if buf.data.length - off = 0 then transfer fuel rest 0 0 (remaining + 1)
    else do
      let taken ← turn k buf off cursor (remaining + 1)
      if off + taken.1 = buf.data.length then transfer fuel rest 0 0 (remaining + 1 - taken.1)
      else transfer fuel (buf :: rest) (off + taken.1) taken.2 (remaining + 1 - taken.1)

def inputBytes (input : List FuseBuf) : List UInt8 := (input.map FuseBuf.data).flatten

/-- The checks `write` makes before it looks at the data. -/
def refusal (h : Handle) (offset : Int) (length : Nat) : Option Errno :=
  let limit := min (k.partSize * kMaximumMultipartParts) kMaximumObjectSize
  if offset < 0 then some .einval
  else if h.unlinked then some .estale
  else if length = 0 then none
  else if limit < offset.toNat + length then some .efbig
  else
    match h.writeState with
    | .failed errno => some errno
    | .sealing => some .eio
    | .sealed => some .eio
    | .open => if offset.toNat ≠ h.streamOffset then some .espipe else none

def Stop.errno : Stop → Errno
  | .error errno => errno
  | .exhausted => .eio

/-- `UncachedFileWriter::write`. -/
def write (offset : Int) (input : List FuseBuf) (h : Handle) : Handle :=
  let bytes := inputBytes input
  match refusal k h offset bytes.length with
  | some errno => h.reply (.refused errno)
  | none =>
    if bytes.length = 0 then h.reply (.wrote 0)
    else
      match (transfer k (bytes.length + input.length) input 0 0 bytes.length).run h with
      | (.ok (), h) =>
        { h with streamOffset := offset.toNat + bytes.length, written := h.written ++ bytes }.reply
          (.wrote bytes.length)
      | (.error stop, h) => (h.failWrite stop.errno).reply (.writeFailed stop)

/-- Stored or not, answered well or not. -/
structure CommitResult where
  ok : Bool
  errno : Errno
  deriving DecidableEq

def Handle.flushFails (errno : Errno) (h : Handle) : Handle :=
  { h.failWrite errno with flushing := false }.reply (.flushFailed errno)

/-- `seal_write` up to the wait for the parts; with no part submitted it sends the only body. -/
def flush (put : CommitResult) (h : Handle) : Option Handle :=
  if h.unlinked then some (h.reply (.flushFailed .estale))
  else
    match h.writeState with
    | .sealed => some (h.reply .flushed)
    | .failed errno => some (h.reply (.flushFailed errno))
    | .sealing => none
    | .open =>
      if !h.multipartRequired then
        let body := (h.current.map RetainedPart.content).getD []
        let h := { h with current := none, reservation := false }
        if put.ok then
          some ({ h with writeState := .sealed, commit := some (.put body) }.reply .flushed)
        else some (h.flushFails put.errno)
      else
        let sealing := { h with writeState := .sealing, reservation := false, flushing := true }
        match h.current with
        | some part =>
          if part.bytes ≠ 0 then
            match (submitPart k part.close).run { sealing with current := none } with
            | (.ok (), h) => some h
            | (.error stop, h) => some (h.flushFails stop.errno)
          else some sealing
        | none => some sealing

/-- `complete_multipart` names the parts from 1 on. -/
def Handle.bodies (h : Handle) : List (List UInt8) :=
  (List.range h.partEtags.length).map fun i => (h.uploaded (i + 1)).getD []

/-- When the parts have ended or the handle has failed. -/
def flushEnd (complete : CommitResult) (h : Handle) : Option Handle :=
  if !h.flushing then none
  else
    match h.writeState with
    | .failed errno => some ({ h with flushing := false }.reply (.flushFailed errno))
    | .sealing =>
      if !h.pending.isEmpty then none
      else if h.partEtags.any (!·) then some (h.flushFails .eio)
      else if complete.ok then
        some ({ h with
          writeState := .sealed
          flushing := false
          commit := some (.complete h.bodies) }.reply .flushed)
      else some (h.flushFails complete.errno)
    | _ => none

inductive HandleAction where
  | write (offset : Int) (input : List FuseBuf)
  | event (e : HandleEvent)
  | flush (put : CommitResult)
  | flushEnd (complete : CommitResult)
  deriving DecidableEq

def handleStep (h : Handle) : HandleAction → Option Handle
  | .write offset input => some (write k offset input h)
  | .event e => some (h.event e)
  | .flush put => flush k put h
  | .flushEnd complete => flushEnd complete h

end

def openHandle : Handle where
  writeState := .open
  unlinked := false
  streamOffset := 0
  current := none
  reservation := false
  nextPartNumber := 1
  multipartRequired := false
  pending := []
  partEtags := []
  flushing := false
  tick := 0
  uploaded _ := none
  commit := none
  written := []
  submitted := []
  log := []

end Ngs3fs.Upload
