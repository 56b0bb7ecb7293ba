import Mathlib.Algebra.Ring.Nat
import Mathlib.Data.List.Basic

/-!
# Retained parts

`RetainedPart` keeps the bytes of a part in pipes until the part is uploaded, since an upload may
have to be sent again. `retain_bytes` copies memory into the pipes, `retain_fd` splices a file
descriptor into them and falls back to copying. The kernel answers every system call as it likes: a
splice moves any positive number of bytes, says `EAGAIN`, is not supported, or fails. A call which
returns has appended exactly the bytes it was given. -/

namespace Ngs3fs.Upload
open List

inductive Errno where
  | einval
  | estale
  | efbig
  | eio
  | espipe
  | eagain
  | econnreset
  | other (code : Nat)
  deriving DecidableEq

/-- With an error, or at the bound that the model gives its loops and that they never reach. -/
inductive Stop where
  | error (errno : Errno)
  | exhausted
  deriving DecidableEq

/-- `PipeInput`. -/
inductive PipeInput where
  | none
  | memory
  | fd
  deriving DecidableEq

/-- Its write end may be closed. -/
structure PipeSegment where
  capacity : Nat
  content : List UInt8
  input : PipeInput
  writable : Bool
  deriving DecidableEq

/-- The last segment first. -/
structure RetainedPart where
  segments : List PipeSegment
  bytes : Nat
  deriving DecidableEq

/-- `moved n` is a result of `n + 1` bytes, and a request for fewer moves what was asked for. -/
inductive Splice where
  | moved (n : Nat)
  | again
  | unsupported
  | failed (errno : Errno)
  deriving DecidableEq

/-- `got n` is a result of `n + 1` bytes. -/
inductive Read where
  | got (n : Nat)
  | eof
  | failed (errno : Errno)
  deriving DecidableEq

/-- Numbered as the calls come. A pipe that is created has some capacity. -/
structure Kernel where
  pipe : Nat → Except Errno Nat
  splice : Nat → Splice
  read : Nat → Read
  write : Nat → Except Errno Unit
  pipe_pos : ∀ n capacity, pipe n = .ok capacity → 0 < capacity

namespace RetainedPart

/-- The bytes `send_retained_body` sends. -/
def content (part : RetainedPart) : List UInt8 :=
  (part.segments.reverse.map PipeSegment.content).flatten

end RetainedPart

def PipeSegment.accepts (segment : PipeSegment) (input : PipeInput) : Bool :=
  segment.writable && segment.content.length != segment.capacity &&
    (segment.input == .none || segment.input == input)

namespace RetainedPart

/-- The last segment, or a new one if it cannot take the input. -/
def writableSegment (part : RetainedPart) (input : PipeInput) (pipe : Except Errno Nat) :
    Except Stop RetainedPart :=
  match part.segments with
  | back :: rest =>
    if back.accepts input then .ok { part with segments := { back with input } :: rest }
    else
      match pipe with
      | .ok capacity =>
        .ok { part with segments := ⟨capacity, [], input, true⟩ ::
          { back with writable := false } :: rest }
      | .error errno => .error (.error errno)
  | [] =>
    match pipe with
    | .ok capacity => .ok { part with segments := [⟨capacity, [], input, true⟩] }
    | .error errno => .error (.error errno)

def room (part : RetainedPart) : Nat :=
  match part.segments with
  | back :: _ => back.capacity - back.content.length
  | [] => 0

def backEmpty (part : RetainedPart) : Bool :=
  match part.segments with
  | back :: _ => back.content.isEmpty
  | [] => true

def push (part : RetainedPart) (data : List UInt8) : RetainedPart :=
  match part.segments with
  | back :: rest =>
    { segments := { back with content := back.content ++ data } :: rest,
      bytes := part.bytes + data.length }
  | [] => part

def close (part : RetainedPart) : RetainedPart :=
  match part.segments with
  | back :: rest => { part with segments := { back with writable := false } :: rest }
  | [] => part

end RetainedPart

/-- The second number counts the system calls. -/
def retainBytes (k : Kernel) :
    Nat → Nat → List UInt8 → RetainedPart → Except Stop (RetainedPart × Nat)
  | _, tick, [], part => .ok (part, tick)
  | 0, _, _ :: _, _ => .error .exhausted
  | fuel + 1, tick, byte :: bytes, part => do
    let part ← part.writableSegment .memory (k.pipe tick)
    let count := min part.room (byte :: bytes).length
    match k.write tick with
    | .error errno => .error (.error errno)
    | .ok () =>
      retainBytes k fuel (tick + 1) ((byte :: bytes).drop count)
        (part.push ((byte :: bytes).take count))

/-- `offset` is the position of a call on a seekable one, `cursor` what has been read of a stream.
-/
structure FdSource where
  data : List UInt8
  seek : Bool
  offset : Nat
  cursor : Nat
  deriving DecidableEq

namespace FdSource

def next (source : FdSource) : List UInt8 :=
  if source.seek then source.data.drop source.offset else source.data.drop source.cursor

def advance (source : FdSource) (count : Nat) : FdSource :=
  if source.seek then { source with offset := source.offset + count }
  else { source with cursor := source.cursor + count }

end FdSource

/-- The buffer of `copy_fd_to_pipe`. -/
def kCopyBuffer : Nat := 64 * 1024

/-- How many bytes are read and written to the pipe. -/
def copyFdToPipe (k : Kernel) (tick length : Nat) : Except Stop Nat :=
  match k.read tick with
  | .got n =>
    match k.write tick with
    | .ok () => .ok (min (n + 1) (min length kCopyBuffer))
    | .error errno => .error (.error errno)
  | .eof => .error (.error .econnreset)
  | .failed errno => .error (.error errno)

/-- What one turn of `retain_fd` moves, and whether the next one copies. -/
def movedBytes (k : Kernel) (tick count : Nat) (copied : Bool) : Except Stop (Nat × Bool) :=
  if copied then (copyFdToPipe k tick count).map (·, true)
  else
    match k.splice tick with
    | .moved n => .ok (min (n + 1) count, false)
    | .again => .ok (0, false)
    | .unsupported => (copyFdToPipe k tick count).map (·, true)
    | .failed errno => .error (.error errno)

/-- `copied` says that it has fallen back to copying. -/
def retainFd (k : Kernel) : Nat → Nat → Nat → Bool → FdSource → RetainedPart →
    Except Stop (RetainedPart × FdSource × Nat)
  | _, tick, 0, _, source, part => .ok (part, source, tick)
  | 0, _, _ + 1, _, _, _ => .error .exhausted
  | fuel + 1, tick, length + 1, copied, source, part => do
    let part ← part.writableSegment (if copied then .memory else .fd) (k.pipe tick)
    let count := min part.room (length + 1)
    let moved ← movedBytes k tick count copied
    if moved.1 = 0 then
      if part.backEmpty then .error (.error .eagain)
      else retainFd k fuel (tick + 1) (length + 1) moved.2 source part.close
    else
      retainFd k fuel (tick + 1) (length + 1 - moved.1) moved.2 (source.advance moved.1)
        (part.push (source.next.take moved.1))

/-! ### Segments -/

structure RetainedPart.Ok (part : RetainedPart) : Prop where
  bytes : part.bytes = part.content.length
  fits : ∀ segment ∈ part.segments, segment.content.length ≤ segment.capacity

namespace RetainedPart
variable {part part' : RetainedPart}

lemma content_cons (back : PipeSegment) (rest : List PipeSegment) (bytes : Nat) :
    (RetainedPart.mk (back :: rest) bytes).content =
      (RetainedPart.mk rest bytes).content ++ back.content := by
  rw [content, content]
  simp only [reverse_cons, map_append, map_cons, map_nil, flatten_append,
    flatten_cons, flatten_nil, append_nil]

structure Open (part : RetainedPart) : Prop where
  ok : part.Ok
  room : 0 < part.room
  segments : part.segments ≠ []

lemma Ok.new {rest bytes capacity} (ok : (RetainedPart.mk rest bytes).Ok)
    (pos : 0 < capacity) (input : PipeInput) :
    Open ⟨⟨capacity, [], input, true⟩ :: rest, bytes⟩ := by
  refine ⟨⟨?_, ?_⟩, pos, cons_ne_nil _ _⟩
  · rw [content_cons, append_nil]
    exact ok.bytes
  · intro segment mem
    cases mem with
    | head => exact Nat.zero_le _
    | tail _ mem => exact ok.fits segment mem

lemma Ok.relabel {back rest bytes}
    (ok : (RetainedPart.mk (back :: rest) bytes).Ok) (input : PipeInput) (writable : Bool) :
    (RetainedPart.mk ({ back with input, writable } :: rest) bytes).Ok := by
  refine ⟨?_, ?_⟩
  · rw [content_cons]
    have counted := ok.bytes
    rwa [content_cons] at counted
  · intro segment mem
    cases mem with
    | head => exact ok.fits back mem_cons_self
    | tail _ mem => exact ok.fits segment (mem_cons_of_mem _ mem)

lemma writableSegment_ok {k : Kernel} {input tick} (ok : part.Ok)
    (h : part.writableSegment input (k.pipe tick) = .ok part') :
    part'.Open ∧ part'.content = part.content ∧ part'.bytes = part.bytes ∧
      (part'.backEmpty = false → ∃ back rest, part.segments = back :: rest ∧ back.writable = true ∧
        back.content.isEmpty = false) := by
  obtain ⟨segments, bytes⟩ := part
  cases segments with
  | nil =>
    dsimp only [writableSegment] at h
    split at h
    · rename_i capacity found
      cases h
      exact ⟨ok.new (k.pipe_pos _ _ found) input, rfl, rfl, fun h => by cases h⟩
    · cases h
  | cons back rest =>
    dsimp only [writableSegment] at h
    split at h
    · rename_i accepts
      cases h
      simp only [PipeSegment.accepts, Bool.and_eq_true, bne_iff_ne, ne_eq] at accepts
      have fits := ok.fits back mem_cons_self
      refine ⟨⟨ok.relabel input back.writable, ?_, cons_ne_nil _ _⟩, ?_, rfl, ?_⟩
      · have full : back.content.length ≠ back.capacity := accepts.1.2
        show 0 < back.capacity - back.content.length
        omega
      · rw [content_cons, content_cons]
      · intro filled
        exact ⟨back, rest, rfl, accepts.1.1, filled⟩
    · split at h
      · rename_i capacity found
        cases h
        refine ⟨(ok.relabel back.input false).new (k.pipe_pos _ _ found) input, ?_, rfl,
          fun h => by cases h⟩
        rw [content_cons, content_cons, content_cons, append_nil]
      · cases h

lemma writableSegment_error {input pipe stop}
    (h : part.writableSegment input pipe = .error stop) : stop ≠ .exhausted := by
  rintro rfl
  rw [writableSegment.eq_def] at h
  split at h
  · split at h
    · cases h
    · split at h <;> cases h
  · split at h <;> cases h

lemma Open.push (o : part.Open) {data} (fits : data.length ≤ part.room) :
    (part.push data).Ok ∧ (part.push data).content = part.content ++ data ∧
      (part.push data).bytes = part.bytes + data.length := by
  obtain ⟨segments, bytes⟩ := part
  cases segments with
  | nil => exact absurd rfl o.segments
  | cons back rest =>
    have room : data.length ≤ back.capacity - back.content.length := fits
    have old := o.ok.fits back mem_cons_self
    have appended : (RetainedPart.mk ({ back with content := back.content ++ data } :: rest)
        (bytes + data.length)).content =
          (RetainedPart.mk (back :: rest) bytes).content ++ data := by
      rw [content_cons, content_cons, append_assoc]
      rfl
    refine ⟨⟨?_, ?_⟩, appended, rfl⟩
    · rw [RetainedPart.push, appended, length_append, ← o.ok.bytes]
    · intro segment mem
      cases mem with
      | head =>
        rw [length_append]
        show back.content.length + data.length ≤ back.capacity
        omega
      | tail _ mem => exact o.ok.fits segment (mem_cons_of_mem _ mem)

lemma Ok.close (ok : part.Ok) : part.close.Ok ∧ part.close.content = part.content ∧
    part.close.bytes = part.bytes := by
  obtain ⟨segments, bytes⟩ := part
  cases segments with
  | nil => exact ⟨ok, rfl, rfl⟩
  | cons back rest =>
    refine ⟨ok.relabel back.input false, ?_, rfl⟩
    rw [RetainedPart.close, content_cons, content_cons]

def backOpen (part : RetainedPart) : Bool :=
  match part.segments with
  | back :: _ => back.writable && !back.content.isEmpty
  | [] => false

lemma backOpen_close : part.close.backOpen = false := by
  obtain ⟨segments, bytes⟩ := part
  cases segments with
  | nil | cons back rest => rfl

end RetainedPart

/-! ### The two loops -/

section
variable (k : Kernel)

lemma retainBytes_spec (fuel tick : Nat) (bytes : List UInt8) {part} (ok : part.Ok)
    (enough : bytes.length ≤ fuel) :
    match retainBytes k fuel tick bytes part with
    | .ok (part', _) => part'.Ok ∧ part'.content = part.content ++ bytes ∧
        part'.bytes = part.bytes + bytes.length
    | .error stop => stop ≠ .exhausted := by
  induction fuel generalizing tick bytes part with
  | zero =>
    obtain rfl := eq_nil_of_length_eq_zero (Nat.le_zero.1 enough)
    exact ⟨ok, (append_nil _).symm, rfl⟩
  | succ fuel ih =>
    cases bytes with
    | nil => exact ⟨ok, (append_nil _).symm, rfl⟩
    | cons byte bytes =>
      rw [retainBytes]
      cases segment : part.writableSegment .memory (k.pipe tick) with
      | error stop => exact RetainedPart.writableSegment_error segment
      | ok part1 =>
        obtain ⟨o, content, count, _⟩ := RetainedPart.writableSegment_ok ok segment
        simp only [bind, Except.bind]
        cases k.write tick with
        | error errno => exact nofun
        | ok _ =>
          dsimp only
          -- some bytes fit, and the rest is shorter
          have room := o.room
          have length : ((byte :: bytes).take (min part1.room (byte :: bytes).length)).length =
              min part1.room (byte :: bytes).length := by
            rw [length_take]
            omega
          obtain ⟨ok2, content2, count2⟩ := o.push (length ▸ Nat.min_le_left _ _)
          have rest :=
            ih (tick + 1) ((byte :: bytes).drop (min part1.room (byte :: bytes).length)) ok2
            (by rw [length_drop]; omega)
          split at rest
          · rename_i part' tick' _
            obtain ⟨ok', content', count'⟩ := rest
            refine ⟨ok', ?_, ?_⟩
            · rw [content', content2, content, append_assoc, take_append_drop]
            · rw [count', count2, count, length, length_drop]
              omega
          · exact rest

lemma FdSource.next_advance (source : FdSource) (count : Nat) :
    (source.advance count).next = source.next.drop count := by
  obtain ⟨data, seek, offset, cursor⟩ := source
  cases seek with
  | true | false => exact (drop_drop (l := data)).symm

lemma FdSource.advance_advance (source : FdSource) (first second : Nat) :
    (source.advance first).advance second = source.advance (first + second) := by
  obtain ⟨data, seek, offset, cursor⟩ := source
  cases seek with
  | true => exact congrArg (FdSource.mk data true · cursor) (Nat.add_assoc offset first second)
  | false => exact congrArg (FdSource.mk data false offset ·) (Nat.add_assoc cursor first second)

lemma FdSource.advance_zero (source : FdSource) : source.advance 0 = source := by
  rw [FdSource.advance]
  split <;> rfl

lemma copyFdToPipe_spec (tick length : Nat) :
    match copyFdToPipe k tick length with
    | .ok moved => moved ≤ length
    | .error stop => stop ≠ .exhausted := by
  rw [copyFdToPipe]
  cases k.read tick with
  | got n =>
    cases k.write tick with
    | ok _ => exact Nat.le_trans (Nat.min_le_right _ _) (Nat.min_le_left _ _)
    | error errno => exact Stop.noConfusion
  | eof | failed errno => exact Stop.noConfusion

lemma movedBytes_spec (tick count : Nat) (copied : Bool) :
    match movedBytes k tick count copied with
    | .ok moved => moved.1 ≤ count
    | .error stop => stop ≠ .exhausted := by
  have copy : match (copyFdToPipe k tick count).map (·, true) with
      | .ok moved => moved.1 ≤ count
      | .error stop => stop ≠ .exhausted := by
    have spec := copyFdToPipe_spec k tick count
    cases result : copyFdToPipe k tick count with
    | ok moved | error stop =>
      rw [result] at spec
      exact spec
  rw [movedBytes]
  cases copied with
  | true => exact copy
  | false =>
    cases k.splice tick with
    | moved n => exact Nat.min_le_right _ _
    | again => exact Nat.zero_le _
    | unsupported => exact copy
    | failed errno => exact Stop.noConfusion

lemma retainFd_succ (fuel tick length : Nat) (copied : Bool) (source : FdSource)
    (part : RetainedPart) :
    retainFd k (fuel + 1) tick (length + 1) copied source part =
      match part.writableSegment (if copied then .memory else .fd) (k.pipe tick) with
      | .error stop => .error stop
      | .ok part =>
        match movedBytes k tick (min part.room (length + 1)) copied with
        | .error stop => .error stop
        | .ok moved =>
          if moved.1 = 0 then
            if part.backEmpty then .error (.error .eagain)
            else retainFd k fuel (tick + 1) (length + 1) moved.2 source part.close
          else
            retainFd k fuel (tick + 1) (length + 1 - moved.1) moved.2 (source.advance moved.1)
              (part.push (source.next.take moved.1)) := by
  rw [retainFd]
  cases part.writableSegment (if copied then .memory else .fd) (k.pipe tick) with
  | error stop => rfl
  | ok part =>
    simp only [bind, Except.bind]
    cases movedBytes k tick (min part.room (length + 1)) copied with
    | error stop | ok moved => rfl

lemma retainFd_spec (fuel tick : Nat) {length} (copied : Bool) (source : FdSource)
    {part : RetainedPart} (ok : part.Ok) (data : length ≤ source.next.length)
    (enough : 2 * length + (if part.backOpen then 1 else 0) ≤ fuel) :
    match retainFd k fuel tick length copied source part with
    | .ok (part', source', _) => part'.Ok ∧ part'.content =
      part.content ++ source.next.take length ∧
        part'.bytes = part.bytes + length ∧ source' = source.advance length
    | .error stop => stop ≠ .exhausted := by
  induction fuel generalizing tick length copied source part with
  | zero =>
    obtain rfl : length = 0 := by omega
    exact ⟨ok, by rw [take_zero, append_nil], rfl, source.advance_zero.symm⟩
  | succ fuel ih =>
    cases length with
    | zero => exact ⟨ok, by rw [take_zero, append_nil], rfl, source.advance_zero.symm⟩
    | succ length =>
      rw [retainFd_succ]
      cases segment : part.writableSegment (if copied then .memory else .fd) (k.pipe tick) with
      | error stop => exact RetainedPart.writableSegment_error segment
      | ok part1 =>
        obtain ⟨o, content, count, kept⟩ := RetainedPart.writableSegment_ok ok segment
        dsimp only
        have bound := movedBytes_spec k tick (min part1.room (length + 1)) copied
        cases moving : movedBytes k tick (min part1.room (length + 1)) copied with
        | error stop =>
          rw [moving] at bound
          exact bound
        | ok moved =>
          rw [moving] at bound
          dsimp only at bound ⊢
          by_cases none : moved.1 = 0
          · rw [if_pos none]
            cases filled : part1.backEmpty with
            | true => exact nofun
            | false =>
              -- the segment was open when the turn began, and now it is closed
              have open_back : part.backOpen = true := by
                obtain ⟨back, rest, segments, writable, content⟩ := kept filled
                rw [RetainedPart.backOpen, segments]
                simp only [writable, content, Bool.not_false, Bool.and_self]
              rw [if_pos open_back] at enough
              obtain ⟨ok2, content2, count2⟩ := o.ok.close
              have rest := ih (tick + 1) moved.2 source ok2 data
                (by rw [RetainedPart.backOpen_close, if_neg Bool.false_ne_true]; omega)
              rwa [content2, content, count2, count] at rest
          · rw [if_neg none]
            have some : moved.1 ≤ length + 1 := Nat.le_trans bound (Nat.min_le_right _ _)
            have taken : (source.next.take moved.1).length = moved.1 := by
              rw [length_take]
              omega
            have room : (source.next.take moved.1).length ≤ part1.room := by
              rw [taken]
              exact Nat.le_trans bound (Nat.min_le_left _ _)
            obtain ⟨ok2, content2, count2⟩ := o.push room
            have left : length + 1 - moved.1 ≤ (source.advance moved.1).next.length := by
              rw [FdSource.next_advance, length_drop]
              omega
            have rest := ih (tick + 1) moved.2 _ ok2 left
              (by split <;> omega)
            split at rest
            · rename_i part' source' tick' _
              obtain ⟨ok', content', count', source_eq⟩ := rest
              refine ⟨ok', ?_, ?_, ?_⟩
              · rw [content', content2, content, append_assoc, FdSource.next_advance,
                  ← take_add, Nat.add_sub_cancel' some]
              · rw [count', count2, count, taken]
                omega
              · rw [source_eq, FdSource.advance_advance, Nat.add_sub_cancel' some]
            · exact rest

end

end Ngs3fs.Upload
