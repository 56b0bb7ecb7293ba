import Mathlib.Algebra.BigOperators.Group.List.Basic
import Ngs3fs.Lib.Machine
import Ngs3fs.Http.Sources

/-!
# Receiving the frames of an asynchronous HTTP/2 request

`Http2AsyncOperation` from `frame_header` on. A `DATA` frame without padding that belongs to the
range of a successful response does not go through `nghttp2`: its bytes are received into the
memory of a sink, spliced through the staging pipe into its file, or copied, and the library only
sees that so many bytes have come. The payload of every other frame is received as a whole and
parsed by the library, which gives back the credit of the padding at once and leaves that of the
data to the operation. -/

namespace Ngs3fs.Http
open Machine List Option

inductive WireFrame
  | data (payload : Bytes) (padding : Option Nat)
  | other (length : Nat)

namespace WireFrame

def payload : WireFrame → Bytes
  | data payload _ => payload
  | other _ => []

/-- With the byte that says how long it is. -/
def padded : WireFrame → Nat
  | data _ (some n) => n + 1
  | _ => 0

def length : WireFrame → Nat
  | data payload none => payload.length
  | data payload (some n) => payload.length + (n + 1)
  | other length => length

end WireFrame

/-- `direct` for the range of a successful response, `memory` for a sink in memory, and what
`nghttp2` credits by itself for a frame that it has parsed, which is assumed to be the padding. -/
structure Reception where
  direct : Bool
  memory : Bool
  maxBodyBytes : Nat
  libraryCredit : WireFrame → Nat
  padding_credited : ∀ f, libraryCredit f = f.padded

/-- `Stage`, with the bytes of the frame that have been taken from the socket and those that have
not. -/
inductive FrameStage
  | frameHeader
  | framePayload (f : WireFrame)
  | socketPipe (rest : Bytes)
  | pipeFile (pipe rest : Bytes)
  | pipeCopy (pipe rest : Bytes)
  | socketCopy (rest : Bytes)
  | writeFile (copied : Bytes) (shadow : Option Bytes)
  | receiveMemory (rest : Bytes)

structure FrameReceiver where
  stage : FrameStage
  socketSpliceSupported : Bool
  fileSpliceSupported : Bool
  wire : List WireFrame
  frameRemaining : Nat
  bodyBytes : Nat
  delivered : Bytes
  /-- what `return_credit` and the library have given back -/
  credit : Nat
  paddingCredit : Nat

inductive FrameEvent
  | completed (n : Nat)
  | unsupported

namespace FrameReceiver
variable (c : Reception) (op : FrameReceiver)

/-- `receive_file_body` or `socket_to_memory`. -/
def receiveBody (rest : Bytes) : FrameReceiver :=
  if c.memory then { op with stage := .receiveMemory rest }
  else if !op.socketSpliceSupported || !op.fileSpliceSupported then
    { op with stage := .socketCopy rest }
  else { op with stage := .socketPipe rest }

/-- `commit_shadow`. -/
def commitShadow (data rest : Bytes) : FrameReceiver :=
  let op := { op with
    bodyBytes := op.bodyBytes + data.length
    frameRemaining := op.frameRemaining - data.length
    delivered := op.delivered ++ data
    credit := op.credit + data.length }
  if op.frameRemaining ≠ 0 then op.receiveBody c rest else { op with stage := .frameHeader }

/-- `frame_header`. -/
def takeHeader (f : WireFrame) : Option FrameReceiver :=
  let parsed := some (if f.length = 0 then op else { op with stage := .framePayload f })
  match f with
  | .data payload none =>
    if c.direct then
      if c.maxBodyBytes < op.bodyBytes + payload.length then none
      else if payload = [] then some op
      else some ({ op with frameRemaining := payload.length }.receiveBody c payload)
    else parsed
  | _ => parsed

/-- `parsed_payload`. -/
def parsedPayload (f : WireFrame) : Option FrameReceiver :=
  let op := { op with stage := .frameHeader, paddingCredit := op.paddingCredit + c.libraryCredit f }
  if c.maxBodyBytes < op.bodyBytes + f.payload.length then none
  else
    let op := { op with bodyBytes := op.bodyBytes + f.payload.length }
    if f.payload = [] then some op
    else if c.direct && !c.memory then some { op with stage := .writeFile f.payload none }
    else some { op with
      delivered := op.delivered ++ f.payload, credit := op.credit + f.payload.length }

/-- A request that is exact transfers everything or fails. -/
def advance (e : FrameEvent) : Option FrameReceiver :=
  match op.stage, e with
  | .frameHeader, .completed _ =>
    match op.wire with
    | [] => none
    | f :: wire => { op with wire }.takeHeader c f
  | .framePayload f, .completed n => if n = f.length then op.parsedPayload c f else none
  | .socketPipe rest, .completed n =>
    if 0 < n ∧ n ≤ rest.length then
      if op.fileSpliceSupported then
        some { op with stage := .pipeFile (rest.take n) (rest.drop n) }
      else some { op with stage := .pipeCopy (rest.take n) (rest.drop n) }
    else none
  | .socketPipe rest, .unsupported =>
    some ({ op with socketSpliceSupported := false }.receiveBody c rest)
  | .pipeFile pipe rest, .completed n =>
    if n = pipe.length then some (op.commitShadow c pipe rest) else none
  | .pipeFile pipe rest, .unsupported =>
    some { op with fileSpliceSupported := false, stage := .pipeCopy pipe rest }
  | .pipeCopy pipe rest, .completed n =>
    if n = pipe.length then some { op with stage := .writeFile pipe (some rest) } else none
  | .socketCopy rest, .completed n =>
    if 0 < n ∧ n ≤ rest.length then
      some { op with stage := .writeFile (rest.take n) (some (rest.drop n)) }
    else none
  | .receiveMemory rest, .completed n =>
    if 0 < n ∧ n ≤ rest.length then some (op.commitShadow c (rest.take n) (rest.drop n)) else none
  -- received again without `MSG_WAITALL`
  | .receiveMemory _, .unsupported => some op
  | .writeFile copied (some rest), .completed n =>
    if n = copied.length then some (op.commitShadow c copied rest) else none
  | .writeFile copied none, .completed n =>
    if n = copied.length then
      some { op with
        stage := .frameHeader
        delivered := op.delivered ++ copied
        credit := op.credit + copied.length }
    else none
  | _, _ => none

end FrameReceiver

def FrameStage.flight : FrameStage → Bytes
  | .frameHeader => []
  | .framePayload f => f.payload
  | .socketPipe rest | .socketCopy rest | .receiveMemory rest => rest
  | .pipeFile pipe rest | .pipeCopy pipe rest => pipe ++ rest
  | .writeFile copied shadow => copied ++ shadow.getD []

def FrameStage.padded : FrameStage → Nat
  | .framePayload f => f.padded
  | _ => 0

def FrameStage.shadowed : FrameStage → Bool
  | .frameHeader | .framePayload _ | .writeFile _ none => false
  | _ => true

/-- All payload is delivered, in flight or still to come, and what is delivered is credited. -/
structure FrameInv (frames : List WireFrame) (op : FrameReceiver) : Prop where
  payload : op.delivered ++ op.stage.flight ++ op.wire.flatMap WireFrame.payload =
    frames.flatMap WireFrame.payload
  credit : op.credit = op.delivered.length
  padding : op.paddingCredit + op.stage.padded + (op.wire.map WireFrame.padded).sum =
    (frames.map WireFrame.padded).sum
  remaining : op.stage.shadowed = true → op.frameRemaining = op.stage.flight.length

namespace FrameInv
variable {c : Reception} {frames : List WireFrame} {op op' : FrameReceiver}

lemma moved (inv : FrameInv frames op) {stage socket file}
    (flight : stage.flight = op.stage.flight) (padded : stage.padded = op.stage.padded)
    (shadowed : stage.shadowed = true → op.stage.shadowed = true) :
    FrameInv frames { op with
      stage, socketSpliceSupported := socket, fileSpliceSupported := file } :=
  ⟨flight ▸ inv.payload, inv.credit, padded ▸ inv.padding, fun shadow => flight ▸
    inv.remaining (shadowed shadow)⟩

lemma receiveBody {rest} (inv : FrameInv frames { op with stage := .socketPipe rest }) :
    FrameInv frames (op.receiveBody c rest) := by
  unfold FrameReceiver.receiveBody
  split
  · exact inv.moved rfl rfl fun _ => rfl
  split
  all_goals exact inv.moved rfl rfl fun _ => rfl

lemma commitShadow (inv : FrameInv frames op) {data rest}
    (flight : op.stage.flight = data ++ rest) (plain : op.stage.padded = 0)
    (shadowed : op.stage.shadowed = true) : FrameInv frames (op.commitShadow c data rest) := by
  have remaining := inv.remaining shadowed
  rw [flight, length_append] at remaining
  have payload := inv.payload
  rw [flight, ← append_assoc] at payload
  have credit : op.credit + data.length = (op.delivered ++ data).length := by
    rw [inv.credit, length_append]
  have padding := inv.padding
  rw [plain] at padding
  unfold FrameReceiver.commitShadow
  dsimp only
  split
  · exact receiveBody ⟨payload, credit, padding, fun _ => by
      show op.frameRemaining - data.length = rest.length
      omega⟩
  · have done : rest = [] := length_eq_zero_iff.1 (by omega)
    rw [done] at payload
    exact ⟨payload, credit, padding, nofun⟩

section
variable {f : WireFrame} {wire : List WireFrame}
  (inv : FrameInv frames { op with stage := .frameHeader, wire := f :: wire })
include inv

lemma begin : op.delivered ++ f.payload ++ wire.flatMap WireFrame.payload =
      frames.flatMap WireFrame.payload ∧
    op.paddingCredit + f.padded + (wire.map WireFrame.padded).sum =
      (frames.map WireFrame.padded).sum := by
  have payload := inv.payload
  have padding := inv.padding
  simp only [FrameStage.flight, FrameStage.padded, flatMap_cons, map_cons, sum_cons,
    append_nil, Nat.add_zero, ← append_assoc, ← Nat.add_assoc] at payload padding
  exact ⟨payload, padding⟩

lemma parse : FrameInv frames { op with stage := .framePayload f, wire } :=
  ⟨inv.begin.1, inv.credit, inv.begin.2, nofun⟩

lemma skip (nothing : f.payload = []) (none : f.padded = 0) :
    FrameInv frames { op with stage := .frameHeader, wire } := by
  obtain ⟨payload, padding⟩ := inv.begin
  rw [nothing] at payload
  rw [none] at padding
  exact ⟨payload, inv.credit, padding, nofun⟩

lemma takeHeader (took : { op with stage := .frameHeader, wire }.takeHeader c f = some op') :
    FrameInv frames op' := by
  have parsed (nothing : f.length = 0 → f.payload = [] ∧ f.padded = 0)
      (took : some (if f.length = 0 then { op with stage := .frameHeader, wire }
        else { op with stage := .framePayload f, wire }) = some op') : FrameInv frames op' := by
    cases took
    split
    · exact inv.skip (nothing ‹_›).1 (nothing ‹_›).2
    · exact inv.parse
  cases f with
  | other length => exact parsed (fun _ => ⟨rfl, rfl⟩) took
  | data payload padding =>
    cases padding with
    | some n => exact parsed nofun took
    | none =>
      simp only [FrameReceiver.takeHeader] at took
      split at took
      · split at took
        · cases took
        split at took
        · cases took
          exact inv.skip ‹_› rfl
        · cases took
          exact receiveBody ⟨inv.begin.1, inv.credit, inv.begin.2, fun _ => rfl⟩
      · exact parsed (fun empty => ⟨length_eq_zero_iff.1 empty, rfl⟩) took

end

lemma parsedPayload {f} (inv : FrameInv frames { op with stage := .framePayload f })
    (parsed : op.parsedPayload c f = some op') : FrameInv frames op' := by
  obtain ⟨payload, credit, padding, -⟩ := inv
  simp only [FrameReceiver.parsedPayload, c.padding_credited] at parsed
  split at parsed
  · cases parsed
  split at parsed
  · rename_i nothing
    cases parsed
    refine ⟨?_, credit, padding, nofun⟩
    rw [← payload]
    exact congrArg (op.delivered ++ · ++ _) nothing.symm
  split at parsed
  · cases parsed
    refine ⟨?_, credit, padding, nofun⟩
    rw [← payload]
    exact congrArg (op.delivered ++ · ++ _) (append_nil _)
  · cases parsed
    refine ⟨?_, ?_, padding, nofun⟩
    · rw [← payload]
      exact congrArg (· ++ _) (append_nil _)
    · show op.credit + f.payload.length = (op.delivered ++ f.payload).length
      rw [length_append, ← credit]

lemma advance {e} (inv : FrameInv frames op) (moves : op.advance c e = some op') :
    FrameInv frames op' := by
  obtain ⟨stage, socket, file, wire, remaining, bytes, delivered, credit, padding⟩ := op
  cases e with
  | unsupported =>
    cases stage with
    | socketPipe rest =>
      cases moves
      exact receiveBody (inv.moved rfl rfl id)
    | pipeFile pipe rest =>
      cases moves
      exact inv.moved rfl rfl id
    | receiveMemory rest =>
      cases moves
      exact inv
    | writeFile copied shadow => cases shadow <;> cases moves
    | _ => cases moves
  | completed n =>
    cases stage with
    | frameHeader =>
      cases wire with
      | nil => cases moves
      | cons f wire => exact takeHeader inv moves
    | framePayload f => exact inv.parsedPayload (ite_none_right_eq_some.1 moves).2
    | socketPipe rest =>
      obtain ⟨-, moves⟩ := ite_none_right_eq_some.1 moves
      split at moves
      all_goals
        cases moves
        exact inv.moved (take_append_drop n rest) rfl fun _ => rfl
    | pipeCopy pipe rest =>
      obtain ⟨-, ⟨⟩⟩ := ite_none_right_eq_some.1 moves
      exact inv.moved rfl rfl fun _ => rfl
    | socketCopy rest =>
      obtain ⟨-, ⟨⟩⟩ := ite_none_right_eq_some.1 moves
      exact inv.moved (take_append_drop n rest) rfl fun _ => rfl
    | pipeFile pipe rest =>
      obtain ⟨-, ⟨⟩⟩ := ite_none_right_eq_some.1 moves
      exact inv.commitShadow rfl rfl rfl
    | receiveMemory rest =>
      obtain ⟨-, ⟨⟩⟩ := ite_none_right_eq_some.1 moves
      exact inv.commitShadow (take_append_drop n rest).symm rfl rfl
    | writeFile copied shadow =>
      cases shadow with
      | some rest =>
        obtain ⟨-, ⟨⟩⟩ := ite_none_right_eq_some.1 moves
        exact inv.commitShadow rfl rfl rfl
      | none =>
        obtain ⟨-, ⟨⟩⟩ := ite_none_right_eq_some.1 moves
        obtain ⟨payload, counted, pads, -⟩ := inv
        refine ⟨?_, ?_, pads, nofun⟩
        · rw [← payload]
          exact congrArg (· ++ _) ((append_nil _).trans
            (congrArg (delivered ++ ·) (append_nil copied).symm))
        · show credit + copied.length = (delivered ++ copied).length
          rw [length_append, ← show credit = delivered.length from counted]

end FrameInv

/-- Before the first frame. -/
def FrameReceiver.start (socket file : Bool) (frames : List WireFrame) : FrameReceiver :=
  ⟨.frameHeader, socket, file, frames, 0, 0, [], 0, 0⟩

lemma FrameInv.run {c : Reception} {socket file frames events op}
    (ran : run (FrameReceiver.advance c) (.start socket file frames) events = some op) :
    FrameInv frames op := by
  have first : FrameInv frames (.start socket file frames) := ⟨rfl, rfl, Nat.zero_add _, nofun⟩
  exact run_inv (fun _ _ _ => FrameInv.advance) first ran

lemma FrameInv.begins {frames op} (inv : FrameInv frames op) :
    op.delivered <+: frames.flatMap WireFrame.payload :=
  ⟨_, (append_assoc _ _ _).symm.trans inv.payload⟩

/-- **The `DATA` frames of a response.** In every run, what has been delivered is the beginning of
the payload of the frames, in order and without padding, and every byte of it has been credited
once; when all frames have been received, everything is delivered, and the credit with that of the
padding is the length of the `DATA` frames. -/
theorem data_frames_credited (c : Reception) (socket file : Bool) (frames : List WireFrame)
    (events : List FrameEvent) (op : FrameReceiver)
    (ran : run (FrameReceiver.advance c) (.start socket file frames) events = some op) :
    op.delivered <+: frames.flatMap WireFrame.payload ∧ op.credit = op.delivered.length ∧
      (op.stage = .frameHeader → op.wire = [] → op.delivered = frames.flatMap WireFrame.payload ∧
        op.credit + op.paddingCredit =
          (frames.map fun f => f.payload.length + f.padded).sum) := by
  have inv := FrameInv.run ran
  refine ⟨inv.begins, inv.credit, fun header done => ?_⟩
  have payload := inv.payload
  have padding := inv.padding
  rw [header, done] at payload padding
  have all : op.delivered = frames.flatMap WireFrame.payload := by
    simpa [FrameStage.flight] using payload
  refine ⟨all, ?_⟩
  rw [sum_map_add, inv.credit, all, length_flatMap]
  exact congrArg _ padding

/-- Into a file, with at most nine bytes. -/
def toFile : Reception := ⟨true, false, 9, WireFrame.padded, fun _ => rfl⟩

theorem data_frames_credited_padded : ∃ op, run (FrameReceiver.advance toFile)
        (.start true true [.data [1] (some 2), .data [2, 3] none])
        [.completed 0, .completed 4, .completed 1, .completed 0, .completed 1, .unsupported,
          .completed 1, .completed 1, .completed 1, .completed 1] = some op ∧
      op.delivered = [1, 2, 3] ∧ op.credit + op.paddingCredit = 6 := by
  refine ⟨_, rfl, ?_⟩
  exact (data_frames_credited toFile true true [.data [1] (some 2), .data [2, 3] none]
    [.completed 0, .completed 4, .completed 1, .completed 0, .completed 1, .unsupported,
      .completed 1, .completed 1, .completed 1, .completed 1] _ rfl).2.2 rfl rfl

end Ngs3fs.Http
