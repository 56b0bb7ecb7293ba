import Ngs3fs.Lib.Machine
import Ngs3fs.Http.Sources

/-!
# Receiving the response of an asynchronous HTTP/1 request

`Http1AsyncOperation` from `receive_header` on, with `ResponseParser`. What arrives on the socket
is a list of cells: a byte, and what it is to a parser that reads the response correctly. A parser
says how many of the cells it has consumed, whether the headers and the message are complete, and
which bytes are body; this does not depend on how the stream is cut. A body of a fixed length does
not go through the parser: it is received into the memory of a sink, spliced through the staging
pipe into its file, or copied. `on_message_complete` lets the parser go on after the last byte of a
message, so that what follows in the same receive is parsed as the next message; `next` is what
`llhttp` does then. -/

namespace Ngs3fs.Http

/-- Part of an informational response, of the head, or of what follows, where some bytes are body
and one may be the last of the message. -/
inductive Kind where
  | info (last : Bool)
  | head (last : Bool)
  | rest (isBody last : Bool)
  deriving DecidableEq

structure Cell where
  byte : UInt8
  kind : Kind
  deriving DecidableEq

inductive Framing where
  | fixed (length : Nat) (bytes : Bytes)
  | chunked (cells : List (UInt8 × Bool × Bool))
  | close (bytes : Bytes)

/-- What a server sends: informational responses, the head of the response, and what follows. -/
structure Message where
  infos : List Bytes
  head : Bytes
  status : Nat
  keepAlive : Bool
  framing : Framing
  infos_ne : ∀ i ∈ infos, i ≠ []
  head_ne : head ≠ []
  final : ¬(100 ≤ status ∧ status < 200 ∧ status ≠ 101)

def mark (kind : Bool → Kind) : Bytes → List Cell
  | [] => []
  | b :: rest => ⟨b, kind rest.isEmpty⟩ :: mark kind rest

def Framing.cells : Framing → List Cell
  | .fixed _ bytes => bytes.map fun b => ⟨b, .rest true false⟩
  | .chunked cells => cells.map fun c => ⟨c.1, .rest c.2.1 c.2.2⟩
  | .close bytes => bytes.map fun b => ⟨b, .rest true false⟩

def Message.heads (m : Message) : List Cell := m.infos.flatMap (mark .info) ++ mark .head m.head

def Message.cells (m : Message) : List Cell := m.heads ++ m.framing.cells

structure Fetch where
  range : Bool
  length : Nat
  maxResponseBody : Nat
  isHead : Bool
  memory : Bool

def maximumErrorResponseSize : Nat := 64 * 1024

def maxResponseHeaderBytes : Nat := 64 * 1024

def http1ReadSize : Nat := 1024

def Fetch.toSink (f : Fetch) (status : Nat) : Bool := f.range && status < 300

def Fetch.limit (f : Fetch) (status : Nat) : Nat :=
  if f.range && 300 ≤ status then maximumErrorResponseSize
  else if f.range then f.length
  else f.maxResponseBody

/-- `ResponseParser`. -/
structure Parser where
  headersComplete : Bool
  messageComplete : Bool
  deriving DecidableEq

/-- The bytes it has consumed, the parser, the status if a head was completed, and the bytes given
to `on_body`. -/
structure Executed where
  consumed : Nat
  parser : Parser
  status : Option Nat
  body : Bytes

def Executed.more (e : Executed) : Executed := { e with consumed := e.consumed + 1 }

def Executed.rest (c : Cell) (isBody : Bool) (e : Executed) : Executed :=
  { e with consumed := e.consumed + 1, body := if isBody then c.byte :: e.body else e.body }

/-- What `llhttp` does after the end of a message: it consumes some bytes, and may complete the head
of a further response. -/
abbrev Next := List Cell → Option (Nat × Option Nat)

/-- `room` is what is left of the limit. It stops after the head of a response that may have a body,
and after an informational response. -/
def execute (next : Next) (isHead : Bool) (status : Nat) :
    Nat → Parser → List Cell → Option Executed
  | _, p, [] => some ⟨0, p, none, []⟩
  | room, p, cell :: cells =>
    if p.messageComplete then (next (cell :: cells)).map fun k => ⟨k.1, p, k.2, []⟩
    else
      match cell.kind with
      | .info false => (execute next isHead status room p cells).map Executed.more
      | .info true => some ⟨1, ⟨true, true⟩, some 100, []⟩
      | .head false => (execute next isHead status room p cells).map Executed.more
      | .head true =>
        if isHead then
          (execute next isHead status room ⟨true, true⟩ cells).map fun e =>
            { e.more with status := some (e.status.getD status) }
        else some ⟨1, ⟨true, false⟩, some status, []⟩
      | .rest isBody last =>
        if isBody && room == 0 then none
        else
          (execute next isHead status (if isBody then room - 1 else room)
          { p with messageComplete := last }
            cells).map (Executed.rest cell isBody)

/-- `Http1AsyncOperation::Stage`. -/
inductive Stage1 where
  | receiveHeader
  | receiveBody (length : Nat)
  | receiveMemory
  | socketPipe (length : Nat)
  | pipeFile (length : Nat)
  | pipeCopy (length : Nat)
  | writeFile (data : Bytes) (accounted : Bool)
  | complete (reused : Bool)
  | failed
  deriving DecidableEq

/-- With what is on the socket, how much was taken from it, and what the sink was given. -/
structure Receiver where
  stage : Stage1
  socket : List Cell
  taken : Nat
  parser : Parser
  headerBytes : Nat
  status : Nat
  body : Bytes
  bodyBytes : Nat
  fixedRemaining : Option Nat
  staging : Bytes
  sink : Bytes
  socketSplice : Bool
  fileSplice : Bool

/-- An operation on the socket gives bytes, or the end of the stream; one on the staging pipe or the
file moves all; the kernel does not support it; it fails, or the request is cancelled. -/
inductive Event1 where
  | received (n : Nat)
  | eof
  | moved
  | unsupported
  | fail
  deriving DecidableEq

section
variable (next : Next) (capacity : Nat) (f : Fetch) (m : Message)

def Receiver.fail (op : Receiver) : Receiver := { op with stage := .failed }

/-- `complete_response` and `close_request`. -/
def Receiver.complete (op : Receiver) (reused : Bool) :
    Receiver := { op with stage := .complete reused }

/-- What `body_next` posts. -/
def nextStage (op : Receiver) : Stage1 :=
  match op.fixedRemaining with
  | some 0 => .complete m.keepAlive
  | some n =>
    if f.toSink op.status then
      if f.memory then .receiveMemory
      else if !op.socketSplice || !op.fileSplice then .receiveBody (min n http1ReadSize)
      else .socketPipe (min n capacity)
    else .receiveBody (min n http1ReadSize)
  | none => .receiveBody http1ReadSize

/-- `body_next`. -/
def bodyNext (op : Receiver) : Receiver := { op with stage := nextStage capacity f m op }

/-- `complete_response` or `body_next` after bytes were given to the sink. -/
def afterWrite (op : Receiver) : Receiver :=
  if op.fixedRemaining.isNone && op.parser.messageComplete then op.complete m.keepAlive
  else bodyNext capacity f m op

def Receiver.account (op : Receiver) (n : Nat) : Receiver :=
  { op with bodyBytes := op.bodyBytes + n, fixedRemaining := op.fixedRemaining.map (· - n) }

/-- `write_memory`, and `WRITE_FILE` when it completes. -/
def writeSink (op : Receiver) (data : Bytes) (accounted : Bool) : Receiver :=
  let op := { op with sink := op.sink ++ data }
  afterWrite capacity f m (if accounted then op else op.account data.length)

/-- `write_memory` or `write_file`. -/
def write (op : Receiver) (data : Bytes) (accounted : Bool) : Receiver :=
  if f.memory then writeSink capacity f m op data accounted
  else { op with stage := .writeFile data accounted }

def keepBody (op : Receiver) (data : Bytes) : Receiver :=
  bodyNext capacity f m ({ op with body := op.body ++ data }.account data.length)

/-- `on_body` stages the body for the sink, or puts it into the response. -/
def Receiver.executed (op : Receiver) (staged : Bool) (e : Executed) : Receiver :=
  { op with
    parser := e.parser
    status := e.status.getD op.status
    bodyBytes := op.bodyBytes + e.body.length
    body := if staged then op.body else op.body ++ e.body }

/-- `parse_body`. -/
def parseBody (op : Receiver) (cells : List Cell) : Receiver :=
  match execute next f.isHead m.status (f.limit op.status - op.bodyBytes) op.parser cells with
  | none => op.fail
  | some e =>
    let staged := f.toSink op.status
    let op := op.executed staged e
    if e.consumed ≠ cells.length then op.fail
    else if staged && !e.body.isEmpty then write capacity f m op e.body true
    else if op.parser.messageComplete then op.complete m.keepAlive
    else bodyNext capacity f m op

/-- `fixed_body_remaining`. -/
def Framing.fixedBodyRemaining : Framing → Option Nat
  | .fixed n _ => some n
  | .chunked _ => none
  | .close _ => none

/-- `process_header` after the head of the response. -/
def processBody (op : Receiver) (cells : List Cell) : Receiver :=
  match m.framing.fixedBodyRemaining with
  | some n =>
    if f.limit op.status < n ∨ n < cells.length then op.fail
    else
      let op := { op with fixedRemaining := some n }
      if cells.isEmpty then bodyNext capacity f m op
      else if f.toSink op.status then write capacity f m op (cells.map Cell.byte) false
      else keepBody capacity f m op (cells.map Cell.byte)
  | none =>
    if cells.isEmpty then bodyNext capacity f m op else parseBody next capacity f m op cells

def informational (status : Nat) : Bool := 100 ≤ status && status < 200 && status != 101

/-- A round for each head that is completed. -/
def processHeader : Nat → Receiver → List Cell → Receiver
  | 0, op, _ => op.fail
  | rounds + 1, op, cells =>
    if cells.isEmpty then { op with stage := .receiveHeader }
    else
      match execute next f.isHead m.status 0 op.parser cells with
      | none => op.fail
      | some e =>
        let op :=
          { op with
            parser := e.parser
            status := e.status.getD op.status
            headerBytes := op.headerBytes + e.consumed }
        let cells := cells.drop e.consumed
        if maxResponseHeaderBytes < op.headerBytes then op.fail
        else if !op.parser.headersComplete then
          if e.consumed = 0 then op.fail else { op with stage := .receiveHeader }
        else if informational op.status then
          if !op.parser.messageComplete then op.fail
          else processHeader rounds { op with parser := ⟨false, false⟩, status := 0 } cells
        else if op.status = 101 then op.fail
        else if op.parser.messageComplete || f.isHead || op.status == 204 || op.status == 304 then
          if cells.isEmpty then op.complete m.keepAlive else op.fail
        else processBody next capacity f m op cells

def Receiver.take (op : Receiver) (n : Nat) : Receiver :=
  { op with socket := op.socket.drop n, taken := op.taken + n }

/-- `advance`. -/
def receiveStep (op : Receiver) (e : Event1) : Option Receiver :=
  match op.stage, e with
  | .complete _, _ => none
  | .failed, _ => none
  | _, .fail => some op.fail
  | .receiveHeader, .received n =>
    if 0 < n ∧ n ≤ http1ReadSize ∧ n ≤ op.socket.length then
      some (processHeader next capacity f m (n + 1) (op.take n) (op.socket.take n))
    else none
  | .receiveBody length, .received n =>
    if 0 < n ∧ n ≤ length ∧ n ≤ op.socket.length then
      let cells := op.socket.take n
      let op := op.take n
      if op.fixedRemaining.isNone then some (parseBody next capacity f m op cells)
      else if f.toSink op.status && !f.memory then
        some { op with stage := .writeFile (cells.map Cell.byte) false }
      else some (keepBody capacity f m op (cells.map Cell.byte))
    else none
  | .receiveMemory, .received n =>
    if 0 < n ∧ n ≤ op.fixedRemaining.getD 0 ∧ n ≤ op.socket.length then
      let cells := op.socket.take n
      let op := op.take n
      some (bodyNext capacity f m ({ op with sink := op.sink ++ cells.map Cell.byte }.account n))
    else none
  | .receiveMemory, .unsupported => some (bodyNext capacity f m op)
  | .socketPipe length, .received n =>
    if 0 < n ∧ n ≤ length ∧ n ≤ op.socket.length then
      let cells := op.socket.take n
      let op := op.take n
      some { op with
        staging := op.staging ++ cells.map Cell.byte
        stage := if op.fileSplice then .pipeFile n else .pipeCopy n }
    else none
  | .socketPipe _, .unsupported => some (bodyNext capacity f m { op with socketSplice := false })
  | .pipeFile n, .moved =>
    some (bodyNext capacity f m
      ({ op with sink := op.sink ++ op.staging.take n, staging := op.staging.drop n }.account n))
  | .pipeFile n, .unsupported => some { op with fileSplice := false, stage := .pipeCopy n }
  | .pipeCopy n, .moved =>
    some { op with staging := op.staging.drop n, stage := .writeFile (op.staging.take n) false }
  | .writeFile data accounted, .moved => some (writeSink capacity f m op data accounted)
  | .receiveBody _, .eof =>
    if op.socket.isEmpty then
      match m.framing, op.fixedRemaining with
      | .close _, none => some (op.complete false)
      | _, _ => some op.fail
    else none
  | _, .eof => if op.socket.isEmpty then some op.fail else none
  | _, _ => none

/-- `receive_header`. -/
def receiveStart : Receiver :=
  { stage := .receiveHeader
    socket := m.cells
    taken := 0
    parser := ⟨false, false⟩
    headerBytes := 0
    status := 0
    body := []
    bodyBytes := 0
    fixedRemaining := none
    staging := []
    sink := []
    socketSplice := true
    fileSplice := true }

end

def untilLast : List (UInt8 × Bool × Bool) → Option (Bytes × Nat)
  | [] => none
  | (b, isBody, last) :: cells =>
    if last then some (if isBody then [b] else [], 1)
    else (untilLast cells).map fun d => (if isBody then b :: d.1 else d.1, d.2 + 1)

def bodiless (f : Fetch) (m : Message) : Bool := f.isHead || m.status == 204 || m.status == 304

/-- With the bytes that it takes after the head, if all of it was sent. -/
def decoded (f : Fetch) (m : Message) : Option (Bytes × Nat) :=
  if bodiless f m then some ([], 0)
  else
    match m.framing with
    | .fixed n bytes => if n ≤ bytes.length then some (bytes.take n, n) else none
    | .chunked cells => untilLast cells
    | .close bytes => some (bytes, bytes.length)

end Ngs3fs.Http
