import Ngs3fs.Lib.Machine
import Ngs3fs.Http.Sources

/-!
# Sending the body of an asynchronous request

The upload half of `Http1AsyncOperation` and `Http2AsyncOperation`: both post one I/O operation at
a time for the source at the cursor. Memory is sent with one exact `SEND`, a pipe is spliced to the
socket, and a file goes through the staging pipe of the connection. An operation may move fewer
bytes than it was asked for, or some and then fail. Over HTTP/2 `nghttp2` decides when a DATA frame
is sent and how large it may be. What is on the wire, followed by what is staged and by the body of
the sources that are left, is the body (`Feed`, `Waiting`). Both machines keep it, so that they
come to the response only when all is sent. -/

namespace Ngs3fs.Http
open Machine List

/-- `SEND` of memory, `SPLICE` of a pipe to the socket, of a file to the staging pipe, of the
staging pipe to the socket. -/
inductive Io where
  | send (s : Source)
  | splice (s : Source)
  | load (s : Source)
  | drain (length : Nat)
  deriving DecidableEq

structure Line where
  world : World
  staging : Bytes
  wire : Bytes

namespace Io

def length : Io → Nat
  | .send s => s.length
  | .splice s => s.length
  | .load s => s.length
  | .drain n => n

def exact : Io → Bool
  | .send _ => true
  | .splice _ => false
  | .load _ => false
  | .drain _ => true

def available (body : Bytes) (line : Line) : Io → Bytes
  | .send s => s.available body line.world
  | .splice s => s.available body line.world
  | .load s => s.available body line.world
  | .drain _ => line.staging

def move (body : Bytes) (line : Line) (n : Nat) : Io → Line
  | .send s =>
    { line with world := s.after line.world n, wire :=
      line.wire ++ (s.available body line.world).take n }
  | .splice s =>
    { line with world := s.after line.world n, wire :=
      line.wire ++ (s.available body line.world).take n }
  | .load s =>
    { line with
      world := s.after line.world n
      staging := line.staging ++ (s.available body line.world).take n }
  | .drain _ =>
    { line with staging := line.staging.drop n, wire := line.wire ++ line.staging.take n }

end Io

/-- The bytes it has moved, and whether it reports an error. -/
structure Outcome where
  moved : Nat
  error : Bool
  deriving DecidableEq

def Outcome.Possible (o : Outcome) (body : Bytes) (line : Line) (io : Io) : Prop :=
  o.moved ≤ io.length ∧ o.moved ≤ (io.available body line).length

instance (o : Outcome) (body : Bytes) (line : Line) (io : Io) :
    Decidable (o.Possible body line io) :=
  inferInstanceAs (Decidable (_ ∧ _))

/-- The checks of `on_io` and `require_bytes`. -/
def Outcome.accepted (o : Outcome) (io : Io) : Bool :=
  !o.error && !(io.exact && o.moved != io.length) && o.moved != 0

/-- `UPLOAD_PIPE`, and `SEND_BODY` or `UPLOAD_SEND` (`UPLOAD_BODY` over HTTP/2). -/
inductive Stage where
  | pipe
  | body
  deriving DecidableEq

def postSource (capacity : Nat) (s : Source) : Stage × Io :=
  if s.fd < 0 then (.body, .send s)
  else if !s.seek then (.body, .splice s)
  else (.pipe, .load (s.cap (min s.length capacity)))

/-- After `receiveHeader` nothing is sent. -/
inductive Status1 where
  | sendHead
  | pending (stage : Stage) (io : Io)
  | receiveHeader
  | failed
  deriving DecidableEq

/-- `Http1AsyncOperation` while it sends. -/
structure Http1 where
  status : Status1
  cursor : Cursor
  uploadRemaining : Nat
  externallySent : Nat
  line : Line

section
variable (r : Request) (uploadLength capacity : Nat)

/-- `start_request`. -/
def start1 (w : World) : Http1 :=
  { status := .sendHead
    cursor := ⟨0, 0⟩
    uploadRemaining := uploadLength
    externallySent := 0
    line := ⟨w, [], []⟩ }

/-- `upload_next`. -/
def uploadNext (op : Http1) : Http1 :=
  if op.uploadRemaining = 0 then { op with status := .receiveHeader }
  else
    match uploadSource r uploadLength op.cursor op.uploadRemaining with
    | .error _ => { op with status := .failed }
    | .ok (s, c) =>
      { op with
        cursor := c
        status := .pending (postSource capacity s).1 (postSource capacity s).2 }

/-- `advance` after an operation that has moved bytes. -/
def advance1 (op : Http1) (n : Nat) : Stage → Http1
  | .pipe => { op with status := .pending .body (.drain n) }
  | .body =>
    uploadNext r uploadLength capacity
      { op with
        cursor := op.cursor.consume n
        uploadRemaining := op.uploadRemaining - n
        externallySent := op.externallySent + n }

def step1 (op : Http1) (o : Outcome) : Option Http1 :=
  match op.status with
  | .sendHead =>
    if o.error then some { op with status := .failed } else some
        (uploadNext r uploadLength capacity op)
  | .pending stage io =>
    if o.Possible r.body op.line io then
      let op := { op with line := io.move r.body op.line o.moved }
      if o.accepted io then some (advance1 r uploadLength capacity op o.moved stage)
      else some { op with status := .failed }
    else none
  | .receiveHeader => none
  | .failed => none

end

/-- Where its payload begins in the body, its length, and the flag `END_STREAM`. -/
structure Frame where
  start : Nat
  length : Nat
  endStream : Bool
  deriving DecidableEq

inductive Status2 where
  | flush
  | sendControl
  | uploadHeader
  | pending (stage : Stage) (io : Io)
  | receive
  | finished
  | failed
  deriving DecidableEq

/-- `closed` holds whether the stream was closed without an error. -/
structure Http2 where
  status : Status2
  cursor : Cursor
  uploadRemaining : Nat
  frameRemaining : Nat
  externallySent : Nat
  closed : Option Bool
  frames : List Frame
  line : Line

/-- `nghttp2_session_mem_send2` asks for a DATA frame of at most a length, gives other frames, has
nothing or fails; an operation completes; what was received is fed. -/
inductive Event2 where
  | data (length : Nat)
  | control
  | idle
  | refuse
  | io (o : Outcome)
  | received (closed : Option Bool)

section
variable (r : Request) (uploadLength capacity : Nat)

/-- `start_request`. -/
def start2 (w : World) : Http2 :=
  { status := .flush
    cursor := ⟨0, 0⟩
    uploadRemaining := uploadLength
    frameRemaining := 0
    externallySent := 0
    closed := none
    frames := []
    line := ⟨w, [], []⟩ }

/-- `upload_body`. -/
def uploadBody (op : Http2) : Http2 :=
  if op.frameRemaining = 0 then { op with status := .flush }
  else
    match uploadSource r uploadLength op.cursor op.frameRemaining with
    | .error _ => { op with status := .failed }
    | .ok (s, c) =>
      { op with
        cursor := c
        status := .pending (postSource capacity s).1 (postSource capacity s).2 }

/-- `read_upload` and `on_send_data`. -/
def sendData (op : Http2) (length : Nat) : Http2 :=
  let count := min length op.uploadRemaining
  { op with
    status := .uploadHeader
    uploadRemaining := op.uploadRemaining - count
    frameRemaining := count
    frames := op.frames ++ [⟨op.line.wire.length, count, count == op.uploadRemaining⟩] }

/-- `flush` when there is nothing to send. -/
def flushIdle (op : Http2) : Http2 :=
  match op.closed with
  | none => { op with status := .receive }
  | some false => { op with status := .failed }
  | some true =>
    if r.upload && op.uploadRemaining != 0 then { op with status := .failed }
    else { op with status := .finished }

/-- `advance` after an operation that has moved bytes. -/
def advance2 (op : Http2) (n : Nat) : Stage → Http2
  | .pipe => { op with status := .pending .body (.drain n) }
  | .body =>
    uploadBody r uploadLength capacity
      { op with
        cursor := op.cursor.consume n
        frameRemaining := op.frameRemaining - n
        externallySent := op.externallySent + n }

/-- The data provider is asked until it has said that it is at its end. -/
def step2 (op : Http2) (e : Event2) : Option Http2 :=
  match op.status, e with
  | .flush, .data length => if op.uploadRemaining = 0 then none else some (sendData op length)
  | .flush, .control => some { op with status := .sendControl }
  | .flush, .idle => some (flushIdle r op)
  | .flush, .refuse => some { op with status := .failed }
  | .sendControl, .io o => some { op with status := if o.error then .failed else .flush }
  | .uploadHeader, .io o =>
    if o.error then some { op with status := .failed } else some
        (uploadBody r uploadLength capacity op)
  | .pending stage io, .io o =>
    if o.Possible r.body op.line io then
      let op := { op with line := io.move r.body op.line o.moved }
      if o.accepted io then some (advance2 r uploadLength capacity op o.moved stage)
      else some { op with status := .failed }
    else none
  | .receive, .received closed => some { op with status := .flush, closed := closed }
  | .receive, .io o => if o.error then some { op with status := .failed } else none
  | _, _ => none

end

def bodyOf (r : Request) (uploadLength : Nat) (w : World) : Option Bytes :=
  bodyFrom r.body w (r.sources uploadLength)

section
variable (r : Request) (uploadLength : Nat) (w : World)

def Begins (line : Line) : Prop := ∀ b, bodyOf r uploadLength w = some b → line.wire <+: b

structure Feed (c : Cursor) (n : Nat) (line : Line) : Prop where
  within : c.Within (r.sources uploadLength)
  declared : declaredLength (remainingSources (r.sources uploadLength) c) = n
  unstaged : line.staging = []
  sent : line.wire.length + n = uploadLength
  held : bodyOf r uploadLength w =
    (bodyFrom r.body line.world (remainingSources (r.sources uploadLength) c)).map (line.wire ++ ·)

inductive Waiting (c : Cursor) (n maximum : Nat) (line : Line) : Stage → Io → Prop where
  | send {s rest m} (feed : Feed r uploadLength w c n line)
      (here : remainingSources (r.sources uploadLength) c = s :: rest) (within : m ≤ s.length)
      (bound : m ≤ maximum) : Waiting c n maximum line .body (.send (s.cap m))
  | splice {s rest m} (feed : Feed r uploadLength w c n line)
      (here : remainingSources (r.sources uploadLength) c = s :: rest) (within : m ≤ s.length)
      (bound : m ≤ maximum) : Waiting c n maximum line .body (.splice (s.cap m))
  | load {s rest m} (feed : Feed r uploadLength w c n line)
      (here : remainingSources (r.sources uploadLength) c = s :: rest) (within : m ≤ s.length)
      (bound : m ≤ maximum) : Waiting c n maximum line .pipe (.load (s.cap m))
  | drain {s rest m} (cursor : c.Within (r.sources uploadLength))
      (declared : declaredLength (remainingSources (r.sources uploadLength) c) = n)
      (here : remainingSources (r.sources uploadLength) c = s :: rest) (within : m ≤ s.length)
      (bound : m ≤ maximum) (staged : line.staging.length = m)
      (sent : line.wire.length + n = uploadLength)
      (held : bodyOf r uploadLength w =
        (bodyFrom r.body line.world (s.advance m :: rest)).map (line.wire ++ line.staging ++ ·)) :
      Waiting c n maximum line .body (.drain m)

variable {r uploadLength w}
variable {c : Cursor} {n maximum : Nat} {line : Line} {stage : Stage} {io : Io} {o : Outcome}
  {s : Source} {rest : List Source}

lemma length_append_take (wire : Bytes) {bytes : Bytes} {k} (there : k ≤ bytes.length) :
    (wire ++ bytes.take k).length = wire.length + k := by
  rw [length_append, length_take_of_le there]

lemma begins_of_held {x : Option Bytes} (tail : Bytes)
    (held : bodyOf r uploadLength w = x.map (line.wire ++ tail ++ ·)) :
    Begins r uploadLength w line := by
  intro b whole
  rw [held] at whole
  obtain ⟨rest, -, rfl⟩ := Option.map_eq_some_iff.1 whole
  exact ⟨tail ++ rest, by rw [append_assoc]⟩

lemma Feed.begins (feed : Feed r uploadLength w c n line) : Begins r uploadLength w line := by
  intro b whole
  rw [feed.held] at whole
  obtain ⟨rest, -, rfl⟩ := Option.map_eq_some_iff.1 whole
  exact prefix_append _ _

lemma Waiting.begins (waiting : Waiting r uploadLength w c n maximum line stage io) :
    Begins r uploadLength w line := by
  cases waiting with
  | send feed | splice feed | load feed => exact feed.begins
  | drain _ _ _ _ _ _ _ held => exact begins_of_held _ held

lemma Feed.held_move (feed : Feed r uploadLength w c n line)
    (here : remainingSources (r.sources uploadLength) c = s :: rest) {k} (within : k ≤ s.length)
    (there : k ≤ (s.available r.body line.world).length) :
    bodyOf r uploadLength w =
      (bodyFrom r.body (s.after line.world k) (s.advance k :: rest)).map
        (line.wire ++ (s.available r.body line.world).take k ++ ·) := by
  rw [feed.held, here, bodyFrom_move within there, Option.map_map]
  simp only [Function.comp_def, append_assoc]

lemma Feed.of_consume (line' : Line) {k} (cursor : c.Within (r.sources uploadLength))
    (declared : declaredLength (remainingSources (r.sources uploadLength) c) = n)
    (here : remainingSources (r.sources uploadLength) c = s :: rest) (within : k ≤ s.length)
    (unstaged : line'.staging = []) (sent : line.wire.length + n = uploadLength)
    (moved : line'.wire.length = line.wire.length + k) (held : bodyOf r uploadLength w =
      (bodyFrom r.body line'.world (s.advance k :: rest)).map (line'.wire ++ ·)) :
    Feed r uploadLength w (c.consume k) (n - k) line' ∧ k ≤ n := by
  have after := remainingSources_consume (n := k) here
  have lengths : declaredLength (s.advance k :: rest) + k = n := by
    rw [declaredLength_advance within, ← here, declared]
  refine ⟨⟨fun s' rest' found => ?_, ?_, unstaged, by omega, ?_⟩, by omega⟩
  · have first : s = s'.advance c.consumed := by
      have found' : (r.sources uploadLength).drop c.index = s' :: rest' := found
      rw [remainingSources, found'] at here
      exact (cons_eq_cons.1 here).1.symm
    have start := cursor s' rest' found
    rw [first, Source.advance] at within
    have room : k ≤ s'.length - c.consumed := within
    show c.consumed + k ≤ s'.length
    omega
  · rw [after]
    omega
  · rw [after]
    exact held

lemma Waiting.move (waiting : Waiting r uploadLength w c n maximum line stage io)
    (possible : o.Possible r.body line io) :
    Begins r uploadLength w (io.move r.body line o.moved) ∧
    (o.accepted io = true →
      match stage with
      | .pipe => Waiting r uploadLength w c n maximum (io.move r.body line o.moved) .body
          (.drain o.moved)
      | .body => Feed r uploadLength w (c.consume o.moved) (n - o.moved)
          (io.move r.body line o.moved) ∧
          o.moved ≤ n ∧ o.moved ≤ maximum) := by
  obtain ⟨short, there⟩ := possible
  cases waiting with
  | send feed here within bound | splice feed here within bound =>
    have room := Nat.le_trans short within
    have held := feed.held_move here room there
    refine ⟨begins_of_held [] (by rw [held, append_nil]; rfl), fun _ => ?_⟩
    refine And.imp_right (fun below => ⟨below, Nat.le_trans short bound⟩) (Feed.of_consume _
      feed.within feed.declared here room feed.unstaged feed.sent ?_ held)
    exact length_append_take line.wire there
  | @load s rest m feed here within bound =>
    have room : o.moved ≤ s.length := Nat.le_trans short within
    have held := feed.held_move here room there
    refine ⟨feed.begins, fun _ => ?_⟩
    have staged : line.staging ++ (s.available r.body line.world).take o.moved =
        (s.available r.body line.world).take o.moved := by
      rw [feed.unstaged, nil_append]
    refine Waiting.drain feed.within feed.declared here room (Nat.le_trans short bound) ?_
        feed.sent ?_
    · show (line.staging ++ (s.available r.body line.world).take o.moved).length = o.moved
      rw [staged]
      exact length_take_of_le there
    · show _ = Option.map
        (fun x => line.wire ++ (line.staging ++ (s.available r.body line.world).take o.moved) ++ x)
        _
      rw [staged]
      exact held
  | @drain s rest m cursor declared here within bound staged sent held =>
    have whole : line.wire ++ line.staging = line.wire ++ line.staging.take o.moved ++
        line.staging.drop o.moved := by
      rw [append_assoc, take_append_drop]
    refine ⟨begins_of_held (line.staging.drop o.moved) (by rw [held, whole]; rfl), fun fine => ?_⟩
    have all : o.moved = m := by
      simp only [Outcome.accepted, Io.exact, Io.length, Bool.true_and, Bool.and_eq_true,
        Bool.not_eq_true', bne_eq_false_iff_eq] at fine
      exact fine.1.2
    have complete : line.staging.take m = line.staging :=
      take_of_length_le (Nat.le_of_eq staged)
    rw [all]
    obtain ⟨next, below⟩ := Feed.of_consume ((Io.drain m).move r.body line m) cursor declared here
      within (drop_of_length_le (Nat.le_of_eq staged)) sent
      (length_append_take line.wire (Nat.le_of_eq staged.symm)) (by
        rw [held]
        show _ = Option.map (fun x => line.wire ++ line.staging.take m ++ x) _
        rw [complete]
        rfl)
    exact ⟨next, below, bound⟩

lemma Feed.post (feed : Feed r uploadLength w c n line) (maximum capacity : Nat) (more : 0 < n) :
    ∃ s c', uploadSource r uploadLength c maximum = .ok (s, c') ∧
      Waiting r uploadLength w c' n maximum line (postSource capacity s).1
          (postSource capacity s).2 := by
  rw [← feed.declared] at more
  obtain ⟨s, rest, c', found, here, -, within, lengths, bodies⟩ :=
    uploadSource_spec r uploadLength maximum feed.within more
  have feed' : Feed r uploadLength w c' n line :=
    ⟨within, lengths.trans feed.declared, feed.unstaged, feed.sent, by rw [feed.held, bodies]⟩
  have least : min maximum s.length ≤ s.length := Nat.min_le_right _ _
  have most : min maximum s.length ≤ maximum := Nat.min_le_left _ _
  refine ⟨_, c', found, ?_⟩
  rw [postSource]
  split
  · exact .send feed' here least most
  · split
    · exact .splice feed' here least most
    · show Waiting _ _ _ _ _ _ _ .pipe (.load (s.cap (min (min maximum s.length) capacity)))
      exact .load feed' here (Nat.le_trans (Nat.min_le_left _ _) least)
        (Nat.le_trans (Nat.min_le_left _ _) most)

lemma Feed.complete (feed : Feed r uploadLength w c 0 line) :
    bodyOf r uploadLength w = some line.wire := by
  rw [feed.held, bodyFrom_zero feed.declared, Option.map_some, append_nil]

end

section
variable (r : Request) (uploadLength capacity : Nat) (w : World)

def Holds1 (op : Http1) : Prop :=
  match op.status with
  | .sendHead => Feed r uploadLength w op.cursor op.uploadRemaining op.line
  | .pending stage io =>
    Waiting r uploadLength w op.cursor op.uploadRemaining op.uploadRemaining op.line stage io
  | .receiveHeader => Feed r uploadLength w op.cursor 0 op.line
  | .failed => Begins r uploadLength w op.line

inductive Tiles : List Frame → Nat → Prop where
  | nil : Tiles [] 0
  | snoc {frames : List Frame} {n : Nat} (tiles : Tiles frames n) (f : Frame)
      (start : f.start = n) :
      Tiles (frames ++ [f]) (n + f.length)

/-- They tile what was framed, and the last of them ends the stream if nothing is left to be framed.
-/
structure Framed (op : Http2) : Prop where
  tiles : Tiles op.frames (uploadLength - op.uploadRemaining)
  left : op.uploadRemaining ≤ uploadLength
  ends : ∀ f ∈ op.frames, f.endStream = true ↔ f.start + f.length = uploadLength
  last : op.uploadRemaining = 0 → uploadLength ≠ 0 → ∃ f ∈ op.frames, f.endStream = true

def Sends2 (op : Http2) : Prop :=
  match op.status with
  | .pending stage io =>
    Waiting r uploadLength w op.cursor (op.uploadRemaining + op.frameRemaining)
        op.frameRemaining op.line
      stage io
  | .uploadHeader => Feed r uploadLength w op.cursor
      (op.uploadRemaining + op.frameRemaining) op.line
  | .failed => Begins r uploadLength w op.line
  | .finished => op.uploadRemaining = 0 ∧ Feed r uploadLength w op.cursor 0 op.line
  | _ => Feed r uploadLength w op.cursor op.uploadRemaining op.line

variable {r uploadLength capacity w}

lemma Holds1.uploadNext {op} (feed : Feed r uploadLength w op.cursor op.uploadRemaining op.line) :
    Holds1 r uploadLength w (uploadNext r uploadLength capacity op) := by
  rw [Http.uploadNext]
  split
  next none_left =>
    rw [none_left] at feed
    exact feed
  next more =>
    obtain ⟨s, c, found, waiting⟩ := feed.post op.uploadRemaining capacity (Nat.pos_of_ne_zero more)
    rw [found]
    exact waiting

lemma Holds1.step {op op' o} (holds : Holds1 r uploadLength w op)
    (step : step1 r uploadLength capacity op o = some op') : Holds1 r uploadLength w op' := by
  obtain ⟨status, cursor, remaining, sent, line⟩ := op
  cases status with
  | sendHead =>
    simp only [step1] at step
    split at step
    · cases step
      exact Feed.begins holds
    · cases step
      exact Holds1.uploadNext holds
  | receiveHeader | failed => cases step
  | pending stage io =>
    simp only [step1] at step
    split at step
    next possible =>
      obtain ⟨begins, goes_on⟩ := Waiting.move holds possible
      split at step
      next fine =>
        cases step
        have next := goes_on fine
        cases stage with
        | pipe => exact next
        | body => exact Holds1.uploadNext next.1
      next =>
        cases step
        exact begins
    next => cases step

lemma Sends2.uploadBody {op}
    (feed : Feed r uploadLength w op.cursor (op.uploadRemaining + op.frameRemaining) op.line) :
    Sends2 r uploadLength w (uploadBody r uploadLength capacity op) := by
  rw [Http.uploadBody]
  split
  next none_left =>
    rw [none_left, Nat.add_zero] at feed
    exact feed
  next more =>
    obtain ⟨s, c, found, waiting⟩ := feed.post op.frameRemaining capacity (by omega)
    rw [found]
    exact waiting

lemma uploadBody_frames (op : Http2) : (uploadBody r uploadLength capacity op).frames = op.frames ∧
      (uploadBody r uploadLength capacity op).uploadRemaining = op.uploadRemaining := by
  rw [Http.uploadBody]
  split
  · exact ⟨rfl, rfl⟩
  · split <;> exact ⟨rfl, rfl⟩

lemma Framed.congr {op op'} (framed : Framed uploadLength op)
    (same : op'.frames = op.frames ∧ op'.uploadRemaining = op.uploadRemaining) :
    Framed uploadLength op' := by
  obtain ⟨frames, remaining⟩ := same
  refine ⟨?_, ?_, ?_, ?_⟩
  · rw [frames, remaining]
    exact framed.tiles
  · rw [remaining]
    exact framed.left
  · rw [frames]
    exact framed.ends
  · rw [frames, remaining]
    exact framed.last

lemma Framed.sendData {op} (framed : Framed uploadLength op)
    (feed : Feed r uploadLength w op.cursor op.uploadRemaining op.line) (length : Nat) :
    Framed uploadLength (sendData op length) := by
  have start : op.line.wire.length = uploadLength - op.uploadRemaining := by
    have := feed.sent
    omega
  have left := framed.left
  have new : (min length op.uploadRemaining == op.uploadRemaining) = true ↔
      op.line.wire.length + min length op.uploadRemaining = uploadLength := by
    rw [beq_iff_eq, start]
    omega
  refine ⟨?_, ?_, fun f mem => ?_, fun none_left some => ?_⟩
  · have tiles := framed.tiles.snoc ⟨op.line.wire.length, min length op.uploadRemaining,
      min length op.uploadRemaining == op.uploadRemaining⟩ start
    have total : uploadLength - op.uploadRemaining + min length op.uploadRemaining =
        uploadLength - (op.uploadRemaining - min length op.uploadRemaining) := by omega
    show Tiles _ (uploadLength - (op.uploadRemaining - min length op.uploadRemaining))
    rw [← total]
    exact tiles
  · show op.uploadRemaining - _ ≤ uploadLength
    omega
  · obtain old | rfl := mem_append.1 mem |>.imp_right mem_singleton.1
    · exact framed.ends f old
    · exact new
  · have all : op.uploadRemaining - min length op.uploadRemaining = 0 := none_left
    refine ⟨_, mem_append_right _ (mem_singleton_self _), ?_⟩
    rw [beq_iff_eq]
    omega

def Holds2 (r : Request) (uploadLength : Nat) (w : World) (op : Http2) : Prop :=
  Sends2 r uploadLength w op ∧ Framed uploadLength op

lemma Holds2.step (prepared : r.upload = false → uploadLength = 0) {op op' e}
    (holds : Holds2 r uploadLength w op) (step : step2 r uploadLength capacity op e = some op') :
    Holds2 r uploadLength w op' := by
  obtain ⟨sends, framed⟩ := holds
  obtain ⟨status, cursor, remaining, frame, sent, closed, frames, line⟩ := op
  cases status with
  | flush =>
    cases e with
    | data length =>
      simp only [step2] at step
      split at step
      next => cases step
      next =>
        cases step
        refine ⟨?_, framed.sendData sends length⟩
        have least : min length remaining ≤ remaining := Nat.min_le_right _ _
        show Feed r uploadLength w cursor
            (remaining - min length remaining + min length remaining) line
        rw [Nat.sub_add_cancel least]
        exact sends
    | control =>
      cases step
      exact ⟨sends, framed.congr ⟨rfl, rfl⟩⟩
    | refuse =>
      cases step
      exact ⟨Feed.begins sends, framed.congr ⟨rfl, rfl⟩⟩
    | io o | received closed => cases step
    | idle =>
      simp only [step2, flushIdle] at step
      cases closed with
      | none =>
        cases step
        exact ⟨sends, framed.congr ⟨rfl, rfl⟩⟩
      | some fine =>
        cases fine with
        | false =>
          cases step
          exact ⟨Feed.begins sends, framed.congr ⟨rfl, rfl⟩⟩
        | true =>
          simp only at step
          split at step
          next =>
            cases step
            exact ⟨Feed.begins sends, framed.congr ⟨rfl, rfl⟩⟩
          next complete =>
            cases step
            refine ⟨?_, framed.congr ⟨rfl, rfl⟩⟩
            have nothing : remaining = 0 := by
              cases upload : r.upload with
              | false =>
                have bound := framed.left
                rw [prepared upload] at bound
                exact Nat.le_zero.1 bound
              | true => simpa [upload] using complete
            subst nothing
            exact ⟨rfl, sends⟩
  | sendControl =>
    cases e with
    | io o =>
      cases step
      refine ⟨?_, framed.congr ⟨rfl, rfl⟩⟩
      cases o.error with
      | false => exact sends
      | true => exact Feed.begins sends
    | _ => cases step
  | uploadHeader =>
    cases e with
    | io o =>
      simp only [step2] at step
      split at step
      · cases step
        exact ⟨Feed.begins sends, framed.congr ⟨rfl, rfl⟩⟩
      · cases step
        exact ⟨Sends2.uploadBody sends, framed.congr (uploadBody_frames _)⟩
    | _ => cases step
  | pending stage io =>
    cases e with
    | io o =>
      simp only [step2] at step
      split at step
      next possible =>
        obtain ⟨begins, goes_on⟩ := Waiting.move sends possible
        split at step
        next fine =>
          cases step
          have next := goes_on fine
          cases stage with
          | pipe => exact ⟨next, framed.congr ⟨rfl, rfl⟩⟩
          | body =>
            obtain ⟨feed, -, bound⟩ := next
            refine ⟨Sends2.uploadBody ?_, framed.congr (uploadBody_frames _)⟩
            show Feed r uploadLength w _ (remaining + (frame - o.moved)) _
            rw [← Nat.add_sub_assoc bound]
            exact feed
        next =>
          cases step
          exact ⟨begins, framed.congr ⟨rfl, rfl⟩⟩
      next => cases step
    | _ => cases step
  | receive =>
    cases e with
    | received closed =>
      cases step
      exact ⟨sends, framed.congr ⟨rfl, rfl⟩⟩
    | io o =>
      obtain ⟨-, ⟨⟩⟩ := Option.ite_none_right_eq_some.1 step
      exact ⟨Feed.begins sends, framed.congr ⟨rfl, rfl⟩⟩
    | _ => cases step
  | finished | failed => cases e <;> cases step

lemma feed_start (prepared : prepareUpload r = .ok uploadLength) :
    Feed r uploadLength w ⟨0, 0⟩ uploadLength ⟨w, [], []⟩ := by
  have first : remainingSources (r.sources uploadLength) ⟨0, 0⟩ = r.sources uploadLength := by
    rw [remainingSources, drop_zero]
    cases r.sources uploadLength <;> rfl
  refine ⟨fun _ _ _ => Nat.zero_le _, ?_, rfl, Nat.zero_add _, ?_⟩
  · rw [first]
    exact (prepareUpload_spec r prepared).1
  · rw [first]
    exact Option.map_id'.symm

lemma Holds1.begins {op} (holds : Holds1 r uploadLength w op) :
    Begins r uploadLength w op.line := by
  obtain ⟨status, cursor, remaining, sent, line⟩ := op
  cases status with
  | sendHead | receiveHeader => exact Feed.begins holds
  | pending stage io => exact Waiting.begins holds
  | failed => exact holds

lemma Sends2.begins {op} (sends : Sends2 r uploadLength w op) :
    Begins r uploadLength w op.line := by
  obtain ⟨status, cursor, remaining, frame, sent, closed, frames, line⟩ := op
  cases status with
  | pending stage io => exact Waiting.begins sends
  | failed => exact sends
  | finished => exact Feed.begins sends.2
  | _ => exact Feed.begins sends

lemma not_accepted_of_starved {line} {io : Io} {o : Outcome}
    (starved : io.available r.body line = [])
    (possible : o.Possible r.body line io) : o.accepted io = false := by
  have none_moved : o.moved = 0 := by
    have := possible.2
    rw [starved] at this
    exact Nat.le_zero.1 this
  simp [Outcome.accepted, none_moved]

end

/-- The body on the wire begins the body of the request at every moment, and is all of it, with the
length that was declared, when the request comes to the response (HTTP/1) or ends without an error
(HTTP/2); then every source has given all it declared. Over HTTP/2 the frames tile it, and the last
one ends the stream. An operation on a source that has ended makes the request fail. -/
theorem upload_exact (r : Request) (uploadLength capacity : Nat) (w : World)
    (prepared : prepareUpload r = .ok uploadLength) :
    (∀ os op, run (step1 r uploadLength capacity) (start1 uploadLength w) os = some op →
      Begins r uploadLength w op.line ∧
      (op.status = .receiveHeader →
        bodyOf r uploadLength w = some op.line.wire ∧ op.line.wire.length = uploadLength) ∧
      ∀ stage io o op', op.status = .pending stage io → io.available r.body op.line = [] →
        step1 r uploadLength capacity op o = some op' → op'.status = .failed) ∧
    (∀ es op, run (step2 r uploadLength capacity) (start2 uploadLength w) es = some op →
      Begins r uploadLength w op.line ∧
      (op.status = .finished →
        bodyOf r uploadLength w = some op.line.wire ∧ op.line.wire.length = uploadLength ∧
        Tiles op.frames uploadLength ∧
        (∀ f ∈ op.frames, f.endStream = true ↔ f.start + f.length = uploadLength) ∧
        (uploadLength ≠ 0 → ∃ f ∈ op.frames, f.endStream = true)) ∧
      ∀ stage io o op', op.status = .pending stage io → io.available r.body op.line = [] →
        step2 r uploadLength capacity op (.io o) = some op' → op'.status = .failed) := by
  have declared := (prepareUpload_spec r prepared).2
  have start : Feed r uploadLength w ⟨0, 0⟩ uploadLength ⟨w, [], []⟩ := feed_start prepared
  refine ⟨fun os op run => ?_, fun es op run => ?_⟩
  · have holds : Holds1 r uploadLength w op :=
      run_inv (I := Holds1 r uploadLength w) (s := start1 uploadLength w)
        (fun _ _ _ => Holds1.step) start run
    refine ⟨holds.begins, fun done => ?_, fun stage io o op' waiting starved step => ?_⟩
    · rw [Holds1, done] at holds
      exact ⟨Feed.complete holds, holds.sent⟩
    · simp only [step1, waiting] at step
      split at step
      next possible =>
        rw [not_accepted_of_starved starved possible] at step
        cases step
        rfl
      next => cases step
  · have first : Holds2 r uploadLength w (start2 uploadLength w) := by
      refine ⟨start, ⟨?_, Nat.le_refl _, nofun, fun h h' => absurd h h'⟩⟩
      show Tiles [] (uploadLength - uploadLength)
      rw [Nat.sub_self]
      exact .nil
    obtain ⟨sends, framed⟩ : Holds2 r uploadLength w op :=
      run_inv (I := Holds2 r uploadLength w) (fun _ _ _ => Holds2.step declared) first run
    refine ⟨sends.begins, fun done => ?_, fun stage io o op' waiting starved step => ?_⟩
    · rw [Sends2, done] at sends
      obtain ⟨all, feed⟩ := sends
      have tiles := framed.tiles
      rw [all, Nat.sub_zero] at tiles
      exact ⟨Feed.complete feed, feed.sent, tiles, framed.ends, framed.last all⟩
    · simp only [step2, waiting] at step
      split at step
      next possible =>
        rw [not_accepted_of_starved starved possible] at step
        cases step
        rfl
      next => cases step

def twoSegments : Request where
  upload := true
  body := []
  sourceFd := -1
  sourceOffset := 0
  sourceLength := 0
  sourceSeek := true
  sourceSegments := [⟨3, 1, 2, true⟩, ⟨4, 0, 1, false⟩]

def fileAndPipe : World where
  files fd := if fd = 3 then [9, 1, 2] else []
  pipes fd := if fd = 4 then [7] else []

def byteByByte : List Outcome :=
  [⟨0, false⟩, ⟨1, false⟩, ⟨1, false⟩, ⟨1, false⟩, ⟨1, false⟩, ⟨1, false⟩]

def twoFrames : List Event2 :=
  [.data 2, .io ⟨9, false⟩, .io ⟨2, false⟩, .io ⟨2, false⟩, .data 2, .io ⟨9, false⟩,
  .io ⟨1, false⟩, .idle,
    .received (some true), .idle]

theorem upload_exact_segments : bodyOf twoSegments 3 fileAndPipe = some [1, 2, 7] ∧
    bodyOf twoSegments 3 fileAndPipe =
      some (final (step1 twoSegments 3 1) (start1 3 fileAndPipe) byteByByte).line.wire ∧
    bodyOf twoSegments 3 fileAndPipe =
      some (final (step2 twoSegments 3 4) (start2 3 fileAndPipe) twoFrames).line.wire := by
  have http1 := (upload_exact twoSegments 3 1 fileAndPipe rfl).1 byteByByte _ (run_final rfl)
  have http2 := (upload_exact twoSegments 3 4 fileAndPipe rfl).2 twoFrames _ (run_final rfl)
  exact ⟨rfl, (http1.2.1 rfl).1, (http2.2.1 rfl).1⟩

end Ngs3fs.Http
