import Ngs3fs.Http.Receive

/-!
# The body of a response is delivered

What the sink or the response was given, followed by what is in flight, is the decoded body of the
cells taken from the socket. A fixed body is held to by counting (`FixedInv`), any other by the
parser (`ParsedInv`). The parser is only right about the end of a message if nothing follows it:
`Clean` says so of a chunked response and of a response to `HEAD`, which the parser is given whole.
-/

namespace Ngs3fs.Http
open Machine Cell Framing List Nat

def Cell.isBody (c : Cell) : Bool :=
  match c.kind with
  | .rest isBody _ => isBody
  | _ => false

def Cell.isLast (c : Cell) : Bool :=
  match c.kind with
  | .rest _ last => last
  | _ => false

def Cell.IsRest (c : Cell) : Prop := ∃ isBody last, c.kind = .rest isBody last

def bodies (cells : List Cell) : Bytes := (cells.filter isBody).map byte

def Clean (f : Fetch) (m : Message) : Prop :=
  if f.isHead then m.framing.cells = []
  else m.status = 204 ∨ m.status = 304 ∨ ∀ c ∈ m.framing.cells.dropLast, c.isLast = false

section
variable {next : Next} {isHead : Bool} {status room : Nat} {p : Parser}

lemma isRest_cells (framing : Framing) : ∀ c ∈ framing.cells, c.IsRest := by
  intro c mem
  cases framing with
  | fixed n bytes | close bytes =>
    obtain ⟨b, -, rfl⟩ := mem_map.1 mem
    exact ⟨true, false, rfl⟩
  | chunked cells =>
    obtain ⟨c, -, rfl⟩ := mem_map.1 mem
    exact ⟨c.2.1, c.2.2, rfl⟩

lemma bodies_append (cells cells' : List Cell) :
    bodies (cells ++ cells') = bodies cells ++ bodies cells' := by
  rw [bodies, bodies, bodies, filter_append, map_append]

lemma bodies_all (bytes : Bytes) : bodies (bytes.map fun b => ⟨b, .rest true false⟩) = bytes := by
  rw [bodies, filter_eq_self.2 (by simp [isBody]), map_map]
  exact map_id bytes

lemma bodies_chunked_cons (b : UInt8) (isBody last : Bool) (cells : List (UInt8 × Bool × Bool)) :
    bodies (chunked ((b, isBody, last) :: cells)).cells =
      (if isBody then [b] else []) ++ bodies (chunked cells).cells := by
  rw [bodies, Framing.cells, map_cons, filter_cons]
  cases isBody <;> rfl

lemma execute_rest : ∀ {cells : List Cell} {room : Nat} {p : Parser}, (∀ c ∈ cells, c.IsRest) →
    (∀ c ∈ cells.dropLast, c.isLast = false) → p.messageComplete = false → ∀ e,
    execute next isHead status room p cells = some e →
    e = ⟨cells.length, { p with messageComplete := cells.any isLast }, none, bodies cells⟩ ∧
      (bodies cells).length ≤ room := by
  intro cells
  induction cells with
  | nil =>
    intro room p _ _ incomplete e executed
    cases executed
    obtain ⟨headers, message⟩ := p
    cases incomplete
    exact ⟨rfl, zero_le _⟩
  | cons c cells ih =>
    intro room p rest lasts incomplete e executed
    obtain ⟨isBody, last, kind⟩ := rest c mem_cons_self
    have body : c.isBody = isBody := by rw [Cell.isBody, kind]
    have ends : c.isLast = last := by rw [isLast, kind]
    simp only [execute, incomplete, Bool.false_eq_true, if_false, kind] at executed
    split at executed
    next => cases executed
    next fits =>
      obtain ⟨e', executed', rfl⟩ := Option.map_eq_some_iff.1 executed
      cases cells with
      | nil =>
        cases executed'
        simp only [Executed.rest, bodies, filter_cons, body, any_cons, ends]
        cases isBody with
        | false => simp
        | true =>
          refine ⟨by simp, one_le_iff_ne_zero.2 ?_⟩
          simpa using fits
      | cons c' cells =>
        have going : last = false := by
          rw [← ends]
          exact lasts c (by simp)
        subst going
        obtain ⟨rfl, bound⟩ := ih (fun d mem => rest d (mem_cons_of_mem _ mem))
          (fun d mem => lasts d (by
            rw [dropLast_cons_of_ne_nil (cons_ne_nil _ _)]
            exact mem_cons_of_mem _ mem)) rfl e' executed'
        have split : bodies (c :: c' :: cells) =
            if isBody then c.byte :: bodies (c' :: cells) else bodies (c' :: cells) := by
          rw [bodies, filter_cons, body]
          cases isBody <;> rfl
        have same : (c :: c' :: cells).any isLast = (c' :: cells).any isLast := by
          rw [any_cons, ends, Bool.false_or]
        rw [split, same]
        refine ⟨by cases isBody <;> rfl, ?_⟩
        cases isBody with
        | false => exact bound
        | true =>
          have some_room : room ≠ 0 := by simpa using fits
          simp only [if_true, length_cons] at bound ⊢
          omega

lemma length_mark (kind : Bool → Kind) : ∀ block : Bytes, (mark kind block).length = block.length
  | [] => rfl
  | _ :: rest => congrArg (· + 1) (length_mark kind rest)

lemma drop_mark (kind : Bool → Kind) : ∀ (block : Bytes) (n : Nat),
    (mark kind block).drop n = mark kind (block.drop n)
  | [], n => by rw [mark, drop_nil, drop_nil, mark]
  | b :: rest, 0 => rfl
  | b :: rest, n + 1 => drop_mark kind rest n

lemma take_mark_append (kind : Bool → Kind) (block : Bytes) (cells : List Cell) (n : Nat) :
    (mark kind block ++ cells).take (block.length + n) = mark kind block ++ cells.take n := by
  rw [← length_mark kind block, take_length_add_append]

lemma drop_mark_append (kind : Bool → Kind) (block : Bytes) (cells : List Cell) :
    (mark kind block ++ cells).drop block.length = cells := by
  rw [← length_mark kind block, drop_left]

lemma mark_filled (kind : Bool → Kind) {block : Bytes} (cells : List Cell)
    (some_bytes : block ≠ []) :
    (mark kind block ++ cells).isEmpty = false := by
  cases block with
  | nil => exact absurd rfl some_bytes
  | cons b block => rfl

def Passes (next : Next) (isHead : Bool) (status : Nat) (kind : Bool → Kind) : Prop :=
  ∀ room p b cells, p.messageComplete = false →
    execute next isHead status room p (⟨b, kind false⟩ :: cells) =
      (execute next isHead status room p cells).map Executed.more

lemma passes_info (next : Next) (isHead : Bool) (status : Nat) :
    Passes next isHead status .info := by
  intro room p b cells incomplete
  simp only [execute, incomplete, Bool.false_eq_true, if_false]

lemma passes_head (next : Next) (isHead : Bool) (status : Nat) :
    Passes next isHead status .head := by
  intro room p b cells incomplete
  simp only [execute, incomplete, Bool.false_eq_true, if_false]

section
variable {kind : Bool → Kind} (passes : Passes next isHead status kind)
  (incomplete : p.messageComplete = false)
include passes incomplete

lemma execute_short : ∀ {block : Bytes} {n : Nat}, n < block.length →
    execute next isHead status room p ((mark kind block).take n) = some ⟨n, p, none, []⟩ := by
  intro block
  induction block with
  | nil => exact fun short => absurd short (not_lt_zero _)
  | cons b block ih =>
    intro n short
    cases n with
    | zero => rw [take_zero, execute]
    | succ n =>
      have below : n < block.length := lt_of_succ_lt_succ short
      have more : block.isEmpty = false := by
        cases block with
        | nil => exact absurd below (not_lt_zero _)
        | cons => rfl
      rw [mark, take_succ_cons, more, passes room p b _ incomplete, ih below]
      rfl

lemma execute_block {parser head cells}
    (last : ∀ b, execute next isHead status room p (⟨b, kind true⟩ :: cells) =
      some ⟨1, parser, head, []⟩) : ∀ {block :
    Bytes}, block ≠ [] → execute next isHead status room p (mark kind block ++ cells) =
      some ⟨block.length, parser, head, []⟩ := by
  intro block
  induction block with
  | nil => exact fun h => absurd rfl h
  | cons b block ih =>
    intro _
    cases block with
    | nil => exact last b
    | cons b' block =>
      rw [mark, cons_append, isEmpty_cons, passes room p b _ incomplete, ih (cons_ne_nil _ _)]
      rfl

end

variable {block : Bytes}

section
variable (incomplete : p.messageComplete = false) (some_bytes : block ≠ [])
include incomplete some_bytes

lemma execute_info (cells : List Cell) :
    execute next isHead status room p (mark .info block ++ cells) =
      some ⟨block.length, ⟨true, true⟩, some 100, []⟩ := by
  have last : ∀ b, execute next isHead status room p (⟨b, .info true⟩ :: cells) =
      some ⟨1, ⟨true, true⟩, some 100, []⟩ := by
    intro b
    simp only [execute, incomplete, Bool.false_eq_true, if_false]
  exact execute_block (passes_info next isHead status) incomplete last some_bytes

lemma execute_head (cells : List Cell) :
    execute next false status room p (mark .head block ++ cells) =
      some ⟨block.length, ⟨true, false⟩, some status, []⟩ := by
  have last : ∀ b, execute next false status room p (⟨b, .head true⟩ :: cells) =
      some ⟨1, ⟨true, false⟩, some status, []⟩ := by
    intro b
    simp only [execute, incomplete, Bool.false_eq_true, if_false]
  exact execute_block (passes_head next false status) incomplete last some_bytes

lemma execute_head_only :
    execute next true status room p (mark .head block) =
      some ⟨block.length, ⟨true, true⟩, some status, []⟩ := by
  have last : ∀ b, execute next true status room p (⟨b, .head true⟩ :: []) =
      some ⟨1, ⟨true, true⟩, some status, []⟩ := by
    intro b
    simp only [execute, incomplete, Bool.false_eq_true, if_false]
    rfl
  have found := execute_block (passes_head next true status) incomplete last some_bytes
  rwa [append_nil] at found

end

end

section
variable (f : Fetch) (m : Message)

def delivered (op : Receiver) : Bytes := if f.toSink m.status then op.sink else op.body

def elsewhere (op : Receiver) : Bytes := if f.toSink m.status then op.body else op.sink

structure Taken (op : Receiver) (x : Nat) : Prop where
  status : op.status = m.status
  socket : op.socket = m.framing.cells.drop x
  taken : op.taken = m.heads.length + x
  bound : x ≤ m.framing.cells.length
  elsewhere : elsewhere f m op = []
  bodied : bodiless f m = false

structure FixedInv (n : Nat) (bytes : Bytes) (op : Receiver) (flight : Bytes) : Prop where
  framing : m.framing = .fixed n bytes
  taken : Taken f m op ((delivered f m op).length + flight.length)
  bytes : delivered f m op ++ flight = bytes.take ((delivered f m op).length + flight.length)
  remaining : op.fixedRemaining = some (n - (delivered f m op).length)
  within : (delivered f m op).length + flight.length ≤ n
  count : op.bodyBytes = (delivered f m op).length
  limit : n ≤ f.limit m.status

/-- Of the `y` cells taken after the heads `x` have been parsed. -/
structure ParsedInv (op : Receiver) (x y : Nat) (flight : Bytes) : Prop where
  framing : m.framing.fixedBodyRemaining = none
  taken : Taken f m op y
  bytes : delivered f m op ++ flight = bodies (m.framing.cells.take x)
  remaining : op.fixedRemaining = none
  unstaged : op.staging = []
  count : op.bodyBytes = (delivered f m op ++ flight).length
  limit : op.bodyBytes ≤ f.limit m.status
  complete : op.parser.messageComplete = (m.framing.cells.take x).any isLast

/-- A connection that is kept has given what belongs to the response. -/
def Delivered (op : Receiver) (reused : Bool) : Prop :=
  ∃ body n, decoded f m = some (body, n) ∧ delivered f m op = body ∧ elsewhere f m op = [] ∧
    op.bodyBytes = body.length ∧ body.length ≤ f.limit m.status ∧
    (reused = true → op.taken = m.heads.length + n ∧ op.staging = [])

inductive HeadTail : List Cell → Prop where
  | head {block : Bytes} (some_bytes : block ≠ []) : HeadTail (mark .head block)
  | info {block : Bytes} {tail : List Cell} (some_bytes : block ≠ []) (rest : HeadTail tail) :
      HeadTail (mark .info block ++ tail)

structure Quiet (op : Receiver) : Prop where
  sink : op.sink = []
  body : op.body = []
  bodyBytes : op.bodyBytes = 0
  remaining : op.fixedRemaining = none
  unstaged : op.staging = []

structure HeadInv (op : Receiver) (tail : List Cell) : Prop where
  heads : HeadTail tail
  fresh : op.parser = ⟨false, false⟩
  quiet : Quiet op

def Receives (op : Receiver) : Prop :=
  match op.stage with
  | .receiveHeader => ∃ tail, HeadInv op tail ∧ op.socket = tail ++ m.framing.cells ∧
      op.taken + tail.length = m.heads.length
  | .receiveBody length =>
    (∃ n bytes, FixedInv f m n bytes op [] ∧ op.staging = [] ∧ length ≤
    n - (delivered f m op).length ∧
      (f.toSink m.status = true → f.memory = false)) ∨
    ∃ x, ParsedInv f m op x x [] ∧ op.parser.messageComplete = false
  | .receiveMemory => f.toSink m.status = true ∧ ∃ n bytes, FixedInv f m n bytes op [] ∧
      op.staging = []
  | .socketPipe length => f.toSink m.status = true ∧ ∃ n bytes, FixedInv f m n bytes op [] ∧
      op.staging = [] ∧ length ≤ n - (delivered f m op).length
  | .pipeFile length => f.toSink m.status = true ∧ length = op.staging.length ∧
      ∃ n bytes, FixedInv f m n bytes op op.staging
  | .pipeCopy length => f.toSink m.status = true ∧ length = op.staging.length ∧
      ∃ n bytes, FixedInv f m n bytes op op.staging
  | .writeFile data false => f.toSink m.status = true ∧ op.staging = [] ∧
      ∃ n bytes, FixedInv f m n bytes op data
  | .writeFile data true => f.toSink m.status = true ∧ ∃ x, ParsedInv f m op x x data
  | .complete reused => Delivered f m op reused
  | .failed => True

variable {f m} {op op' : Receiver} {n x : Nat} {bytes flight : Bytes} {capacity : Nat} {next : Next}

lemma cells_fixed : (fixed n bytes).cells.map byte = bytes := by
  rw [cells, map_map]
  exact map_id bytes

lemma length_cells_fixed : (fixed n bytes).cells.length = bytes.length := length_map _

variable {k : Nat}

lemma Taken.on (taken : Taken f m op x) {stage parser bodyBytes}
    {fixedRemaining staging socketSplice fileSplice} :
    Taken f m { op with
      stage, parser, bodyBytes, fixedRemaining, staging, socketSplice, fileSplice } x :=
  { taken with }

lemma Taken.take (taken : Taken f m op x) (there : k ≤ op.socket.length) :
    Taken f m (op.take k) (x + k) := by
  have bound := taken.bound
  rw [taken.socket, length_drop] at there
  refine { taken with socket := ?_, taken := ?_, bound := by omega }
  · show op.socket.drop k = _
    rw [taken.socket, drop_drop]
  · show op.taken + k = _
    rw [taken.taken, Nat.add_assoc]

lemma FixedInv.take (inv : FixedInv f m n bytes op []) (there : k ≤ op.socket.length)
    (within : k ≤ n - (delivered f m op).length) :
    FixedInv f m n bytes (op.take k) ((op.socket.take k).map byte) := by
  have size : ((op.socket.take k).map byte).length = k := by
    rw [length_map, length_take_of_le there]
  have same : delivered f m (op.take k) = delivered f m op := rfl
  have before := inv.within
  have taken := inv.taken
  have bytes' := inv.bytes
  rw [length_nil, Nat.add_zero] at before taken bytes'
  refine { inv with taken := ?_, bytes := ?_, within := ?_ }
  · rw [size]
    exact taken.take there
  · have socket : op.socket.map byte = bytes.drop (delivered f m op).length := by
      rw [taken.socket, map_drop, inv.framing, cells_fixed]
    rw [size, same, map_take, socket, take_add, ← bytes', append_nil]
  · rw [size, same]
    omega

section
variable (inv : FixedInv f m n bytes op flight)
include inv

lemma FixedInv.land {stage sink body staging}
    (arrived : (if f.toSink m.status then sink else body) = delivered f m op ++ flight)
    (nothing : (if f.toSink m.status then body else sink) = elsewhere f m op) :
    FixedInv f m n bytes ({ op with stage, sink, body, staging }.account flight.length) [] := by
  have size : (if f.toSink m.status then sink else body).length =
      (delivered f m op).length + flight.length := by
    rw [arrived, length_append]
  have before := inv.taken
  rw [← size] at before
  refine ⟨inv.framing, { before with elsewhere := nothing.trans before.elsewhere }, ?_, ?_,
    Nat.le_trans (Nat.le_of_eq size) inv.within, ?_, inv.limit⟩
  · rw [append_nil]
    exact arrived.trans (inv.bytes.trans (congrArg bytes.take size.symm))
  · show op.fixedRemaining.map _ = _
    rw [inv.remaining, Option.map_some, Nat.sub_sub, ← size]
    rfl
  · exact (congrArg (· + flight.length) inv.count).trans size.symm

lemma FixedInv.land_sink {stage staging} (sinks : f.toSink m.status = true) :
    FixedInv f m n bytes
      ({ op with stage, sink := op.sink ++ flight, staging }.account flight.length) [] := by
  refine inv.land ?_ ?_
  · rw [delivered, if_pos sinks, if_pos sinks]
  · rw [elsewhere, if_pos sinks, if_pos sinks]

lemma FixedInv.restage {stage staging socketSplice fileSplice} :
    FixedInv f m n bytes { op with stage, staging, socketSplice, fileSplice } flight :=
  { inv with taken := inv.taken.on }

end

lemma ParsedInv.restage (inv : ParsedInv f m op x x flight) {stage} :
    ParsedInv f m { op with stage } x x flight :=
  { inv with taken := inv.taken.on }

lemma FixedInv.delivered (inv : FixedInv f m n bytes op []) (unstaged : op.staging = [])
    (all : (delivered f m op).length = n) (reused : Bool) : Delivered f m op reused := by
  have taken := inv.taken
  have arrived := inv.bytes
  rw [length_nil, Nat.add_zero, all] at taken arrived
  have enough : n ≤ bytes.length := by
    have bound := taken.bound
    rwa [inv.framing, length_cells_fixed] at bound
  refine ⟨bytes.take n, n, ?_, ?_, taken.elsewhere, ?_, ?_, fun _ => ⟨taken.taken, unstaged⟩⟩
  · rw [decoded, taken.bodied, inv.framing]
    exact if_pos enough
  · rwa [append_nil] at arrived
  · rw [length_take_of_le enough]
    exact inv.count.trans all
  · rw [length_take_of_le enough]
    exact inv.limit

lemma Receives.bodyNext_fixed (n : Nat) (bytes : Bytes) (inv : FixedInv f m n bytes op [])
    (unstaged : op.staging = []) : Receives f m (bodyNext capacity f m op) := by
  have within := inv.within
  rw [length_nil, Nat.add_zero] at within
  cases left : n - (Http.delivered f m op).length with
  | zero =>
    have ends : nextStage capacity f m op = .complete m.keepAlive := by
      rw [nextStage, inv.remaining, left]
      rfl
    rw [bodyNext, ends]
    exact inv.delivered unstaged (by omega) m.keepAlive
  | succ k =>
    have least : ∀ a, min (k + 1) a ≤ n - (Http.delivered f m op).length := by
      intro a
      rw [left]
      exact Nat.min_le_left _ _
    have posted : nextStage capacity f m op =
        if f.toSink m.status then
          if f.memory then .receiveMemory
          else if !op.socketSplice || !op.fileSplice then .receiveBody (min (k + 1) http1ReadSize)
          else .socketPipe (min (k + 1) capacity)
        else .receiveBody (min (k + 1) http1ReadSize) := by
      rw [nextStage, inv.remaining, left, inv.taken.status]
      rfl
    rw [bodyNext, posted]
    split
    next sinks =>
      split
      next => exact ⟨sinks, n, bytes, inv.restage, unstaged⟩
      next memory =>
        split
        next => exact .inl ⟨n, bytes, inv.restage, unstaged, least _,
            fun _ => by simpa using memory⟩
        next => exact ⟨sinks, n, bytes, inv.restage, unstaged, least _⟩
    next sinks => exact .inl ⟨n, bytes, inv.restage, unstaged, least _, fun h => absurd h sinks⟩

lemma Receives.bodyNext_parsed (inv : ParsedInv f m op x x [])
    (more : op.parser.messageComplete = false) : Receives f m (bodyNext capacity f m op) := by
  have posted : nextStage capacity f m op = .receiveBody http1ReadSize := by
    rw [nextStage, inv.remaining]
  rw [bodyNext, posted]
  exact .inr ⟨x, inv.restage, more⟩

lemma lasts_of_clean (clean : Clean f m) (bodied : bodiless f m = false) (x k : Nat) :
    ∀ c ∈ ((m.framing.cells.drop x).take k).dropLast, c.isLast = false := by
  intro c mem
  have all : ∀ c ∈ m.framing.cells.dropLast, c.isLast = false := by
    rw [bodiless, Bool.or_eq_false_iff, Bool.or_eq_false_iff, beq_eq_false_iff_ne,
      beq_eq_false_iff_ne] at bodied
    rw [Clean, if_neg (by rw [bodied.1.1]; exact Bool.false_ne_true)] at clean
    exact (clean.resolve_left bodied.1.2).resolve_left bodied.2
  refine all c ?_
  rw [dropLast_eq_take, mem_iff_getElem?] at mem ⊢
  obtain ⟨i, found⟩ := mem
  rw [getElem?_take, length_take, length_drop] at found
  split at found
  next short =>
    rw [getElem?_take, if_pos (by omega), getElem?_drop] at found
    refine ⟨x + i, ?_⟩
    rw [getElem?_take, if_pos (by omega)]
    exact found
  next => cases found

lemma all_of_any_last (clean : Clean f m) (bodied : bodiless f m = false)
    (ended : (m.framing.cells.take x).any isLast = true) : m.framing.cells.length ≤ x := by
  by_contra short
  obtain ⟨c, mem, last⟩ := any_eq_true.1 ended
  have clear := lasts_of_clean clean bodied 0 m.framing.cells.length
  rw [drop_zero, take_length] at clear
  have inside : c ∈ m.framing.cells.dropLast := by
    rw [dropLast_eq_take]
    exact take_subset_take_left _ (by omega) mem
  rw [clear c inside] at last
  cases last

lemma untilLast_of_any : ∀ {cells : List (UInt8 × Bool × Bool)},
    (∀ c ∈ (chunked cells).cells.dropLast, c.isLast = false) →
    (chunked cells).cells.any isLast = true →
    untilLast cells = some (bodies (chunked cells).cells,
        (chunked cells).cells.length) := by
  intro cells
  induction cells with
  | nil => exact fun _ ended => absurd ended Bool.false_ne_true
  | cons c cells ih =>
    intro lasts ended
    obtain ⟨b, isBody, last⟩ := c
    rw [untilLast, bodies_chunked_cons]
    cases cells with
    | nil =>
      have here : last = true := by simpa [cells, isLast] using ended
      rw [here, if_pos rfl]
      cases isBody <;> rfl
    | cons c' cells =>
      have going : last = false := lasts ⟨b, .rest isBody last⟩ (by simp [Framing.cells])
      subst going
      have ended' : (chunked (c' :: cells)).cells.any isLast = true := by
        simpa [Framing.cells, isLast] using ended
      have lasts' : ∀ c ∈ (chunked (c' :: cells)).cells.dropLast, c.isLast = false := by
        intro d mem
        refine lasts d ?_
        rw [Framing.cells, map_cons, dropLast_cons_of_ne_nil (by simp)]
        exact mem_cons_of_mem _ mem
      rw [if_neg Bool.false_ne_true, ih lasts' ended']
      cases isBody <;> rfl

lemma ParsedInv.delivered (inv : ParsedInv f m op x x []) (clean : Clean f m)
    (ended : op.parser.messageComplete = true) (reused : Bool) : Delivered f m op reused := by
  have taken := inv.taken
  have arrived := inv.bytes
  have count := inv.count
  have complete := inv.complete
  rw [append_nil] at arrived count
  rw [ended] at complete
  have all : x = m.framing.cells.length :=
    Nat.le_antisymm taken.bound (all_of_any_last clean taken.bodied complete.symm)
  rw [all, take_length] at arrived complete
  have limit := inv.limit
  rw [count, arrived] at limit
  have found : decoded f m = some (bodies m.framing.cells, m.framing.cells.length) := by
    have lasts := lasts_of_clean clean taken.bodied 0 m.framing.cells.length
    rw [drop_zero, take_length] at lasts
    have framing := inv.framing
    rw [decoded, taken.bodied]
    cases kind : m.framing with
    | fixed n bytes =>
      rw [kind] at framing
      cases framing
    | chunked cells =>
      rw [kind] at lasts complete
      exact untilLast_of_any lasts complete.symm
    | close bytes =>
      rw [kind] at complete
      simp [cells, isLast] at complete
  exact ⟨_, _, found, arrived, taken.elsewhere, by rw [count, arrived], limit,
    fun _ => ⟨by rw [taken.taken, all], inv.unstaged⟩⟩

lemma ParsedInv.delivered_close (inv : ParsedInv f m op x x []) {bytes}
    (framing : m.framing = .close bytes) (drained : op.socket = []) : Delivered f m op false := by
  have taken := inv.taken
  have arrived := inv.bytes
  have count := inv.count
  rw [append_nil] at arrived count
  have all : x = m.framing.cells.length := by
    have bound := taken.bound
    have socket := taken.socket
    rw [drained] at socket
    have := drop_eq_nil_iff.1 socket.symm
    omega
  have whole : bodies m.framing.cells = bytes := by
    rw [framing, cells, bodies_all]
  rw [all, take_length, whole] at arrived
  have limit := inv.limit
  rw [count, arrived] at limit
  refine ⟨bytes, bytes.length, ?_, arrived, taken.elsewhere, by rw [count, arrived], limit, nofun⟩
  rw [decoded, taken.bodied, framing]
  rfl

lemma Receives.parsed_on (clean : Clean f m) (inv : ParsedInv f m op x x []) :
    Receives f m (if op.parser.messageComplete then op.complete m.keepAlive
      else bodyNext capacity f m op) := by
  cases ended : op.parser.messageComplete with
  | true => exact inv.delivered clean ended m.keepAlive
  | false => exact .bodyNext_parsed inv ended

lemma delivered_sink (sinks : f.toSink m.status = true) (op : Receiver) :
    Http.delivered f m op = op.sink ∧ elsewhere f m op = op.body := by
  rw [Http.delivered, elsewhere, if_pos sinks, if_pos sinks]
  exact ⟨rfl, rfl⟩

lemma delivered_body (keeps : f.toSink m.status = false) (op : Receiver) :
    Http.delivered f m op = op.body ∧ elsewhere f m op = op.sink := by
  rw [Http.delivered, elsewhere, keeps]
  exact ⟨rfl, rfl⟩

lemma afterWrite_parsed (remaining : op.fixedRemaining = none) : afterWrite capacity f m op =
      if op.parser.messageComplete then op.complete m.keepAlive else bodyNext capacity f m op := by
  rw [afterWrite, remaining]
  rfl

lemma afterWrite_fixed {left} (remaining : op.fixedRemaining = some left) :
    afterWrite capacity f m op = bodyNext capacity f m op := by
  rw [afterWrite, remaining]
  rfl

variable {data : Bytes}

section
variable (clean : Clean f m) (sinks : f.toSink m.status = true) (inv : ParsedInv f m op x x data)
include clean sinks inv

lemma Receives.writeSink_parsed : Receives f m (writeSink capacity f m op data true) := by
  have taken := inv.taken
  have landed : ParsedInv f m { op with sink := op.sink ++ data } x x [] := by
    have arrived : Http.delivered f m { op with sink := op.sink ++ data } = Http.delivered f m
        op ++ data := by
      rw [(delivered_sink sinks _).1, (delivered_sink sinks _).1]
    refine { inv with
        taken := { taken with elsewhere := ?_ }
        bytes := ?_
        count := ?_ }
    · rw [(delivered_sink sinks _).2]
      exact (delivered_sink sinks op).2.symm.trans taken.elsewhere
    · rw [append_nil, arrived, inv.bytes]
    · rw [append_nil, arrived]
      exact inv.count
  rw [writeSink, if_pos rfl, afterWrite_parsed landed.remaining]
  exact .parsed_on clean landed

lemma Receives.write_parsed : Receives f m (write capacity f m op data true) := by
  rw [write]
  split
  · exact .writeSink_parsed clean sinks inv
  · exact ⟨sinks, x, inv.restage⟩

end

section
variable (sinks : f.toSink m.status = true) (inv : FixedInv f m n bytes op data)
  (unstaged : op.staging = [])
include sinks inv unstaged

lemma Receives.writeSink_fixed : Receives f m (writeSink capacity f m op data false) := by
  have landed : FixedInv f m n bytes
      ({ op with sink := op.sink ++ data }.account data.length) [] := inv.land_sink sinks
  rw [writeSink, if_neg Bool.false_ne_true, afterWrite_fixed landed.remaining]
  exact .bodyNext_fixed n bytes landed unstaged

lemma Receives.write_fixed : Receives f m (write capacity f m op data false) := by
  rw [write]
  split
  · exact .writeSink_fixed sinks inv unstaged
  · exact ⟨sinks, unstaged, n, bytes, inv.restage⟩

end

lemma Receives.keepBody (keeps : f.toSink m.status = false) (inv : FixedInv f m n bytes op data)
    (unstaged : op.staging = []) : Receives f m (keepBody capacity f m op data) := by
  have landed : FixedInv f m n bytes
      ({ op with body := op.body ++ data }.account data.length) [] := by
    refine inv.land ?_ ?_
    · rw [Http.delivered, keeps]
      rfl
    · rw [elsewhere, keeps]
      rfl
  exact .bodyNext_fixed n bytes landed unstaged

lemma Receives.parseBody (clean : Clean f m) (inv : ParsedInv f m op x (x + k) [])
    (going : op.parser.messageComplete = false) :
    Receives f m (parseBody next capacity f m op ((m.framing.cells.drop x).take k)) := by
  have taken := inv.taken
  have arrived := inv.bytes
  have count := inv.count
  rw [append_nil] at arrived count
  set cells := (m.framing.cells.drop x).take k with hcells
  have joined : m.framing.cells.take (x + k) = m.framing.cells.take x ++ cells := take_add
  have rest : ∀ c ∈ cells, c.IsRest := fun c mem =>
    isRest_cells m.framing c (mem_of_mem_drop (mem_of_mem_take mem))
  have lasts := lasts_of_clean clean taken.bodied x k
  rw [Http.parseBody]
  cases executed : execute next f.isHead m.status (f.limit op.status - op.bodyBytes) op.parser
      cells with
  | none => exact trivial
  | some e =>
    obtain ⟨rfl, room⟩ := execute_rest rest lasts going e executed
    have limit : op.bodyBytes + (bodies cells).length ≤ f.limit m.status := by
      have := inv.limit
      rw [taken.status] at room
      omega
    have ends : cells.any isLast = (m.framing.cells.take (x + k)).any isLast := by
      rw [joined, any_append, ← inv.complete, going, Bool.false_or]
    set e : Executed := ⟨cells.length,
        { op.parser with messageComplete := cells.any isLast }, none,
      bodies cells⟩ with he
    have read : Taken f m (op.executed (f.toSink m.status) e) (x + k) := by
      refine { taken with elsewhere := ?_ }
      cases sinks : f.toSink m.status with
      | false =>
        rw [(delivered_body sinks _).2]
        exact (delivered_body sinks op).2.symm.trans taken.elsewhere
      | true =>
        rw [(delivered_sink sinks _).2]
        exact (delivered_sink sinks op).2.symm.trans taken.elsewhere
    have parsed : ParsedInv f m (op.executed (f.toSink m.status) e) (x + k) (x + k)
        (if f.toSink m.status then bodies cells else []) := by
      have all : Http.delivered f m (op.executed (f.toSink m.status) e) ++
          (if f.toSink m.status then bodies cells else []) = Http.delivered f m
          op ++ bodies cells := by
        cases sinks : f.toSink m.status with
        | false =>
          rw [(delivered_body sinks _).1, (delivered_body sinks _).1, if_neg Bool.false_ne_true,
            append_nil]
          rfl
        | true =>
          rw [(delivered_sink sinks _).1, (delivered_sink sinks _).1, if_pos rfl]
          rfl
      refine ⟨inv.framing, read, ?_, inv.remaining, inv.unstaged, ?_, limit, ends⟩
      · rw [all, joined, bodies_append, arrived]
      · rw [all, length_append, ← count]
        rfl
    simp only [taken.status, he, ne_eq, not_true_eq_false, if_false]
    rw [← he]
    cases sinks : f.toSink m.status with
    | false =>
      rw [sinks] at parsed
      exact .parsed_on clean parsed
    | true =>
      rw [sinks] at parsed
      cases some_bytes : (bodies cells).isEmpty with
      | true =>
        rw [isEmpty_iff.1 some_bytes] at parsed
        exact .parsed_on clean parsed
      | false =>
        rw [Bool.not_false, Bool.and_true, if_pos rfl]
        exact .write_parsed clean sinks parsed

lemma Quiet.on (quiet : Quiet op) {stage socket parser} {taken headerBytes status} :
    Quiet { op with stage, socket, taken, parser, headerBytes, status } :=
  { quiet with }

lemma Quiet.nothing (quiet : Quiet op) : Http.delivered f m op = [] ∧ elsewhere f m op = [] := by
  rw [Http.delivered, elsewhere, quiet.sink, quiet.body, ite_self]
  exact ⟨rfl, rfl⟩

variable (f m) in
structure HeadDone (op : Receiver) (k : Nat) : Prop where
  taken : Taken f m op k
  quiet : Quiet op
  going : op.parser.messageComplete = false

lemma Receives.processBody (clean : Clean f m) (done : HeadDone f m op k) :
    Receives f m (processBody next capacity f m op (m.framing.cells.take k)) := by
  have taken := done.taken
  have quiet := done.quiet
  have nothing : Http.delivered f m op = [] := quiet.nothing.1
  have size : (m.framing.cells.take k).length = k := length_take_of_le taken.bound
  rw [Http.processBody]
  cases framing : m.framing.fixedBodyRemaining with
  | some n =>
    have kind : ∃ bytes, m.framing = .fixed n bytes := by
      cases found : m.framing with
      | fixed n' bytes =>
        rw [found] at framing
        cases framing
        exact ⟨bytes, rfl⟩
      | chunked cells | close bytes =>
        rw [found] at framing
        cases framing
    obtain ⟨bytes, kind⟩ := kind
    dsimp only
    rw [congrArg f.limit taken.status, congrArg f.toSink taken.status]
    split
    next => exact trivial
    next fits =>
      rw [not_or, Nat.not_lt, Nat.not_lt, size] at fits
      have flight : ((m.framing.cells.take k).map byte).length = k := by
        rw [length_map, size]
      have inv : FixedInv f m n bytes { op with fixedRemaining := some n }
          ((m.framing.cells.take k).map byte) := by
        have none_yet : Http.delivered f m { op with fixedRemaining := some n } = [] := nothing
        refine ⟨kind, ?_, ?_, ?_, ?_, ?_, fits.1⟩
        · rw [none_yet, flight, length_nil, Nat.zero_add]
          exact { taken with }
        · rw [none_yet, flight, length_nil, Nat.zero_add, nil_append, map_take, kind, cells_fixed]
        · rw [none_yet]
          rfl
        · rw [none_yet, flight, length_nil, Nat.zero_add]
          exact fits.2
        · rw [none_yet]
          exact quiet.bodyBytes
      cases empty : (m.framing.cells.take k).isEmpty with
      | true =>
        rw [isEmpty_iff.1 empty] at inv
        rw [if_pos rfl]
        exact .bodyNext_fixed n bytes inv quiet.unstaged
      | false =>
        rw [if_neg Bool.false_ne_true]
        cases sinks : f.toSink m.status with
        | true =>
          rw [if_pos rfl]
          exact .write_fixed sinks inv quiet.unstaged
        | false =>
          rw [if_neg Bool.false_ne_true]
          exact .keepBody sinks inv quiet.unstaged
  | none =>
    have inv : ParsedInv f m op 0 k [] := by
      refine ⟨framing, taken, ?_, quiet.remaining, quiet.unstaged, ?_, ?_, done.going⟩
      · rw [nothing]
        rfl
      · rw [nothing]
        exact quiet.bodyBytes
      · rw [quiet.bodyBytes]
        exact zero_le _
    cases empty : (m.framing.cells.take k).isEmpty with
    | true =>
      have none_taken : k = 0 := by
        rw [← size, isEmpty_iff.1 empty, length_nil]
      subst none_taken
      rw [if_pos rfl]
      exact .bodyNext_parsed inv done.going
    | false =>
      rw [if_neg Bool.false_ne_true]
      rw [← Nat.zero_add k] at inv
      exact .parseBody clean inv done.going

lemma Quiet.delivered (quiet : Quiet op) (none_sent : bodiless f m = true)
    (taken : op.taken = m.heads.length) (reused : Bool) : Delivered f m op reused := by
  refine ⟨[], 0, ?_, quiet.nothing.1, quiet.nothing.2, quiet.bodyBytes, zero_le _,
    fun _ => ⟨taken, quiet.unstaged⟩⟩
  rw [decoded, if_pos none_sent]

variable {tail : List Cell} {rounds : Nat}

lemma Receives.head_short {kind} (passes : Passes next f.isHead m.status kind)
    {block} (quiet : Quiet op) (fresh : op.parser = ⟨false, false⟩) (some_taken : k ≠ 0)
    (short : k < block.length) (left : HeadTail (mark kind (block.drop k) ++ tail))
    (socket : op.socket = (mark kind block ++ tail ++ m.framing.cells).drop k)
    (taken : op.taken + (mark kind block ++ tail).length = m.heads.length + k) :
    Receives f m (processHeader next capacity f m (rounds + 1) op
      ((mark kind block ++ tail ++ m.framing.cells).take k)) := by
  have within : k ≤ (mark kind block).length := by
    rw [length_mark]
    exact Nat.le_of_lt short
  have cut : (mark kind block ++ tail ++ m.framing.cells).take k = (mark kind block).take k := by
    rw [append_assoc, take_append_of_le_length within]
  have rest : (mark kind block ++ tail ++ m.framing.cells).drop k =
      mark kind (block.drop k) ++ tail ++ m.framing.cells := by
    rw [append_assoc, drop_append_of_le_length within, drop_mark, append_assoc]
  have filled : ((mark kind block).take k).isEmpty = false := by
    rw [isEmpty_eq_false_iff, ne_eq, take_eq_nil_iff, not_or]
    refine ⟨some_taken, fun empty => ?_⟩
    rw [empty, length_nil] at within
    exact some_taken (le_zero.1 within)
  rw [cut, processHeader, filled, if_neg Bool.false_ne_true, fresh, execute_short passes rfl short]
  simp only [Bool.not_false, if_true, some_taken, if_false]
  split
  · exact trivial
  · refine ⟨mark kind (block.drop k) ++ tail, ⟨left, rfl, quiet.on⟩, socket.trans rest, ?_⟩
    show op.taken + _ = _
    rw [length_append, length_mark] at taken ⊢
    rw [length_drop]
    omega

lemma Receives.head_none (heads : HeadTail tail) (quiet : Quiet op)
    (fresh : op.parser = ⟨false, false⟩) (socket : op.socket = (tail ++ m.framing.cells).drop 0)
    (taken : op.taken + tail.length = m.heads.length + 0) :
    Receives f m (processHeader next capacity f m (rounds + 1) op
      ((tail ++ m.framing.cells).take 0)) := by
  rw [take_zero, processHeader, isEmpty_nil, if_pos rfl]
  exact ⟨tail, ⟨heads, fresh, quiet.on⟩, socket, taken⟩

lemma Receives.head_complete {block : Bytes} (clean : Clean f m) (quiet : Quiet op)
    (fresh : op.parser = ⟨false, false⟩) (some_bytes : block ≠ []) (all : block.length ≤ k)
    (bound : k ≤ (mark .head block ++ m.framing.cells).length)
    (socket : op.socket = (mark .head block ++ m.framing.cells).drop k)
    (taken : op.taken + (mark .head block).length = m.heads.length + k) :
    Receives f m (processHeader next capacity f m (rounds + 1) op
      ((mark .head block ++ m.framing.cells).take k)) := by
  obtain ⟨j, rfl⟩ := Nat.exists_eq_add_of_le all
  have final : informational m.status = false := by
    have := m.final
    simpa [informational, and_assoc] using this
  have taken' : op.taken = m.heads.length + j := by
    rw [length_mark] at taken
    omega
  have bound' : j ≤ m.framing.cells.length := by
    rw [length_append, length_mark] at bound
    omega
  rw [take_mark_append, processHeader, mark_filled _ _ some_bytes, if_neg Bool.false_ne_true, fresh]
  cases head : f.isHead with
  | true =>
    have nothing : m.framing.cells = [] := by
      rw [Clean, if_pos head] at clean
      exact clean
    have none_more : j = 0 := by
      rw [nothing] at bound'
      exact le_zero.1 bound'
    rw [nothing, take_nil, append_nil, execute_head_only rfl some_bytes]
    simp only [Option.getD_some, final, Bool.true_or, Bool.not_true, Bool.false_eq_true,
        if_false, if_true]
    split
    · exact trivial
    · split
      · exact trivial
      · rw [← length_mark .head block, drop_length, isEmpty_nil, if_pos rfl]
        refine quiet.on.delivered ?_ ?_ _
        · rw [bodiless, head, Bool.true_or, Bool.true_or]
        · rw [none_more] at taken'
          exact taken'
  | false =>
    rw [execute_head rfl some_bytes]
    simp only [drop_mark_append, Option.getD_some, final, Bool.false_or, Bool.not_true,
      Bool.false_eq_true, if_false]
    split
    · exact trivial
    · split
      · exact trivial
      · split
        next none_sent =>
          split
          next empty =>
            refine quiet.on.delivered ?_ ?_ _
            · rw [bodiless, head, Bool.false_or]
              exact none_sent
            · have none_more : j = 0 := by
                rw [← length_take_of_le bound', isEmpty_iff.1 empty, length_nil]
              rw [none_more] at taken'
              exact taken'
          next => exact trivial
        next some_sent =>
          refine .processBody clean ⟨⟨rfl, ?_, taken', bound', ?_, ?_⟩, quiet.on, rfl⟩
          · show op.socket = _
            rw [socket, ← length_mark .head block, drop_length_add_append]
          · exact (Quiet.nothing quiet).2
          · rw [bodiless, head, Bool.false_or]
            exact Bool.eq_false_iff.2 some_sent

lemma Receives.processHeader (clean : Clean f m) (heads : HeadTail tail) :
    ∀ {op : Receiver} {k rounds : Nat}, Quiet op → op.parser = ⟨false, false⟩ → k < rounds →
    k ≤ (tail ++ m.framing.cells).length → op.socket = (tail ++ m.framing.cells).drop k →
    op.taken + tail.length = m.heads.length + k →
    Receives f m (processHeader next capacity f m rounds op
        ((tail ++ m.framing.cells).take k)) := by
  induction heads with
  | @head block some_bytes =>
    intro op k rounds quiet fresh fuel bound socket taken
    obtain ⟨rounds, rfl⟩ := exists_eq_succ_of_ne_zero (Nat.ne_of_gt (zero_lt_of_lt fuel))
    by_cases some_taken : k = 0
    · subst some_taken
      exact .head_none (.head some_bytes) quiet fresh socket taken
    · by_cases short : k < block.length
      · have left : HeadTail (mark .head (block.drop k) ++ []) := by
          rw [append_nil]
          exact .head (drop_eq_nil_iff.not.2 (Nat.not_le.2 short))
        have shape : mark .head block = mark .head block ++ [] := (append_nil _).symm
        rw [shape] at socket taken ⊢
        exact .head_short (passes_head next f.isHead m.status) quiet fresh some_taken short left
            socket taken
      · exact .head_complete clean quiet fresh some_bytes (Nat.not_lt.1 short) bound socket taken
  | @info block tail some_bytes heads ih =>
    intro op k rounds quiet fresh fuel bound socket taken
    obtain ⟨rounds, rfl⟩ := exists_eq_succ_of_ne_zero (Nat.ne_of_gt (zero_lt_of_lt fuel))
    by_cases some_taken : k = 0
    · subst some_taken
      exact .head_none (.info some_bytes heads) quiet fresh socket taken
    · by_cases short : k < block.length
      · have left : HeadTail (mark .info (block.drop k) ++ tail) :=
          .info (drop_eq_nil_iff.not.2 (Nat.not_le.2 short)) heads
        exact .head_short (passes_info next f.isHead m.status) quiet fresh some_taken short left
            socket taken
      · obtain ⟨j, rfl⟩ := Nat.exists_eq_add_of_le (Nat.not_lt.1 short)
        rw [append_assoc] at bound socket ⊢
        rw [take_mark_append, Http.processHeader, mark_filled _ _ some_bytes,
          if_neg Bool.false_ne_true, fresh, execute_info rfl some_bytes]
        simp only [drop_mark_append, Option.getD_some, Bool.not_true, Bool.false_eq_true, if_false]
        split
        · exact trivial
        · have goes_on : informational 100 = true := rfl
          have some_length := length_pos_of_ne_nil some_bytes
          rw [if_pos goes_on]
          refine ih quiet.on rfl (by omega) ?_ ?_ ?_
          · rw [length_append, length_mark] at bound
            omega
          · show op.socket = _
            rw [socket, ← length_mark .info block, drop_length_add_append]
          · show op.taken + _ = _
            rw [length_append, length_mark] at taken
            omega

lemma Receives.receiveBody (next : Next) (capacity : Nat) {length} (clean : Clean f m)
    (posted : op.stage = .receiveBody length) (holds : Receives f m op) (asked : k ≤ length)
    (there : k ≤ op.socket.length) :
    Receives f m
      (if op.fixedRemaining.isNone then Http.parseBody next capacity f m (op.take k)
      (op.socket.take k)
      else if f.toSink op.status && !f.memory then
        { op.take k with stage := .writeFile ((op.socket.take k).map byte) false }
      else Http.keepBody capacity f m (op.take k) ((op.socket.take k).map byte)) := by
  rw [Receives, posted] at holds
  obtain ⟨n, bytes, inv, unstaged, bound, file⟩ | ⟨x, inv, going⟩ := holds
  · have inv' := inv.take there (Nat.le_trans asked bound)
    rw [inv.remaining, Option.isNone_some, if_neg Bool.false_ne_true, inv.taken.status]
    cases sinks : f.toSink m.status with
    | true =>
      rw [file sinks, Bool.not_false, Bool.and_true, if_pos rfl]
      exact ⟨sinks, unstaged, n, bytes, inv'.restage⟩
    | false =>
      rw [Bool.false_and, if_neg Bool.false_ne_true]
      exact .keepBody sinks inv' unstaged
  · rw [inv.remaining, Option.isNone_none, if_pos rfl, inv.taken.socket]
    exact .parseBody clean { inv with taken := inv.taken.take there } going

section
variable (clean : Clean f m) (holds : Receives f m op)
include clean holds

lemma Receives.received (step : receiveStep next capacity f m op (.received k) = some op') :
    Receives f m op' := by
  have held := holds
  rw [Receives] at holds
  unfold receiveStep at step
  generalize posted : op.stage = stage at holds step
  cases stage with
  | receiveHeader =>
    obtain ⟨tail, inv, socket, taken⟩ := holds
    obtain ⟨possible, ⟨⟩⟩ := Option.ite_none_right_eq_some.1 step
    rw [socket] at possible ⊢
    refine .processHeader clean inv.heads (k := k) inv.quiet.on inv.fresh (lt_succ_self k)
      possible.2.2 ?_ ?_
    · show op.socket.drop k = _
      rw [socket]
    · show op.taken + k + tail.length = _
      omega
  | receiveBody length =>
    obtain ⟨possible, step⟩ := Option.ite_none_right_eq_some.1 step
    have result := Receives.receiveBody next capacity clean posted held possible.2.1 possible.2.2
    change (if op.fixedRemaining.isNone then _ else if f.toSink op.status && _ then _ else _) = _
      at step
    rw [← apply_ite some, ← apply_ite some] at step
    cases step
    exact result
  | receiveMemory =>
    obtain ⟨sinks, n, bytes, inv, unstaged⟩ := holds
    obtain ⟨possible, ⟨⟩⟩ := Option.ite_none_right_eq_some.1 step
    rw [inv.remaining, Option.getD_some] at possible
    have landed : FixedInv f m n bytes ({ op.take k with
        sink := op.sink ++ (op.socket.take k).map byte }.account _) [] :=
      (inv.take possible.2.2 possible.2.1).land_sink sinks
    rw [length_map, length_take_of_le possible.2.2] at landed
    exact .bodyNext_fixed n bytes landed unstaged
  | socketPipe length =>
    obtain ⟨sinks, n, bytes, inv, unstaged, bound⟩ := holds
    obtain ⟨possible, ⟨⟩⟩ := Option.ite_none_right_eq_some.1 step
    have inv' := inv.take possible.2.2 (Nat.le_trans possible.2.1 bound)
    have size : ((op.socket.take k).map byte).length = k := by
      rw [length_map, length_take_of_le possible.2.2]
    have staged : (op.take k).staging ++ (op.socket.take k).map byte =
        (op.socket.take k).map byte := by
      show op.staging ++ _ = _
      rw [unstaged, nil_append]
    rw [staged]
    split
    all_goals exact ⟨sinks, size.symm, n, bytes, inv'.restage⟩
  | _ =>
    cases step

lemma Receives.moved (step : receiveStep next capacity f m op .moved = some op') :
    Receives f m op' := by
  rw [Receives] at holds
  unfold receiveStep at step
  generalize posted : op.stage = stage at holds step
  cases stage with
  | pipeFile length =>
    obtain ⟨sinks, rfl, n, bytes, inv⟩ := holds
    cases step
    rw [take_length, drop_length]
    exact .bodyNext_fixed n bytes (inv.land_sink sinks) rfl
  | pipeCopy length =>
    obtain ⟨sinks, rfl, n, bytes, inv⟩ := holds
    cases step
    rw [take_length, drop_length]
    exact ⟨sinks, rfl, n, bytes, inv.restage⟩
  | writeFile data accounted =>
    cases step
    cases accounted with
    | false =>
      obtain ⟨sinks, unstaged, n, bytes, inv⟩ := holds
      exact .writeSink_fixed sinks inv unstaged
    | true =>
      obtain ⟨sinks, x, inv⟩ := holds
      exact .writeSink_parsed clean sinks inv
  | _ =>
    cases step

omit clean in
lemma Receives.unsupported (step : receiveStep next capacity f m op .unsupported = some op') :
    Receives f m op' := by
  rw [Receives] at holds
  unfold receiveStep at step
  generalize posted : op.stage = stage at holds step
  cases stage with
  | receiveMemory =>
    obtain ⟨sinks, n, bytes, inv, unstaged⟩ := holds
    cases step
    exact .bodyNext_fixed n bytes inv unstaged
  | socketPipe length =>
    obtain ⟨sinks, n, bytes, inv, unstaged, bound⟩ := holds
    cases step
    exact .bodyNext_fixed n bytes inv.restage unstaged
  | pipeFile length =>
    obtain ⟨sinks, rfl, n, bytes, inv⟩ := holds
    cases step
    exact ⟨sinks, rfl, n, bytes, inv.restage⟩
  | _ =>
    cases step

omit clean in
lemma Receives.eof (step : receiveStep next capacity f m op .eof = some op') :
    Receives f m op' := by
  rw [Receives] at holds
  unfold receiveStep at step
  generalize posted : op.stage = stage at holds step
  cases stage with
  | receiveBody length =>
    obtain ⟨drained, step⟩ := Option.ite_none_right_eq_some.1 step
    split at step
    next bytes framing remaining =>
      cases step
      obtain ⟨n, bytes, inv, -⟩ | ⟨x, inv, -⟩ := holds
      · rw [inv.remaining] at remaining
        cases remaining
      · exact inv.delivered_close framing (isEmpty_iff.1 drained)
    next =>
      cases step
      exact trivial
  | complete reused | failed =>
    cases step
  | _ =>
    obtain ⟨-, ⟨⟩⟩ := Option.ite_none_right_eq_some.1 step
    exact trivial

end

lemma Receives.step {e} (clean : Clean f m) (holds : Receives f m op)
    (step : receiveStep next capacity f m op e = some op') : Receives f m op' := by
  cases e with
  | received k => exact holds.received clean step
  | moved => exact holds.moved clean step
  | unsupported => exact holds.unsupported step
  | eof => exact holds.eof step
  | fail =>
    cases posted : op.stage
    all_goals
      simp only [receiveStep, posted] at step
      cases step
      try exact trivial

lemma headTail_heads (m : Message) : HeadTail m.heads := by
  have head : HeadTail (mark .head m.head) := .head m.head_ne
  have infos : ∀ infos : List Bytes, (∀ i ∈ infos, i ≠ []) →
      HeadTail (infos.flatMap (mark .info) ++ mark .head m.head) := by
    intro infos
    induction infos with
    | nil => exact fun _ => head
    | cons i infos ih =>
      intro some_bytes
      rw [flatMap_cons, append_assoc]
      exact .info (some_bytes i mem_cons_self) (ih fun j mem =>
          some_bytes j (mem_cons_of_mem _ mem))
  exact infos m.infos m.infos_ne

lemma receives_start (f : Fetch) (m : Message) : Receives f m (receiveStart m) :=
  ⟨m.heads, ⟨headTail_heads m, rfl, ⟨rfl, rfl, rfl, rfl, rfl⟩⟩, rfl, Nat.zero_add _⟩

/-! ### The sink of a request that has not completed -/

lemma bodyNext_going (op : Receiver) : (bodyNext capacity f m op).stage ≠ .failed := by
  unfold bodyNext nextStage
  grind

lemma writeSink_going (op : Receiver) (data : Bytes) (accounted : Bool) :
    (writeSink capacity f m op data accounted).stage ≠ .failed := by
  unfold writeSink afterWrite
  grind [bodyNext_going, Receiver.complete]

lemma write_going (op : Receiver) (data : Bytes) (accounted : Bool) :
    (write capacity f m op data accounted).stage ≠ .failed := by
  unfold write
  split
  · exact writeSink_going _ _ _
  · nofun

lemma parseBody_failed {cells} (failed : (parseBody next capacity f m op cells).stage = .failed) :
    (parseBody next capacity f m op cells).sink = op.sink := by
  unfold parseBody at failed ⊢
  grind [bodyNext_going, write_going, Receiver.fail, Receiver.executed, Receiver.complete]

lemma processBody_failed {cells}
    (failed : (processBody next capacity f m op cells).stage = .failed) :
    (processBody next capacity f m op cells).sink = op.sink := by
  unfold processBody at failed ⊢
  grind [bodyNext_going, write_going, keepBody, Receiver.fail, parseBody_failed]

lemma processHeader_failed (rounds : Nat) {cells}
    (failed : (processHeader next capacity f m rounds op cells).stage = .failed) :
    (processHeader next capacity f m rounds op cells).sink = op.sink := by
  induction rounds generalizing op cells with
  | zero => rfl
  | succ rounds ih =>
    unfold processHeader at failed ⊢
    grind [Receiver.fail, Receiver.complete, processBody_failed]

lemma receiveStep_failed {e} (moved : receiveStep next capacity f m op e = some op')
    (failed : op'.stage = .failed) : op'.sink = op.sink := by
  unfold receiveStep at moved
  grind [Receiver.fail, Receiver.take, Receiver.complete, processHeader_failed, parseBody_failed,
    keepBody, bodyNext_going, writeSink_going]

/-- The sink has the beginning of the body, and nothing if the body is not for it. -/
def Sunk (f : Fetch) (m : Message) (op : Receiver) : Prop :=
  op.sink <+: bodies m.framing.cells ∧ (op.sink ≠ [] → f.toSink m.status = true)

lemma sunk_of_delivered (other : elsewhere f m op = [])
    (start : delivered f m op <+: bodies m.framing.cells) : Sunk f m op := by
  cases sinks : f.toSink m.status with
  | true =>
    rw [(delivered_sink sinks op).1] at start
    exact ⟨start, fun _ => sinks⟩
  | false =>
    rw [(delivered_body sinks op).2] at other
    exact ⟨other ▸ nil_prefix, fun more => absurd other more⟩

lemma FixedInv.sunk (inv : FixedInv f m n bytes op flight) : Sunk f m op := by
  refine sunk_of_delivered inv.taken.elsewhere ?_
  rw [inv.framing, cells, bodies_all]
  exact (prefix_append _ flight).trans (inv.bytes ▸ take_prefix _ _)

lemma ParsedInv.sunk (inv : ParsedInv f m op x x flight) : Sunk f m op := by
  refine sunk_of_delivered inv.taken.elsewhere ?_
  rw [← take_append_drop x m.framing.cells, bodies_append, ← inv.bytes, append_assoc]
  exact prefix_append _ _

lemma untilLast_prefix : ∀ {cells : List (UInt8 × Bool × Bool)} {d}, untilLast cells = some d →
    d.1 <+: bodies (chunked cells).cells
  | [], _, found => nomatch found
  | (b, isBody, last) :: cells, d, found => by
    rw [bodies_chunked_cons]
    rw [untilLast] at found
    split at found
    · cases found
      exact prefix_append _ _
    · obtain ⟨d, rest, rfl⟩ := Option.map_eq_some_iff.1 found
      have more := untilLast_prefix rest
      cases isBody with
      | false => exact more
      | true => exact (prefix_append_right_inj [b]).2 more

lemma Delivered.sunk {reused} (done : Delivered f m op reused) : Sunk f m op := by
  obtain ⟨body, n, found, arrived, other, -⟩ := done
  refine sunk_of_delivered other ?_
  rw [arrived]
  rw [decoded] at found
  split at found
  · cases found
    exact nil_prefix
  · split at found
    · rename_i framing
      obtain ⟨-, ⟨⟩⟩ := Option.ite_none_right_eq_some.1 found
      rw [framing, cells, bodies_all]
      exact take_prefix _ _
    · rename_i framing
      rw [framing]
      exact untilLast_prefix found
    · rename_i framing
      cases found
      simp only [framing, cells, bodies_all, prefix_rfl]

lemma Receives.sunk (holds : Receives f m op) (going : op.stage ≠ .failed) : Sunk f m op := by
  unfold Receives at holds
  split at holds
  · obtain ⟨tail, inv, -⟩ := holds
    exact ⟨inv.quiet.sink ▸ nil_prefix, fun more => absurd inv.quiet.sink more⟩
  · obtain ⟨n, bytes, inv, -⟩ | ⟨x, inv, -⟩ := holds
    · exact inv.sunk
    · exact inv.sunk
  · obtain ⟨-, n, bytes, inv, -⟩ := holds
    exact inv.sunk
  · obtain ⟨-, n, bytes, inv, -⟩ := holds
    exact inv.sunk
  · obtain ⟨-, -, n, bytes, inv⟩ := holds
    exact inv.sunk
  · obtain ⟨-, -, n, bytes, inv⟩ := holds
    exact inv.sunk
  · obtain ⟨-, -, n, bytes, inv⟩ := holds
    exact inv.sunk
  · obtain ⟨-, x, inv⟩ := holds
    exact inv.sunk
  · exact holds.sunk
  · rename_i failed
    exact absurd failed going

/-- In every state, also of a request that fails. -/
lemma sunk_of_run {es} (clean : Clean f m)
    (ran : run (receiveStep next capacity f m) (receiveStart m) es = some op) : Sunk f m op := by
  refine (run_inv (I := fun op => Receives f m op ∧ Sunk f m op) ?_
    ⟨receives_start f m, nil_prefix, fun more => absurd rfl more⟩ ran).2
  rintro op e op' ⟨holds, sunk⟩ moved
  refine ⟨holds.step clean moved, ?_⟩
  by_cases failed : op'.stage = .failed
  · rw [Sunk, receiveStep_failed moved failed]
    exact sunk
  · exact (holds.step clean moved).sunk failed
end

/-- A request that completes has delivered the decoded body, to the sink if the status is below 300
and a range was asked for, and to the response otherwise; it has counted it, and it is within its
limit. A connection that is kept has given the bytes of the response and no others. -/
theorem body_delivered (next : Next) (capacity : Nat) (f : Fetch) (m : Message) (clean : Clean f m)
    (es : List Event1) (op : Receiver) (reused : Bool)
    (run : run (receiveStep next capacity f m) (receiveStart m) es = some op)
    (done : op.stage = .complete reused) :
    ∃ body n, decoded f m = some (body, n) ∧
      (f.toSink m.status = true → op.sink = body ∧ op.body = []) ∧
      (f.toSink m.status = false → op.body = body ∧ op.sink = []) ∧
      op.bodyBytes = body.length ∧ body.length ≤ f.limit m.status ∧
      (reused = true → op.taken = m.heads.length + n ∧ op.staging = []) := by
  have holds : Receives f m op := run_inv (I := Receives f m) (s := receiveStart m)
    (fun _ _ _ => Receives.step clean) (receives_start f m) run
  rw [Receives, done] at holds
  obtain ⟨body, n, found, arrived, nothing, count, limit, kept⟩ := holds
  refine ⟨body, n, found, fun sinks => ?_, fun keeps => ?_, count, limit, kept⟩
  · rw [← (delivered_sink sinks op).1, ← (delivered_sink sinks op).2]
    exact ⟨arrived, nothing⟩
  · rw [← (delivered_body keeps op).1, ← (delivered_body keeps op).2]
    exact ⟨arrived, nothing⟩

/-- It skips line ends. Other bytes are refused here. -/
def skipLineEnds : Next := fun cells =>
  if cells.all fun c => c.byte == 13 || c.byte == 10 then some (cells.length, none) else none

def threeBytes : Fetch where
  range := true
  length := 3
  maxResponseBody := 0
  isHead := false
  memory := false

/-- Its head is two bytes, after an informational one. -/
def partialContent (framing : Framing) : Message where
  infos := [[49]]
  head := [50, 10]
  status := 206
  keepAlive := true
  framing := framing
  infos_ne := by decide
  head_ne := by decide
  final := by decide

/-- The first byte comes with the head; the others are copied, as the file cannot be spliced to. -/
def copiedBytes : List Event1 :=
  [.received 2, .received 2, .moved, .received 2, .unsupported, .moved, .moved]

theorem body_delivered_fixed :
    ∃ body n, decoded threeBytes (partialContent (.fixed 3 [7, 8, 9])) = some (body, n) ∧
      (final (receiveStep skipLineEnds 4096 threeBytes (partialContent (.fixed 3 [7, 8, 9])))
        (receiveStart (partialContent (.fixed 3 [7, 8, 9]))) copiedBytes).sink = body := by
  have clean : Clean threeBytes (partialContent (.fixed 3 [7, 8, 9])) := .inr (.inr (by decide))
  obtain ⟨body, n, found, sink, -⟩ := body_delivered skipLineEnds 4096 threeBytes
    (partialContent (.fixed 3 [7, 8, 9])) clean copiedBytes _ true (run_final rfl) rfl
  exact ⟨body, n, found, (sink rfl).1⟩

/-- Two bytes do not belong to the response. -/
def lineEndAfterBody : Framing :=
  .chunked [(49, false, false), (13, false, false), (10, false, false), (7, true, false),
    (13, false, false), (10, false, false), (48, false, false), (13, false, false),
    (10, false, false),
    (13, false, false), (10, false, true), (13, false, false), (10, false, false)]

theorem kept_after_extra_bytes :
    decoded threeBytes (partialContent lineEndAfterBody) = some ([7], 11) ∧
    ∃ op, run (receiveStep skipLineEnds 4096 threeBytes (partialContent lineEndAfterBody))
        (receiveStart (partialContent lineEndAfterBody)) [.received 16, .moved] = some op ∧
      op.stage = .complete true ∧ op.taken = (partialContent lineEndAfterBody).heads.length + 13 :=
  ⟨rfl, _, rfl, rfl, rfl⟩

end Ngs3fs.Http
