import Ngs3fs.Http.Deliver
import Ngs3fs.Http.Frames

/-!
# The attempts of a request

`AsyncS3Request`, one callback of the reactor at a time. The request is queued, waits for a
connection, for credentials or for its timer, or has an exchange under way, which may give bytes to
the sink before it ends. What an exchange may give is the contract of the HTTP layer (`gives`),
which both of its receivers keep. `received` looks at 200 and 206 only, while every status below 300
lets bytes through: after another one the sink gets the bytes of two exchanges. -/

namespace Ngs3fs.S3
open Machine

/-- `max_attempts_`, `arguments_.range` and `directory_bucket` of the configuration. -/
structure RequestConfig where
  maxAttempts : Nat
  range : Bool
  directoryBucket : Bool

/-- What the service answers to an attempt. -/
structure Answer where
  status : Nat
  body : List UInt8

/-- An exchange gives to the sink the beginning of the body, and nothing unless a range was asked
for and the status is below 300. -/
def RequestConfig.gives (c : RequestConfig) (answer : Answer) (delivered : List UInt8) : Bool :=
  delivered.isPrefixOf answer.body && (delivered.isEmpty || c.range && answer.status < 300)

/-- What a request waits for: `task_`, `wait_` or `http_`. -/
inductive Pending
  | queued
  | wait
  | exchange (delivered : List UInt8)
  | nothing

/-- The fields of the class, with the exchanges started, the calls of `complete_` and the sink. -/
structure AsyncS3Request where
  attempt : Nat
  cancelled : Bool
  resign : Bool
  poolWait : Bool
  lease : Bool
  pending : Pending
  starts : Nat
  completions : Nat
  sink : List UInt8

/-- `signed` if the range was signed, and `armed` if the timer for another attempt can be set. -/
structure Result where
  status : Nat
  error : Bool
  retryable : Bool
  signed : Bool
  armed : Bool

/-- `published` looks at these two. -/
def isRangeStatus (status : Nat) : Bool := status == 200 || status == 206

/-- An exception before or after the headers are signed, credentials that are not there yet, no free
connection, or an exchange. -/
inductive Acquired
  | throws (resigned armed : Bool)
  | credentials (submitted : Bool)
  | waits (submitted : Bool)
  | starts

/-- The callbacks: `run`, `cancel_queued`, `cancel`, `available`, the sink and `received`. -/
inductive RequestEvent
  | run (a : Acquired)
  | dropped
  | cancel
  | available (ok : Bool) (a : Acquired)
  | deliver (data : List UInt8)
  | received (r : Result)

namespace AsyncS3Request

/-- `finish`, and `fail`. -/
def finish (s : AsyncS3Request) : AsyncS3Request :=
  { s with lease := false, pending := .nothing, completions := s.completions + 1 }

variable (c : RequestConfig)

/-- `received`. -/
def received (s : AsyncS3Request) (published : Bool) (r : Result) : AsyncS3Request :=
  let s := { s with lease := false }
  if s.cancelled then s.finish
  else
    let resign := !published && !r.error && r.status == 403 && c.range && !c.directoryBucket &&
      s.attempt + 1 < c.maxAttempts && !r.signed
    let s := { s with resign := s.resign || resign }
    let retry := !r.error && r.retryable || resign
    if published || !r.error && !retry || c.maxAttempts ≤ s.attempt + 1 then s.finish
    else
      let s := { s with attempt := s.attempt + 1 }
      if r.armed then { s with pending := .wait } else s.finish

/-- `acquire`. -/
def acquire (s : AsyncS3Request) (a : Acquired) : AsyncS3Request :=
  if s.cancelled then s.finish
  else
    match a with
    | .throws resigned armed =>
      { s with resign := s.resign && !resigned }.received c false ⟨0, true, false, false, armed⟩
    | .credentials submitted => if submitted then { s with pending := .wait } else s.finish
    | .waits submitted =>
      let s := { s with resign := false }
      if submitted then { s with poolWait := true, pending := .wait } else s.finish
    | .starts =>
      { s with resign := false, lease := true, pending := .exchange [], starts := s.starts + 1 }

variable (answers : Nat → Answer)

/-- One callback; `answers` are those to the attempts, by their number. -/
def step (s : AsyncS3Request) (e : RequestEvent) : Option AsyncS3Request :=
  match s.pending, e with
  | .nothing, _ => none
  | _, .cancel => some { s with cancelled := true }
  | .queued, .run a => some (s.acquire c a)
  | .queued, .dropped => some s.finish
  | .wait, .available ok a =>
    let s := { s with poolWait := false }
    if !ok || s.cancelled then some s.finish else some (s.acquire c a)
  | .exchange delivered, .deliver data =>
    if c.gives (answers s.starts) (delivered ++ data) then
      some { s with pending := .exchange (delivered ++ data), sink := s.sink ++ data }
    else none
  | .exchange delivered, .received r =>
    -- the head of the response has come before its body
    if delivered.isEmpty || r.status == (answers s.starts).status then
      some (s.received c (c.range && isRangeStatus r.status && !delivered.isEmpty) r)
    else none
  | _, _ => none

/-- As constructed, with or without a connection. -/
def fresh (lease : Bool) : AsyncS3Request := ⟨0, false, false, false, lease, .queued, 0, 0, []⟩

def exchanges (s : AsyncS3Request) : Nat :=
  match s.pending with
  | .exchange _ => 1
  | _ => 0

structure Open (s : AsyncS3Request) : Prop where
  attempt : s.attempt < c.maxAttempts
  starts : s.starts ≤ s.attempt + s.exchanges
  completions : s.completions = 0

structure Ended (s : AsyncS3Request) : Prop where
  nothing : s.pending = .nothing
  starts : s.starts ≤ c.maxAttempts
  completions : s.completions = 1
  lease : s.lease = false

/-- A body that is given to the sink comes under a status that `received` looks at. -/
def Plain : Prop := ∀ n, c.range = true → (answers n).body ≠ [] → (answers n).status < 300 →
  isRangeStatus (answers n).status = true

/-- The exchange under way has filled the sink, or the last one. -/
def Sink (s : AsyncS3Request) : Prop :=
  match s.pending with
  | .exchange delivered => s.sink = delivered
  | .nothing => ∃ n, s.sink <+: (answers n).body
  | _ => s.sink = []

structure Inv (s : AsyncS3Request) : Prop where
  phase : s.pending ≠ .nothing ∧ Open c s ∨ Ended c s
  given : ∀ d, s.pending = .exchange d → c.gives (answers s.starts) d = true
  sink : Plain c answers → Sink answers s

section
variable {c answers} {s s' : AsyncS3Request} {d : List UInt8}

lemma gives_nil (answer : Answer) : c.gives answer [] = true := by
  simp [RequestConfig.gives]

lemma prefix_of_gives {answer} (gives : c.gives answer d = true) : d <+: answer.body := by
  rw [RequestConfig.gives, Bool.and_eq_true, List.isPrefixOf_iff_prefix] at gives
  exact gives.1

/-- Only a range request has bytes in its sink. -/
lemma range_of_gives {answer} (gives : c.gives answer d = true) (some_bytes : d ≠ []) :
    c.range = true ∧ answer.status < 300 ∧ answer.body ≠ [] := by
  have start := prefix_of_gives gives
  simp only [RequestConfig.gives, Bool.and_eq_true, Bool.or_eq_true, List.isEmpty_iff, some_bytes,
    false_or, decide_eq_true_eq] at gives
  refine ⟨gives.2.1, gives.2.2, ?_⟩
  rintro empty
  rw [empty, List.prefix_nil] at start
  exact some_bytes start

/-- The HTTP/1 receiver keeps the contract. -/
lemma gives_http1 {f : Http.Fetch} {m next capacity es} {op : Http.Receiver}
    (same : f.range = c.range)
    (clean : Http.Clean f m)
    (ran : run (Http.receiveStep next capacity f m) (Http.receiveStart m) es = some op) :
    c.gives ⟨m.status, Http.bodies m.framing.cells⟩ op.sink = true := by
  obtain ⟨start, sinks⟩ := Http.sunk_of_run clean ran
  rw [Http.Fetch.toSink, same] at sinks
  rw [RequestConfig.gives, Bool.and_eq_true, List.isPrefixOf_iff_prefix, Bool.or_eq_true,
    List.isEmpty_iff]
  exact ⟨start, or_iff_not_imp_left.2 sinks⟩

/-- The HTTP/2 receiver keeps the contract; what is not `direct` goes to the response. -/
lemma gives_http2 {r : Http.Reception} {socket file frames es op status}
    (direct : r.direct = (c.range && decide (200 ≤ status ∧ status < 300)))
    (ran : run (Http.FrameReceiver.advance r) (.start socket file frames) es = some op) :
    c.gives ⟨status, frames.flatMap Http.WireFrame.payload⟩
      (if r.direct then op.delivered else []) = true := by
  have start := (Http.FrameInv.run ran).begins
  split
  · rename_i sinks
    rw [direct, Bool.and_eq_true, decide_eq_true_eq] at sinks
    simp [RequestConfig.gives, start, sinks]
  · exact gives_nil _

lemma exchanges_le (s : AsyncS3Request) : s.exchanges ≤ 1 := by
  unfold exchanges
  split <;> omega

lemma Open.finish (o : Open c s) (sink : Plain c answers → ∃ n, s.sink <+: (answers n).body) :
    Inv c answers s.finish := by
  have room := o.attempt
  have starts := o.starts
  have one := exchanges_le s
  refine ⟨.inr ⟨rfl, ?_, ?_, rfl⟩, nofun, sink⟩
  · show s.starts ≤ c.maxAttempts
    omega
  · show s.completions + 1 = 1
    rw [o.completions]

lemma Open.received {published r} (o : Open c s)
    (sink : Plain c answers → ∃ n, s.sink <+: (answers n).body)
    (unpublished : Plain c answers → published = false → s.sink = []) :
    Inv c answers (s.received c published r) := by
  have returned : Open c { s with lease := false } := { o with }
  have starts := o.starts
  have one := exchanges_le s
  rw [AsyncS3Request.received]
  split
  · exact returned.finish sink
  dsimp only
  split
  · exact Open.finish { o with } sink
  · rename_i again
    simp only [Bool.or_eq_true, decide_eq_true_eq, not_or, Nat.not_le, Bool.not_eq_true] at again
    obtain ⟨⟨silent, -⟩, room⟩ := again
    have next : s.starts ≤ s.attempt + 1 := by omega
    split
    · exact ⟨.inl ⟨nofun, room, next, o.completions⟩, nofun, fun plain => unpublished plain silent⟩
    · refine ⟨.inr ⟨rfl, ?_, ?_, rfl⟩, nofun, sink⟩
      · show s.starts ≤ c.maxAttempts
        omega
      · show s.completions + 1 = 1
        rw [o.completions]

lemma Open.acquire {a} (o : Open c s) (idle : s.exchanges = 0)
    (sink : Plain c answers → s.sink = []) : Inv c answers (s.acquire c a) := by
  have nothing (plain : Plain c answers) : ∃ n, s.sink <+: (answers n).body :=
    ⟨0, sink plain ▸ List.nil_prefix⟩
  have starts : s.starts ≤ s.attempt := by simpa [idle] using o.starts
  unfold AsyncS3Request.acquire
  split
  · exact o.finish nothing
  cases a with
  | throws resigned armed =>
    exact Open.received { o with } nothing fun plain _ => sink plain
  | credentials submitted =>
    cases submitted with
    | false => exact o.finish nothing
    | true => exact ⟨.inl ⟨nofun, o.attempt, starts, o.completions⟩, nofun, sink⟩
  | waits submitted =>
    cases submitted with
    | false => exact Open.finish { o with } nothing
    | true => exact ⟨.inl ⟨nofun, o.attempt, starts, o.completions⟩, nofun, sink⟩
  | starts =>
    refine ⟨.inl ⟨nofun, o.attempt, Nat.succ_le_succ starts, o.completions⟩, ?_, sink⟩
    rintro d ⟨⟩
    exact gives_nil _

lemma Inv.step {e} (inv : Inv c answers s) (moved : step c answers s e = some s') :
    Inv c answers s' := by
  obtain ⟨attempt, cancelled, resign, poolWait, lease, pending, starts, completions, sink⟩ := s
  obtain ⟨phase, given, filled⟩ := inv
  cases pending with
  | nothing => cases moved
  | queued | wait =>
    obtain ⟨-, o⟩ | ended := phase
    swap
    · cases ended.nothing
    have nothing (plain : Plain c answers) : ∃ n, sink <+: (answers n).body :=
      ⟨0, (show sink = [] from filled plain) ▸ List.nil_prefix⟩
    cases e with
    | cancel =>
      cases moved
      exact ⟨.inl ⟨nofun, o.attempt, o.starts, o.completions⟩, nofun, filled⟩
    | run a => cases moved <;> exact o.acquire rfl filled
    | dropped => cases moved <;> exact o.finish nothing
    | available ok a =>
      simp only [AsyncS3Request.step] at moved
      first
        | cases moved
        | split at moved
          · cases moved
            exact Open.finish { o with } nothing
          · cases moved
            exact Open.acquire { o with } rfl filled
    | deliver data => cases moved
    | received r => cases moved
  | exchange delivered =>
    obtain ⟨-, o⟩ | ended := phase
    swap
    · cases ended.nothing
    have gives := given delivered rfl
    cases e with
    | cancel =>
      cases moved
      exact ⟨.inl ⟨nofun, o.attempt, o.starts, o.completions⟩, given, filled⟩
    | deliver data =>
      obtain ⟨allowed, ⟨⟩⟩ := Option.ite_none_right_eq_some.1 moved
      refine ⟨.inl ⟨nofun, o.attempt, o.starts, o.completions⟩, ?_, fun plain => ?_⟩
      · rintro d ⟨⟩
        exact allowed
      · exact congrArg (· ++ data) (filled plain)
    | received r =>
      obtain ⟨headed, ⟨⟩⟩ := Option.ite_none_right_eq_some.1 moved
      refine o.received (fun plain => ⟨starts, ?_⟩) fun plain unpublished => ?_
      · show sink <+: _
        rw [show sink = delivered from filled plain]
        exact prefix_of_gives gives
      · obtain rfl : sink = delivered := filled plain
        by_contra more
        obtain ⟨ranged, below, body⟩ := range_of_gives gives more
        have same : r.status = (answers starts).status := by simpa [more] using headed
        have good := plain starts ranged body below
        rw [← same] at good
        simp [ranged, good] at unpublished
        exact more unpublished
    | run a => cases moved
    | dropped => cases moved
    | available ok a => cases moved

lemma inv_fresh (lease : Bool) (any : 0 < c.maxAttempts) : Inv c answers (fresh lease) :=
  ⟨.inl ⟨nofun, any, Nat.le_refl 0, rfl⟩, nofun, fun _ => rfl⟩

/-- The exchange that has published is under way, or the request has ended. -/
def Last (n : Nat) (s : AsyncS3Request) : Prop :=
  s.starts = n ∧ (s.pending = .nothing ∨ ∃ d, d ≠ [] ∧ s.pending = .exchange d)

lemma received_published (s : AsyncS3Request) (r : Result) :
    (s.received c true r).pending = .nothing ∧ (s.received c true r).starts = s.starts := by
  unfold AsyncS3Request.received
  dsimp only
  split
  · exact ⟨rfl, rfl⟩
  · rw [if_pos (by simp)]
    exact ⟨rfl, rfl⟩

lemma Last.step {n e} (ranged : c.range = true) (good : isRangeStatus (answers n).status = true)
    (last : Last n s) (moved : AsyncS3Request.step c answers s e = some s') : Last n s' := by
  obtain ⟨attempt, cancelled, resign, poolWait, lease, pending, starts, completions, sink⟩ := s
  obtain ⟨rfl, ended | ⟨d, some_bytes, under_way⟩⟩ := last
  · cases ended
    cases moved
  cases under_way
  cases e with
  | cancel =>
    cases moved
    exact ⟨rfl, .inr ⟨d, some_bytes, rfl⟩⟩
  | deliver data =>
    obtain ⟨-, ⟨⟩⟩ := Option.ite_none_right_eq_some.1 moved
    exact ⟨rfl, .inr ⟨d ++ data, by simp [some_bytes], rfl⟩⟩
  | received r =>
    obtain ⟨headed, ⟨⟩⟩ := Option.ite_none_right_eq_some.1 moved
    have same : r.status = (answers starts).status := by simpa [some_bytes] using headed
    have published : (c.range && isRangeStatus r.status && !d.isEmpty) = true := by
      simp [ranged, same, good, some_bytes]
    rw [published]
    obtain ⟨ended, started⟩ := received_published (c := c) _ r
    exact ⟨started, .inl ended⟩
  | run a => cases moved
  | dropped => cases moved
  | available ok a => cases moved

lemma Inv.starts_le (inv : Inv c answers s) : s.starts ≤ c.maxAttempts := by
  obtain ⟨-, o⟩ | ended := inv.phase
  · have room := o.attempt
    have starts := o.starts
    have one := exchanges_le s
    omega
  · exact ended.starts

lemma Inv.sink_prefix (inv : Inv c answers s) (plain : Plain c answers) :
    ∃ n, s.sink <+: (answers n).body := by
  have sink := inv.sink plain
  unfold Sink at sink
  split at sink
  · rename_i d under_way
    exact ⟨_, sink ▸ prefix_of_gives (inv.given d under_way)⟩
  · exact sink
  · exact ⟨0, sink ▸ List.nil_prefix⟩

end

end AsyncS3Request

open AsyncS3Request in
/-- **Retries.** In every run of a request there are at most `max_attempts` exchanges, none after
one with status 200 or 206 has given a byte to the sink; the callback has been called once if
nothing is left to come, with the connection given back, and not before. The bytes in the sink are
the beginning of the body of one exchange if no other status below 300 comes with a body. -/
theorem range_retry_safe (c : RequestConfig) (answers : Nat → Answer) (lease : Bool)
    (allowed : 0 < c.maxAttempts) (es later : List RequestEvent) (s s' : AsyncS3Request)
    (ran : run (step c answers) (fresh lease) es = some s)
    (goes : run (step c answers) s later = some s') :
    s'.starts ≤ c.maxAttempts ∧
      (∀ d, s.pending = .exchange d → d ≠ [] → isRangeStatus (answers s.starts).status = true →
        s'.starts = s.starts) ∧
      (Plain c answers → ∃ n, s'.sink <+: (answers n).body) ∧
      (s'.pending = .nothing → s'.completions = 1 ∧ s'.lease = false) ∧
      (s'.pending ≠ .nothing → s'.completions = 0) := by
  have inv := run_inv (fun _ _ _ => Inv.step) (inv_fresh lease allowed) ran
  have inv' := run_inv (fun _ _ _ => Inv.step) inv goes
  refine ⟨inv'.starts_le, fun d under_way some_bytes good => ?_, inv'.sink_prefix,
    fun nothing => ?_,
    fun more => ?_⟩
  · have ranged := (range_of_gives (inv.given d under_way) some_bytes).1
    have last : Last s.starts s := ⟨rfl, .inr ⟨d, some_bytes, under_way⟩⟩
    exact (run_inv (fun _ _ _ => Last.step ranged good) last goes).1
  · obtain ⟨going, -⟩ | ended := inv'.phase
    · exact absurd nothing going
    · exact ⟨ended.completions, ended.lease⟩
  · obtain ⟨-, o⟩ | ended := inv'.phase
    · exact o.completions
    · exact absurd ended.nothing more

open AsyncS3Request in
theorem range_retry_safe_partial :
    (run (step ⟨4, true, false⟩ fun _ => ⟨206, [7, 8]⟩) (fresh true)
      ([.run .starts, .deliver [7]] ++ [.received ⟨206, true, false, false, true⟩])).isSome = true ∧
    (final (step ⟨4, true, false⟩ fun _ => ⟨206, [7, 8]⟩) (fresh true)
      ([.run .starts, .deliver [7]] ++ [.received ⟨206, true, false, false, true⟩])).starts =
        1 := by
  refine ⟨rfl, ?_⟩
  exact (range_retry_safe ⟨4, true, false⟩ (fun _ => ⟨206, [7, 8]⟩) true (by decide)
    [.run .starts, .deliver [7]] [.received ⟨206, true, false, false, true⟩] _ _ rfl rfl).2.1
      [7] rfl (by decide) rfl

/-- A 203 under which one byte has come, and a 206 after it. -/
def afterOtherStatus (n : Nat) : Answer := ⟨if n = 1 then 203 else 206, [7, 8]⟩

open AsyncS3Request in
/-- The transport fails after one byte, and the next attempt begins anew behind it. -/
theorem sink_has_two_bodies :
    ∃ s, run (step ⟨4, true, false⟩ afterOtherStatus) (fresh true)
        [.run .starts, .deliver [7], .received ⟨203, true, false, false, true⟩,
          .available true .starts,
          .deliver [7, 8]] = some s ∧
      s.starts = 2 ∧ ∀ n, ¬ s.sink <+: (afterOtherStatus n).body :=
  ⟨_, rfl, rfl, fun _ => show ¬ [7, 7, 8] <+: [7, 8] by decide⟩

end Ngs3fs.S3
