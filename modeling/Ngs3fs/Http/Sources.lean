import Mathlib.Data.List.Basic
import Mathlib.Algebra.Ring.Nat

/-!
# What an asynchronous request uploads

The upload sources of `HttpAsyncOperation`: `prepare_upload` adds up what they declare, and
`upload_source` and `consume_upload_source` walk over them. A source is memory, a stretch of a
file, or what comes out of a pipe; a file may end early, and so may a pipe. `bodyOf` is the body of
a list of sources, if none of them ends early. Moving bytes of the first source splits it into the
bytes that were moved and the body of what is left (`bodyOf_move`). -/

namespace Ngs3fs.Http
open List Function

abbrev Bytes := List UInt8

/-- A source with a negative descriptor is the memory of the request. -/
structure Source where
  fd : Int
  offset : Nat
  length : Nat
  seek : Bool
  deriving DecidableEq

structure Request where
  upload : Bool
  body : Bytes
  sourceFd : Int
  sourceOffset : Nat
  sourceLength : Nat
  sourceSeek : Bool
  sourceSegments : List Source

def sizeMax : Nat := 2 ^ 64 - 1

def int64Max : Nat := 2 ^ 63 - 1

/-- `add_source` of `prepare_upload`. -/
def addSource (total : Nat) (s : Source) : Except String Nat :=
  if s.fd < 0 ∨ s.length > sizeMax - total ∨
      (s.seek = true ∧ (s.offset > int64Max ∨ s.length > int64Max - s.offset)) then
    .error "invalid asynchronous upload source"
  else .ok (total + s.length)

def addSources : Nat → List Source → Except String Nat
  | total, [] => .ok total
  | total, s :: rest =>
    match addSource total s with
    | .error e => .error e
    | .ok total => addSources total rest

/-- `prepare_upload`. -/
def prepareUpload (r : Request) : Except String Nat :=
  let hasSegments := !r.sourceSegments.isEmpty
  let hasFd := decide (0 ≤ r.sourceFd)
  if (!r.upload && (hasSegments || hasFd || !r.body.isEmpty)) ||
      (hasSegments && (hasFd || !r.body.isEmpty)) || (hasFd && !r.body.isEmpty) ||
      (!hasFd && !hasSegments && r.sourceLength != 0) then
    .error "conflicting asynchronous upload sources"
  else if hasSegments then addSources 0 r.sourceSegments
  else if hasFd then addSource 0 ⟨r.sourceFd, r.sourceOffset, r.sourceLength, r.sourceSeek⟩
  else .ok r.body.length

/-- `source_index_` and `source_consumed_`. -/
structure Cursor where
  index : Nat
  consumed : Nat
  deriving DecidableEq

/-- The loop of `upload_source` over the sources from the index on. -/
def skipConsumed : List Source → Cursor → Cursor
  | [], c => c
  | s :: rest, c => if c.consumed = s.length then skipConsumed rest ⟨c.index + 1, 0⟩ else c

def Source.cap (s : Source) (length : Nat) : Source := { s with length := length }

def Source.advance (s : Source) (n : Nat) : Source :=
  { s with offset := s.offset + n, length := s.length - n }

/-- What `upload_source` takes of a source. -/
def Source.part (s : Source) (consumed maximum : Nat) : Source :=
  (s.advance consumed).cap (min maximum (s.length - consumed))

def Request.single (r : Request) (uploadLength : Nat) : Source :=
  ⟨r.sourceFd, if 0 ≤ r.sourceFd then r.sourceOffset else 0, uploadLength, r.sourceSeek⟩

/-- `upload_source`. -/
def uploadSource (r : Request) (uploadLength : Nat) (c : Cursor) (maximum : Nat) :
    Except String (Source × Cursor) :=
  if r.sourceSegments.isEmpty then .ok ((r.single uploadLength).part c.consumed maximum, c)
  else
    let c := skipConsumed (r.sourceSegments.drop c.index) c
    match r.sourceSegments[c.index]? with
    | none => .error "asynchronous upload exhausted its sources"
    | some s => .ok (s.part c.consumed maximum, c)

/-- `consume_upload_source`. -/
def Cursor.consume (c : Cursor) (n : Nat) : Cursor := { c with consumed := c.consumed + n }

/-- Files at any offset, pipes from where they have been read to. -/
structure World where
  files : Int → Bytes
  pipes : Int → Bytes

namespace Source

def available (body : Bytes) (w : World) (s : Source) : Bytes :=
  if s.fd < 0 then body.drop s.offset
  else if s.seek then (w.files s.fd).drop s.offset
  else w.pipes s.fd

def after (w : World) (s : Source) (n : Nat) : World :=
  if s.fd < 0 ∨ s.seek = true then w
  else { w with pipes := update w.pipes s.fd ((w.pipes s.fd).drop n) }

def read (body : Bytes) (w : World) (s : Source) : Option (Bytes × World) :=
  if s.length ≤ (s.available body w).length then
    some ((s.available body w).take s.length, s.after w s.length)
  else none

end Source

def bodyFrom (body : Bytes) : World → List Source → Option Bytes
  | _, [] => some []
  | w, s :: rest =>
    match s.read body w with
    | none => none
    | some (bytes, w) => (bodyFrom body w rest).map (bytes ++ ·)

def Request.sources (r : Request) (uploadLength : Nat) : List Source :=
  if r.sourceSegments.isEmpty then [r.single uploadLength] else r.sourceSegments

def remainingSources (sources : List Source) (c : Cursor) : List Source :=
  match sources.drop c.index with
  | [] => []
  | s :: rest => s.advance c.consumed :: rest

def declaredLength (sources : List Source) : Nat := (sources.map Source.length).sum

def Cursor.Within (c : Cursor) (sources : List Source) : Prop :=
  ∀ s rest, sources.drop c.index = s :: rest → c.consumed ≤ s.length

section
variable {body : Bytes} {w : World} {s : Source} {rest sources : List Source} {n k : Nat}
    {c : Cursor}

lemma available_after (s : Source) (body : Bytes) (w : World) (n : Nat) :
    (s.advance n).available body (s.after w n) = (s.available body w).drop n := by
  by_cases memory : s.fd < 0
  · simp only [Source.available, Source.advance, memory, if_true, drop_drop]
  · cases seek : s.seek with
    | true => simp [Source.available, Source.advance, Source.after, memory, seek, drop_drop]
    | false => simp [Source.available, Source.advance, Source.after, memory, seek]

lemma after_after (s : Source) (w : World) (n k : Nat) :
    (s.advance n).after (s.after w n) k = s.after w (n + k) := by
  by_cases still : s.fd < 0 ∨ s.seek = true
  · simp only [Source.after, Source.advance, still, if_true]
  · simp only [Source.after, Source.advance, still, if_false, update_idem,
        update_self, drop_drop]

lemma after_zero (s : Source) (w : World) : s.after w 0 = w := by
  rw [Source.after]
  split
  · rfl
  · rw [drop_zero, update_eq_self]

lemma bodyFrom_move (within : n ≤ s.length) (there : n ≤ (s.available body w).length) :
    bodyFrom body w (s :: rest) =
      (bodyFrom body (s.after w n) (s.advance n :: rest)).map
      ((s.available body w).take n ++ ·) := by
  obtain ⟨m, total⟩ := Nat.exists_eq_add_of_le within
  have left : (s.advance n).length = m := by
    rw [Source.advance, total]
    exact Nat.add_sub_cancel_left n m
  rw [bodyFrom, bodyFrom, Source.read, Source.read, left, available_after, after_after, total,
    length_drop]
  by_cases whole : n + m ≤ (s.available body w).length
  · rw [if_pos whole, if_pos (Nat.le_sub_of_add_le (by omega))]
    simp only [Option.map_map, comp_def, ← append_assoc, take_add]
  · rw [if_neg whole, if_neg (by omega)]
    rfl

lemma bodyFrom_skip (empty : s.length = 0) :
    bodyFrom body w (s :: rest) = bodyFrom body w rest := by
  rw [bodyFrom, Source.read, empty, if_pos (Nat.zero_le _), take_zero, after_zero]
  simp only [nil_append, Option.map_id']

lemma bodyFrom_zero (none_left : declaredLength sources = 0) :
    bodyFrom body w sources = some [] := by
  induction sources with
  | nil => rfl
  | cons s rest ih =>
    rw [declaredLength, map_cons, sum_cons, Nat.add_eq_zero_iff] at none_left
    rw [bodyFrom_skip none_left.1]
    exact ih none_left.2

lemma remainingSources_consume (here : remainingSources sources c = s :: rest) :
    remainingSources sources (c.consume n) = s.advance n :: rest := by
  rw [remainingSources] at here ⊢
  rw [Cursor.consume]
  split at here
  next => cases here
  next s' rest' found =>
    cases here
    simp only [found, Source.advance, Nat.add_assoc, Nat.sub_sub]

lemma declaredLength_advance (within : n ≤ s.length) :
    declaredLength (s.advance n :: rest) + n = declaredLength (s :: rest) := by
  simp only [declaredLength, map_cons, sum_cons, Source.advance]
  omega

lemma skipConsumed_spec (body : Bytes) (w : World) (sources : List Source) : ∀ (tail : List Source)
    (c : Cursor), sources.drop c.index = tail →
    declaredLength (remainingSources sources (skipConsumed tail c)) =
        declaredLength (remainingSources sources c) ∧
      bodyFrom body w (remainingSources sources (skipConsumed tail c)) =
        bodyFrom body w (remainingSources sources c) ∧
      (∀ s rest, sources.drop (skipConsumed tail c).index = s :: rest →
        (skipConsumed tail c).consumed ≠ s.length) ∧
      (c.Within sources → (skipConsumed tail c).Within sources) := by
  intro tail
  induction tail with
  | nil =>
    intro c here
    refine ⟨rfl, rfl, fun s rest found => ?_, id⟩
    rw [skipConsumed, here] at found
    cases found
  | cons s tail ih =>
    intro c here
    rw [skipConsumed]
    split
    next done =>
      have next : sources.drop (c.index + 1) = tail := by
        rw [← drop_drop, here, drop_one, tail_cons]
      obtain ⟨lengths, bodies, stop, within⟩ := ih ⟨c.index + 1, 0⟩ next
      have before : remainingSources sources c = s.advance c.consumed :: tail := by
        rw [remainingSources, here]
      have empty : (s.advance c.consumed).length = 0 := by
        rw [Source.advance, done]
        exact Nat.sub_self _
      have after : remainingSources sources ⟨c.index + 1, 0⟩ = tail := by
        rw [remainingSources, next]
        cases tail <;> rfl
      refine ⟨?_, ?_, stop, fun _ => within fun _ _ _ => Nat.zero_le _⟩
      · rw [lengths, before, after, declaredLength, declaredLength, map_cons, sum_cons, empty,
            Nat.zero_add]
      · rw [bodies, before, after, bodyFrom_skip empty]
    next more =>
      refine ⟨rfl, rfl, fun s' rest found => ?_, id⟩
      rw [here] at found
      cases found
      exact more

lemma remainingSources_cons (more : 0 < declaredLength (remainingSources sources c)) :
    ∃ s rest, sources.drop c.index = s :: rest ∧
      remainingSources sources c = s.advance c.consumed :: rest := by
  cases found : sources.drop c.index with
  | nil =>
    rw [remainingSources, found] at more
    exact absurd more (Nat.lt_irrefl 0)
  | cons s rest => exact ⟨s, rest, rfl, by rw [remainingSources, found]⟩

end

lemma uploadSource_spec (r : Request) (total : Nat) {c} (maximum : Nat)
    (within : c.Within (r.sources total))
    (more : 0 < declaredLength (remainingSources (r.sources total) c)) :
    ∃ s rest c', uploadSource r total c maximum = .ok (s.cap (min maximum s.length), c') ∧
      remainingSources (r.sources total) c' = s :: rest ∧ 0 < s.length ∧
          c'.Within (r.sources total) ∧
      declaredLength (remainingSources (r.sources total) c') =
        declaredLength (remainingSources (r.sources total) c) ∧
      ∀ w, bodyFrom r.body w (remainingSources (r.sources total) c') =
        bodyFrom r.body w (remainingSources (r.sources total) c) := by
  by_cases none_given : r.sourceSegments.isEmpty = true
  · have single : r.sources total = [r.single total] := if_pos none_given
    obtain ⟨s, rest, found, remaining⟩ := remainingSources_cons more
    have first : c.index = 0 := by
      rw [single] at found
      by_contra later
      rw [drop_of_length_le (by simpa using Nat.one_le_iff_ne_zero.2 later)] at found
      cases found
    rw [single, first, drop_zero] at found
    cases found
    refine ⟨_, [], c, ?_, remaining, ?_, within, rfl, fun _ => rfl⟩
    · rw [uploadSource, if_pos none_given]
      rfl
    · rw [remaining, declaredLength] at more
      simpa using more
  · have segments : r.sources total = r.sourceSegments := if_neg none_given
    rw [segments] at within more ⊢
    have spec := fun w =>
        skipConsumed_spec r.body w r.sourceSegments (r.sourceSegments.drop c.index) c rfl
    obtain ⟨lengths, -, stop, inside⟩ := spec ⟨fun _ => [], fun _ => []⟩
    rw [← lengths] at more
    obtain ⟨s, rest, found, remaining⟩ := remainingSources_cons more
    have member : r.sourceSegments[(skipConsumed (r.sourceSegments.drop c.index) c).index]?
        = some s := by
      rw [← head?_drop, found, head?_cons]
    refine ⟨_, rest, _, ?_, remaining, ?_, inside within, lengths, fun w => (spec w).2.1⟩
    · rw [uploadSource, if_neg none_given]
      simp only [member]
      rfl
    · have below := inside within s rest found
      have other := stop s rest found
      show 0 < s.length - _
      omega

lemma addSources_spec : ∀ {sources : List Source} {start total : Nat},
    addSources start sources = .ok total → total = start + declaredLength sources := by
  intro sources
  induction sources with
  | nil =>
    intro start total added
    cases added
    rfl
  | cons s rest ih =>
    intro start total added
    rw [addSources, addSource] at added
    split at added
    next => cases added
    next total' first =>
      split at first
      · cases first
      · cases first
        rw [ih added, declaredLength, declaredLength, map_cons, sum_cons, Nat.add_assoc]

lemma prepareUpload_spec (r : Request) {total} (prepared : prepareUpload r = .ok total) :
    declaredLength (r.sources total) = total ∧ (r.upload = false → total = 0) := by
  rw [prepareUpload] at prepared
  split at prepared
  next => cases prepared
  next fits =>
    refine ⟨?_, fun no_upload => ?_⟩
    · by_cases none_given : r.sourceSegments.isEmpty = true
      · rw [Request.sources, if_pos none_given, declaredLength]
        rfl
      · rw [Request.sources, if_neg none_given]
        rw [if_pos (by simpa using none_given)] at prepared
        rw [addSources_spec prepared, Nat.zero_add]
    · rw [no_upload] at fits
      simp only [Bool.not_false, Bool.true_and, Bool.or_eq_true, not_or, Bool.not_eq_true,
        Bool.not_eq_false', decide_eq_false_iff_not] at fits
      obtain ⟨⟨⟨⟨⟨segments, fd⟩, memory⟩, -⟩, -⟩, -⟩ := fits
      rw [segments, if_neg (by simp), if_neg (by simpa using fd)] at prepared
      cases prepared
      have empty : r.body = [] := isEmpty_iff.1 (by simpa using memory)
      rw [empty, length_nil]

end Ngs3fs.Http
