import Ngs3fs.Lib.Machine
import Ngs3fs.S3.Sign

/-!
# The authorization of ranged reads

`make_range_request`. A worker keeps the headers of its last request. A request for the same handle
in the same second takes them over with a new range, although they were signed for the path and the
entity tag that the handle had then. -/

namespace Ngs3fs.S3
open Machine

/-- `ChecksumService`. -/
inductive ChecksumService
  | unknown | aws | oss | gcs
  deriving DecidableEq

structure RangeConfig where
  verifyReadChecksum : Bool
  localCache : Bool
  directoryBucket : Bool
  checksumService : ChecksumService

structure OpenHandle where
  objectPath : Text
  versionId : Text
  etag : Text
  size : Nat

/-- `WorkerState`. -/
structure WorkerState where
  requestHeaders : List Header
  authorizationDate : Nat
  authorizationHandleId : Nat
  authorizationCount : Nat
  authorizationValid : Bool

/-- `AuthorizedRangeRequest`. -/
structure AuthorizedRangeRequest where
  path : Text
  headers : List Header
  rangeSigned : Bool
  verifyChecksum : Bool
  deriving DecidableEq

def hexDigits : Text := "0123456789ABCDEF".toList

/-- `uri_encode`. -/
def uriEncode (value : Text) (preserveSlashes : Bool) : Text :=
  value.flatMap fun c =>
    if c.isAlphanum || c == '-' || c == '.' || c == '_' || c == '~' || (preserveSlashes && c == '/')
    then [c]
    else ['%', hexDigits.getD (c.toNat / 16) '0', hexDigits.getD (c.toNat % 16) '0']

def versionField : Text := "versionId=".toList
def bytesUnit : Text := "bytes=".toList
def checksumMode : Header := ⟨"x-amz-checksum-mode".toList, "ENABLED".toList⟩

def OpenHandle.path (h : OpenHandle) : Text :=
  if h.versionId = [] then h.objectPath
  else h.objectPath ++ [if '?' ∈ h.objectPath then '&' else '?'] ++ versionField ++
    uriEncode h.versionId false

def OpenHandle.ifMatch (h : OpenHandle) : List Header :=
  if h.versionId = [] ∧ h.etag ≠ [] then [⟨ifMatchName, h.etag⟩] else []

/-- In 64-bit arithmetic. -/
def rangeHeader (offset length : Nat) : Header :=
  ⟨rangeName, bytesUnit ++ Nat.toDigits 10 offset ++ ['-'] ++
    Nat.toDigits 10 ((offset + length + (2 ^ 64 - 1)) % 2 ^ 64)⟩

structure RangeCall where
  offset : Nat
  length : Nat
  authorize : Bool
  reactor : Bool

section
variable (config : RangeConfig) (authorization : Text → List Header → Nat → List Header)
  (mode date : Nat) (worker : WorkerState) (id : Nat) (handle : OpenHandle) (call : RangeCall)

def verifyChecksum : Bool :=
  config.verifyReadChecksum && (config.localCache || !call.reactor) && call.offset == 0 &&
    call.length == handle.size

def requestChecksum : Bool :=
  verifyChecksum config handle call && config.checksumService != .oss &&
    config.checksumService != .gcs

def signRange : Bool := config.directoryBucket || mode == 2

def cacheable : Bool :=
  call.authorize && !config.directoryBucket && !signRange config mode &&
    !requestChecksum config handle call

def cacheHit : Bool :=
  cacheable config mode handle call && worker.authorizationValid &&
    worker.authorizationHandleId == id && worker.authorizationDate == date &&
    worker.requestHeaders[worker.authorizationCount]?.map Header.name == some rangeName

def authorized : List Header :=
  let range := if signRange config mode then [rangeHeader call.offset call.length] else []
  let checksum := if requestChecksum config handle call then [checksumMode] else []
  if call.authorize then authorization handle.path (handle.ifMatch ++ range ++
    checksum) date else []

/-- `make_range_request`. -/
def makeRangeRequest : WorkerState × AuthorizedRangeRequest :=
  let range := rangeHeader call.offset call.length
  let request (headers : List Header) : AuthorizedRangeRequest :=
    ⟨handle.path, headers, signRange config mode, verifyChecksum config handle call⟩
  if cacheHit config mode date worker id handle call then
    let headers := worker.requestHeaders.set worker.authorizationCount range
    ({ worker with requestHeaders := headers }, request headers)
  else
    let signed := authorized config authorization mode date handle call
    let checksum := if requestChecksum config handle call then [checksumMode] else []
    let headers := signed ++ [range] ++ checksum ++ handle.ifMatch
    if cacheable config mode handle call then
      (⟨headers, date, id, signed.length, true⟩, request headers)
    else
      ({ worker with
          requestHeaders := headers, authorizationCount := signed.length,
          authorizationValid := false },
        request headers)

end

/-! ### A worker among the others -/

/-- The handles, the signing mode, the clock and one worker. -/
structure Reading where
  handles : Nat → OpenHandle
  rangeSigningMode : Nat
  now : Nat
  worker : WorkerState

inductive RangeStep
  | request (id : Nat) (call : RangeCall)
  /-- `finish_open_file_rename` -/
  | rename (id : Nat) (path : Text)
  | publish (id : Nat) (versionId etag : Text) (size : Nat)
  | signingMode (mode : Nat)
  | clock (date : Nat)
  /-- The service has refused the headers. -/
  | rejected

section
variable (config : RangeConfig) (authorization : Text → List Header → Nat → List Header)

/-- `make_range_request` of the worker. -/
def Reading.make (s : Reading) (worker : WorkerState) (id : Nat) (call : RangeCall) :
    WorkerState × AuthorizedRangeRequest :=
  makeRangeRequest config authorization s.rangeSigningMode s.now worker id (s.handles id) call

/-- One `make_range_request`, or a change to what the next one reads. -/
def rangeStep (s : Reading) : RangeStep → Option Reading
  | .request id call =>
    some { s with worker := (s.make config authorization s.worker id call).1 }
  | .rename id path =>
    some { s with
      handles := Function.update s.handles id { s.handles id with objectPath := path } }
  | .publish id versionId etag size =>
    some { s with
      handles := Function.update s.handles id { s.handles id with versionId, etag, size } }
  | .signingMode mode => some { s with rangeSigningMode := mode }
  | .clock date => some { s with now := date }
  | .rejected => some { s with worker := { s.worker with authorizationValid := false } }

end

def Reading.Holds (s : Reading) (id : Nat) : Prop :=
  s.worker.authorizationValid = true ∧ s.worker.authorizationHandleId = id ∧
    s.worker.authorizationDate = s.now

/-- The path, the version and the entity tag of a handle change only when the memo is not about it
in this second, and the clock does not come back to that second. -/
def Undisturbed (s : Reading) : RangeStep → Prop
  | .rename id path => s.Holds id → path = (s.handles id).objectPath
  | .publish id versionId etag _ =>
    s.Holds id → versionId = (s.handles id).versionId ∧ etag = (s.handles id).etag
  | .clock date =>
    s.worker.authorizationValid = true → date = s.worker.authorizationDate → date = s.now
  | _ => True

section
variable {config : RangeConfig} {authorization : Text → List Header → Nat → List Header}
  {s s' : Reading} {id : Nat} {call : RangeCall}

def Current (authorization : Text → List Header → Nat → List Header) (s : Reading) : Prop :=
  ∀ id, s.Holds id → ∃ value,
    s.worker.requestHeaders = authorization (s.handles id).path (s.handles id).ifMatch s.now ++
        ⟨rangeName, value⟩ :: (s.handles id).ifMatch ∧
      s.worker.authorizationCount =
        (authorization (s.handles id).path (s.handles id).ifMatch s.now).length

lemma OpenHandle.same {h h' : OpenHandle} (path : h'.objectPath = h.objectPath)
    (version : h'.versionId = h.versionId) (etag : h'.etag = h.etag) :
    h'.path = h.path ∧ h'.ifMatch = h.ifMatch := by
  simp only [OpenHandle.path, OpenHandle.ifMatch, path, version, etag, and_self]

lemma cacheHit_iff {worker handle mode date} :
    cacheHit config mode date worker id handle call = true ↔
      cacheable config mode handle call = true ∧ worker.authorizationValid = true ∧
        worker.authorizationHandleId = id ∧ worker.authorizationDate = date ∧
        worker.requestHeaders[worker.authorizationCount]?.map Header.name = some rangeName := by
  simp only [cacheHit, Bool.and_eq_true, beq_iff_eq, and_assoc]

lemma authorized_cacheable (authorization : Text → List Header → Nat → List Header) (date : Nat)
    {handle mode} (keep : cacheable config mode handle call = true) :
    requestChecksum config handle call = false ∧
      authorized config authorization mode date handle call =
        authorization handle.path handle.ifMatch date := by
  simp only [cacheable, Bool.and_eq_true, Bool.not_eq_true'] at keep
  obtain ⟨⟨⟨authorize, -⟩, plain⟩, unchecked⟩ := keep
  simp [authorized, authorize, plain, unchecked]

section
variable (current : Current authorization s)
include current

lemma Current.hit
    (hit : cacheHit config s.rangeSigningMode s.now s.worker id (s.handles id) call = true) :
    s.worker.requestHeaders.set s.worker.authorizationCount (rangeHeader call.offset call.length) =
      authorized config authorization s.rangeSigningMode s.now (s.handles id) call ++
        rangeHeader call.offset call.length :: (s.handles id).ifMatch := by
  obtain ⟨keep, valid, same, date, -⟩ := cacheHit_iff.1 hit
  obtain ⟨value, headers, count⟩ := current id ⟨valid, same, date⟩
  rw [headers, count, List.set_append_right _ _ le_rfl, Nat.sub_self, List.set_cons_zero,
    (authorized_cacheable authorization s.now keep).2]

lemma Current.request :
    Current authorization { s with worker := (s.make config authorization s.worker id call).1 } :=
  by
  by_cases hit : cacheHit config s.rangeSigningMode s.now s.worker id (s.handles id) call = true
  · rw [Reading.make, makeRangeRequest, if_pos hit]
    obtain ⟨keep, -, rfl, -⟩ := cacheHit_iff.1 hit
    rintro _ ⟨valid, rfl, date⟩
    obtain ⟨-, -, count⟩ := current _ ⟨valid, rfl, date⟩
    refine ⟨(rangeHeader call.offset call.length).value, ?_, count⟩
    rw [← (authorized_cacheable authorization s.now keep).2]
    exact current.hit hit
  · rw [Reading.make, makeRangeRequest, if_neg hit]
    by_cases keep : cacheable config s.rangeSigningMode (s.handles id) call = true
    · obtain ⟨unchecked, signed⟩ := authorized_cacheable authorization s.now keep
      rw [if_pos keep, signed, unchecked]
      rintro _ ⟨-, rfl, -⟩
      exact ⟨(rangeHeader call.offset call.length).value, by simp [rangeHeader], rfl⟩
    · rw [if_neg keep]
      exact fun _ holds => nomatch holds.1

lemma Current.change {h}
    (same : s.Holds id → h.objectPath = (s.handles id).objectPath ∧ h.versionId =
      (s.handles id).versionId ∧ h.etag = (s.handles id).etag) :
    Current authorization { s with handles := Function.update s.handles id h } := by
  intro other holds
  obtain ⟨value, headers⟩ := current other holds
  refine ⟨value, ?_⟩
  by_cases here : other = id
  · subst here
    obtain ⟨path, version, etag⟩ := same holds
    simpa [OpenHandle.same path version etag] using headers
  · simpa [here] using headers

lemma Current.step {a} (calm : Undisturbed s a)
    (step : rangeStep config authorization s a = some s') : Current authorization s' := by
  cases a with
  | request id call =>
    cases step
    exact current.request
  | rename id path =>
    cases step
    exact current.change fun holds => ⟨calm holds, rfl, rfl⟩
  | publish id versionId etag size =>
    cases step
    exact current.change fun holds => ⟨rfl, calm holds⟩
  | signingMode mode =>
    cases step
    exact current
  | clock date =>
    cases step
    rintro id ⟨valid, same, at_⟩
    obtain rfl : date = s.now := calm valid at_.symm
    exact current id ⟨valid, same, at_⟩
  | rejected =>
    cases step
    exact fun _ holds => nomatch holds.1

end

end

/-- **The memo of the authorization.** In every run of one worker's requests, renames of handles,
changes of their versions and entity tags, switches of the signing mode and changes of the clock, a
call gives what it would give with an empty memo, provided that no handle changes while the memo is
about it. -/
theorem authorization_memo_transparent (config : RangeConfig)
    (authorization : Text → List Header → Nat → List Header) (start s : Reading)
    (steps : List RangeStep) (empty : start.worker.authorizationValid = false)
    (calm : Machine.Along (rangeStep config authorization) Undisturbed start steps)
    (ran : run (rangeStep config authorization) start steps = some s) (id : Nat)
    (call : RangeCall) (worker : WorkerState) (forgets : worker.authorizationValid = false) :
    (s.make config authorization s.worker id call).2 =
      (s.make config authorization worker id call).2 := by
  have fresh : Current authorization start := fun _ holds =>
    absurd holds.1 (by simp [empty])
  have current : Current authorization s :=
    run_inv_along (fun _ _ _ current => current.step) fresh calm ran
  have miss : ¬ cacheHit config s.rangeSigningMode s.now worker id (s.handles id) call = true :=
    fun hit => absurd (cacheHit_iff.1 hit).2.1 (by simp [forgets])
  simp only [Reading.make, makeRangeRequest]
  rw [if_neg miss]
  split
  case isTrue hit =>
    have keep := (cacheHit_iff.1 hit).1
    rw [current.hit hit, if_pos keep, (authorized_cacheable authorization s.now keep).1]
    simp
  case isFalse => split <;> rfl

def noMemo : Reading where
  handles _ := ⟨['/', 'a'], [], ['e'], 9⟩
  rangeSigningMode := 0
  now := 0
  worker := ⟨[], 0, 0, 0, false⟩

def uncached : RangeConfig := ⟨false, false, false, .aws⟩

def pathShown (path : Text) (_ : List Header) (_ : Nat) : List Header := [⟨authorizationName, path⟩]

theorem authorization_memo_transparent_second :
    ∃ s, run (rangeStep uncached pathShown) noMemo
        [.request 1 ⟨0, 4, true, false⟩, .clock 1, .rename 1 ['/', 'b']] = some s ∧
      (s.make uncached pathShown s.worker 1 ⟨4, 4, true, false⟩).2 =
        (s.make uncached pathShown noMemo.worker 1 ⟨4, 4, true, false⟩).2 := by
  refine ⟨_, rfl, authorization_memo_transparent uncached pathShown noMemo _
    [.request 1 ⟨0, 4, true, false⟩, .clock 1, .rename 1 ['/', 'b']] rfl ?_ rfl 1 _ _ rfl⟩
  refine ⟨trivial, fun _ h => ⟨?_, fun _ h' => ⟨?_, fun _ _ => trivial⟩⟩⟩
  · cases h
    exact fun _ same => nomatch same
  · cases h
    cases h'
    exact fun holds => nomatch holds.2.2

/-- A handle is renamed between two reads in one second. -/
theorem renamed_handle_keeps_signature :
    ∃ s, run (rangeStep uncached pathShown) noMemo
        [.request 1 ⟨0, 4, true, false⟩, .rename 1 ['/', 'b']] = some s ∧
      (s.make uncached pathShown s.worker 1 ⟨4, 4, true, false⟩).2 ≠
        (s.make uncached pathShown noMemo.worker 1 ⟨4, 4, true, false⟩).2 :=
  ⟨_, rfl, by decide⟩

end Ngs3fs.S3
